import Mathlib.Algebra.Order.Ring.Nat

/-!
# Pools of threads

A thread executes a program, a list of instructions of which the first is the next one. Executing an
instruction replaces it by the instructions that it leads to (`Pool.advance`), so that a call is
a program counter with what follows it, and a loop is the list of its rounds.

An interleaving picks a thread for each step. What the threads still have to do is described by
counting instructions over the whole pool (`count`): `count_advance` says how a step changes a
count, and `forall_advance` is the rule for properties of single threads.
-/

set_option autoImplicit false

namespace Interleaving

universe u v

variable {κ : Type u} {ι : Type v}

/-- A thread: the call that it has been made for, and the instructions that are left. -/
structure Thread (κ : Type u) (ι : Type v) where
  call : κ
  program : List ι

/-- The threads that run. -/
abbrev Pool (κ : Type u) (ι : Type v) := List (Thread κ ι)

namespace Pool

/-- The next instruction of a thread, with the thread itself. -/
def head? (T : Pool κ ι) (t : Nat) : Option (Thread κ ι × ι) :=
  match T[t]? with
  | some ⟨call, i :: rest⟩ => some (⟨call, rest⟩, i)
  | _ => none

/-- The thread at `t` goes on with the instructions `new`. -/
def advance (T : Pool κ ι) (t : Nat) (th : Thread κ ι) (new : List ι) : Pool κ ι :=
  T.set t { th with program := new ++ th.program }

/-- The number of instructions of a kind that are left. -/
def count (p : ι → Bool) : Pool κ ι → Nat
  | [] => 0
  | th :: T => th.program.countP p + count p T

variable {T : Pool κ ι} {t : Nat} {th : Thread κ ι} {i : ι} {p : ι → Bool}

theorem getElem?_of_head? (h : T.head? t = some (th, i)) :
    T[t]? = some { th with program := i :: th.program } := by
  unfold head? at h
  split at h
  · rename_i call j rest hget
    obtain ⟨rfl, rfl⟩ := Prod.mk.inj (Option.some.inj h)
    exact hget
  · cases h

theorem mem_of_head? (h : T.head? t = some (th, i)) :
    { th with program := i :: th.program } ∈ T :=
  List.mem_of_getElem? (getElem?_of_head? h)

@[simp] theorem count_nil : count p ([] : Pool κ ι) = 0 := rfl

@[simp] theorem count_cons (a : Thread κ ι) (T : Pool κ ι) :
    count p (a :: T) = a.program.countP p + count p T := rfl

@[simp] theorem count_append (T U : Pool κ ι) : count p (T ++ U) = count p T + count p U := by
  induction T with
  | nil => simp
  | cons a T ih =>
    rw [List.cons_append, count_cons, count_cons, ih, Nat.add_assoc]

/-- A thread is replaced: its instructions are exchanged in the count. -/
theorem count_set {a : Thread κ ι} (b : Thread κ ι) :
    ∀ {T : Pool κ ι} {t : Nat}, T[t]? = some a →
      count p (T.set t b) + a.program.countP p = count p T + b.program.countP p := by
  intro T
  induction T with
  | nil =>
    intro t h
    cases h
  | cons c T ih =>
    intro t h
    cases t with
    | zero =>
      obtain rfl : c = a := by simpa using h
      simp only [List.set_cons_zero, count_cons]
      omega
    | succ t =>
      have hrest := ih (t := t) (by simpa using h)
      simp only [List.set_cons_succ, count_cons]
      omega

/-- The instruction that is executed leaves the count, and those that it leads to join it. -/
theorem count_advance (h : T.head? t = some (th, i)) (new : List ι) :
    count p (T.advance t th new) + (if p i then 1 else 0) = count p T + new.countP p := by
  have hset := count_set (p := p) { th with program := new ++ th.program } (getElem?_of_head? h)
  simp only [List.countP_cons, List.countP_append] at hset
  unfold advance
  omega

/-- The instructions that a step leaves alone are a pool: the next instruction joins them before the
step, and those that it leads to after it. -/
theorem exists_rest (h : T.head? t = some (th, i)) :
    ∃ U : Pool κ ι, (∀ p, count p T = count p U + if p i then 1 else 0) ∧
      ∀ new p, count p (T.advance t th new) = count p U + new.countP p := by
  have hnone : ∀ p, count p (T.advance t th []) + (if p i then 1 else 0) = count p T :=
    fun p => count_advance h []
  refine ⟨T.advance t th [], fun p => (hnone p).symm, fun new p => ?_⟩
  have hnew := count_advance (p := p) h new
  have hrest := hnone p
  omega

/-- The instructions of a kind are left after a step, unless the executed one was of the kind. -/
theorem count_advance_pos (h : T.head? t = some (th, i)) (new : List ι) (hpos : 0 < count p T) :
    p i = true ∨ 0 < count p (T.advance t th new) := by
  have hcount := count_advance (p := p) h new
  split at hcount
  · exact .inl ‹_›
  · exact .inr (by omega)

theorem count_advance_pos_of_new (h : T.head? t = some (th, i)) {new : List ι}
    (hpos : 0 < new.countP p) : 0 < count p (T.advance t th new) := by
  obtain ⟨U, -, hafter⟩ := exists_rest h
  rw [hafter]
  exact Nat.add_pos_right _ hpos

/-- Instructions of one kind that are all of two others. -/
theorem count_le_add {q r : ι → Bool} (hpqr : ∀ i, p i = true → q i = true ∨ r i = true) :
    count p T ≤ count q T + count r T := by
  have hprogram : ∀ l : List ι, l.countP p ≤ l.countP q + l.countP r := by
    intro l
    induction l with
    | nil => simp
    | cons i l ih =>
      simp only [List.countP_cons]
      have hi := hpqr i
      grind
  induction T with
  | nil => simp
  | cons a T ih =>
    have ha := hprogram a.program
    simp only [count_cons]
    omega

theorem count_mono {q : ι → Bool} (hpq : ∀ i, p i = true → q i = true) : count p T ≤ count q T := by
  induction T with
  | nil => exact le_rfl
  | cons a T ih =>
    simp only [count_cons]
    exact Nat.add_le_add (List.countP_mono_left fun i _ => hpq i) ih

theorem countP_le_count (h : th ∈ T) : th.program.countP p ≤ count p T := by
  induction T with
  | nil => exact absurd h List.not_mem_nil
  | cons a T ih =>
    rw [count_cons]
    rcases List.mem_cons.1 h with rfl | hmem
    · exact Nat.le_add_right _ _
    · exact (ih hmem).trans (Nat.le_add_left _ _)

/-- An instruction that is about to be executed is counted. -/
theorem count_pos_of_head? (h : T.head? t = some (th, i)) (hi : p i = true) : 0 < count p T := by
  refine lt_of_lt_of_le ?_ (countP_le_count (mem_of_head? h))
  simp [hi]

theorem count_eq_zero (h : ∀ th ∈ T, th.program.countP p = 0) : count p T = 0 := by
  induction T with
  | nil => rfl
  | cons a T ih =>
    obtain ⟨ha, hT⟩ := List.forall_mem_cons.1 h
    rw [count_cons, ha, ih hT]

/-- A property of the threads that the advancing thread keeps. -/
theorem forall_advance {Q : Thread κ ι → Prop} (hT : ∀ th ∈ T, Q th) {new : List ι}
    (hth : Q { th with program := new ++ th.program }) : ∀ th' ∈ T.advance t th new, Q th' := by
  intro th' hmem
  rcases List.mem_or_eq_of_mem_set hmem with hold | rfl
  · exact hT th' hold
  · exact hth

/-- A thread after a step is a thread before it, or the one that advanced. -/
theorem exists_of_mem_advance (h : T.head? t = some (th, i)) {new : List ι} {th' : Thread κ ι}
    (hmem : th' ∈ T.advance t th new) : ∃ th₀ ∈ T, th₀.call = th'.call := by
  rcases List.mem_or_eq_of_mem_set hmem with hold | rfl
  · exact ⟨th', hold, rfl⟩
  · exact ⟨_, mem_of_head? h, rfl⟩

end Pool

end Interleaving
