import Chttp2.Lib.Machine

/-!
# Computations in lockstep

`Agree R x y` says that two fallible computations fail with the same error, or both succeed with
results that `R` relates. The rules follow the structure of programs: `Agree.bind` for sequences,
`Agree.bind_same` where both begin with one computation, `Agree.ite` for branches.

`Machine.observe` is what an execution shows. `Machine.observe_eq_iff` lifts what one step does to
whole executions: related states that are stepped alike where a condition holds, and differently
where it fails, show the same exactly where the condition is met all along.
-/

set_option autoImplicit false

universe u v w x y

/-- Both fail with the same error, or both succeed with related results. -/
def Agree {ε : Type u} {α : Type v} {β : Type w} (R : α → β → Prop) :
    Except ε α → Except ε β → Prop
  | .ok a, .ok b => R a b
  | .error e, .error e' => e = e'
  | _, _ => False

namespace Agree

variable {ε : Type u} {α : Type v} {β : Type w} {R : α → β → Prop} {x : Except ε α}
  {y : Except ε β}

theorem mono_ok {S : α → β → Prop} (h : Agree R x y)
    (himp : ∀ a b, x = .ok a → y = .ok b → R a b → S a b) : Agree S x y := by
  cases x <;> cases y
  · exact h
  · exact h
  · exact h
  · exact himp _ _ rfl rfl h

theorem mono {S : α → β → Prop} (h : Agree R x y) (himp : ∀ a b, R a b → S a b) : Agree S x y :=
  h.mono_ok fun a b _ _ => himp a b

/-- The rest may use what the first computations returned. -/
theorem bind_ok {γ : Type v} {δ : Type w} {S : γ → δ → Prop} {f : α → Except ε γ}
    {g : β → Except ε δ} (h : Agree R x y)
    (hrest : ∀ a b, x = .ok a → y = .ok b → R a b → Agree S (f a) (g b)) :
    Agree S (x >>= f) (y >>= g) := by
  cases x <;> cases y
  · exact h
  · exact h.elim
  · exact h.elim
  · exact hrest _ _ rfl rfl h

theorem bind {γ : Type v} {δ : Type w} {S : γ → δ → Prop} {f : α → Except ε γ} {g : β → Except ε δ}
    (h : Agree R x y) (hrest : ∀ a b, R a b → Agree S (f a) (g b)) :
    Agree S (x >>= f) (y >>= g) :=
  h.bind_ok fun a b _ _ => hrest a b

/-- Two programs that begin with the same computation. -/
theorem bind_same {γ : Type v} {δ : Type v} {S : γ → δ → Prop} {f : α → Except ε γ}
    {g : α → Except ε δ} (x : Except ε α) (hrest : ∀ a, x = .ok a → Agree S (f a) (g a)) :
    Agree S (x >>= f) (x >>= g) := by
  cases x with
  | error e => rfl
  | ok a => exact hrest a rfl

/-- Branches on conditions that are judged alike. -/
theorem ite_iff {c c' : Prop} [Decidable c] [Decidable c'] {x' : Except ε α} {y' : Except ε β}
    (hc : c ↔ c') (hpos : c → Agree R x y) (hneg : ¬ c → Agree R x' y') :
    Agree R (if c then x else x') (if c' then y else y') := by
  by_cases h : c
  · rw [if_pos h, if_pos (hc.1 h)]
    exact hpos h
  · rw [if_neg h, if_neg fun h' => h (hc.2 h')]
    exact hneg h

theorem ite {c : Prop} [Decidable c] {x' : Except ε α} {y' : Except ε β} (hpos : c → Agree R x y)
    (hneg : ¬ c → Agree R x' y') : Agree R (if c then x else x') (if c then y else y') :=
  ite_iff Iff.rfl hpos hneg

end Agree

namespace Machine

variable {σ : Type u} {ι : Type v} {ο : Type w} {ε : Type x} {γ : Type y}

/-- What an execution shows: the outputs as `f` shows them, and the error of a step that fails. -/
def observe (step : σ → ι → Except ε (σ × ο)) (f : ο → γ) : σ → List ι → List (Except ε γ)
  | _, [] => []
  | s, i :: is =>
    match step s i with
    | .error e => [.error e]
    | .ok (s', o) => .ok (f o) :: observe step f s' is

/-- The condition holds before every step of two executions of a list, for as long as both go on. -/
def Meets (step : σ → ι → Except ε (σ × ο)) (C : σ → σ → ι → Prop) : σ → σ → List ι → Prop
  | _, _, [] => True
  | s, t, i :: is => C s t i ∧ ∀ s' o t' o', step s i = .ok (s', o) → step t i = .ok (t', o') →
      Meets step C s' t' is

variable {step : σ → ι → Except ε (σ × ο)} {f : ο → γ} {R : σ → σ → Prop} {C : σ → σ → ι → Prop}

/-- After a successful execution the rest of a list is observed from the state it ends in. -/
theorem observe_append {is : List ι} (js : List ι) {s s' : σ} {tr : List (Entry σ ι ο)}
    (h : run step s is = .ok (s', tr)) :
    observe step f s (is ++ js) = tr.map (fun e => .ok (f e.output)) ++ observe step f s' js := by
  induction is generalizing s tr with
  | nil =>
    simp only [run, Except.ok.injEq, Prod.mk.injEq] at h
    obtain ⟨rfl, rfl⟩ := h
    rfl
  | cons i is ih =>
    simp only [run] at h
    split at h
    · cases h
    · rename_i s₁ o hs
      split at h
      · cases h
      · rename_i s₂ tr₂ hr
        simp only [Except.ok.injEq, Prod.mk.injEq] at h
        obtain ⟨rfl, rfl⟩ := h
        simp only [List.cons_append, observe, hs, ih hr, List.map_cons]

/-- A condition that holds between equal states is met by two executions from one state. -/
theorem meets_self (hC : ∀ s i, C s s i) (is : List ι) : ∀ s, Meets step C s s is := by
  induction is with
  | nil => exact fun _ => trivial
  | cons i is ih =>
    intro s
    refine ⟨hC s i, fun s' o t' o' hs ht => ?_⟩
    rw [hs] at ht
    cases ht
    exact ih s'

/-- The first thing that an execution shows. -/
theorem head?_observe (s : σ) (i : ι) (is : List ι) :
    (observe step f s (i :: is)).head? = some ((step s i).map fun x => f x.2) := by
  unfold observe
  cases step s i <;> rfl

/-- After steps that show the same, the rests have to show the same. -/
theorem observe_cons_eq_iff {s t : σ} {i j : ι} (is : List ι)
    (h : Agree (fun a b => f a.2 = f b.2) (step s i) (step t j)) :
    observe step f s (i :: is) = observe step f t (j :: is) ↔
      ∀ s' o t' o', step s i = .ok (s', o) → step t j = .ok (t', o') →
        observe step f s' is = observe step f t' is := by
  simp only [observe]
  cases hs : step s i with
  | error e =>
    cases ht : step t j with
    | error e' =>
      rw [hs, ht] at h
      exact iff_of_true (congrArg (fun e => [Except.error e]) h) fun _ _ _ _ h => by cases h
    | ok b =>
      rw [hs, ht] at h
      exact h.elim
  | ok a =>
    cases ht : step t j with
    | error e' =>
      rw [hs, ht] at h
      exact h.elim
    | ok b =>
      rw [hs, ht] at h
      have hhead : f a.2 = f b.2 := h
      dsimp only
      rw [hhead, List.cons.injEq]
      constructor
      · rintro ⟨-, hrest⟩ s' o t' o' hs' ht'
        cases hs'
        cases ht'
        exact hrest
      · exact fun hrest => ⟨rfl, hrest _ _ _ _ rfl rfl⟩

/-- If related states are stepped alike exactly where the condition holds, executions show the same
exactly where they meet the condition. -/
theorem observe_eq_iff
    (halike : ∀ s t i, R s t → C s t i →
      Agree (fun a b => R a.1 b.1 ∧ f a.2 = f b.2) (step s i) (step t i))
    (hdiffer : ∀ s t i, R s t → ¬ C s t i →
      (step s i).map (fun x => f x.2) ≠ (step t i).map fun x => f x.2) (is : List ι) :
    ∀ s t, R s t → (observe step f s is = observe step f t is ↔ Meets step C s t is) := by
  induction is with
  | nil => exact fun _ _ _ => iff_of_true rfl trivial
  | cons i is ih =>
    intro s t h
    by_cases hC : C s t i
    · have hone := halike s t i h hC
      have hrest : ∀ s' o t' o', step s i = .ok (s', o) → step t i = .ok (t', o') →
          (observe step f s' is = observe step f t' is ↔ Meets step C s' t' is) := by
        intro s' o t' o' hs ht
        rw [hs, ht] at hone
        exact ih s' t' hone.1
      rw [observe_cons_eq_iff is (hone.mono fun _ _ h => h.2)]
      constructor
      · exact fun heq => ⟨hC, fun s' o t' o' hs ht =>
          (hrest s' o t' o' hs ht).1 (heq s' o t' o' hs ht)⟩
      · exact fun hmeets s' o t' o' hs ht =>
          (hrest s' o t' o' hs ht).2 (hmeets.2 s' o t' o' hs ht)
    · -- the first step shows the difference
      refine iff_of_false (fun heq => hdiffer s t i h hC ?_) fun hmeets => hC hmeets.1
      have hhead := congrArg List.head? heq
      rw [head?_observe, head?_observe] at hhead
      exact Option.some.inj hhead

/-- Executions of inputs that step related states alike show the same. -/
theorem observe_eq_of_forall {C : ι → Prop}
    (halike : ∀ s t i, R s t → C i →
      Agree (fun a b => R a.1 b.1 ∧ f a.2 = f b.2) (step s i) (step t i))
    (is : List ι) (hC : ∀ i ∈ is, C i) : ∀ {s t : σ}, R s t →
      observe step f s is = observe step f t is := by
  induction is with
  | nil => exact fun _ => rfl
  | cons i is ih =>
    intro s t h
    obtain ⟨hi, hC⟩ := List.forall_mem_cons.1 hC
    have hone := halike s t i h hi
    refine (observe_cons_eq_iff is (hone.mono fun _ _ h => h.2)).2 fun s' o t' o' hs ht => ?_
    rw [hs, ht] at hone
    exact ih hC hone.1

/-- Executions from states that every input steps alike show the same. -/
theorem observe_eq
    (halike : ∀ s t i, R s t →
      Agree (fun a b => R a.1 b.1 ∧ f a.2 = f b.2) (step s i) (step t i))
    (is : List ι) {s t : σ} (h : R s t) : observe step f s is = observe step f t is :=
  observe_eq_of_forall (C := fun _ => True) (fun s t i h _ => halike s t i h) is
    (fun _ _ => trivial) h

end Machine
