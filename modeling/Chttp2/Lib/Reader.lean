import Mathlib.Data.List.Basic

/-!
# Readers and the forms they read

A reader takes a value off the front of a list and gives back the rest. A form says which lists
stand for which value. `Reads read form` says that the reader finds a value exactly where a part in
its form stands at the front, and that it takes off this part and nothing else.

The rules compose readers together with their forms: one reader after another (`Reads.bind`), a
block of a known length (`reads_take`), and a choice by the first element (`Reads.choose`).
-/

set_option autoImplicit false

namespace Reader

universe u v w

variable {β : Type u} {α : Type v} {γ : Type w}

/-- The reader takes a value off the front exactly when a part there has the form of the value. -/
def Reads (read : List β → Option (α × List β)) (form : List β → α → Prop) : Prop :=
  ∀ bs a rest, read bs = some (a, rest) ↔ ∃ part, bs = part ++ rest ∧ form part a

/-- A part in the first form and then one in the form that its value asks for. -/
def Then (form : List β → α → Prop) (next : α → List β → γ → Prop) (part : List β) (c : γ) :
    Prop :=
  ∃ a first second, part = first ++ second ∧ form first a ∧ next a second c

variable {read : List β → Option (α × List β)} {form : List β → α → Prop}

theorem Reads.congr {form' : List β → α → Prop} (h : Reads read form)
    (heq : ∀ part a, form part a ↔ form' part a) : Reads read form' := by
  intro bs a rest
  rw [h bs a rest]
  exact exists_congr fun part => and_congr_right fun _ => heq part a

/-- What stands at the front is determined by the list. -/
theorem Reads.unique (h : Reads read form) {part part' rest rest' : List β} {a a' : α}
    (hpart : form part a) (hpart' : form part' a') (heq : part ++ rest = part' ++ rest') :
    a = a' ∧ rest = rest' := by
  have h1 : read (part ++ rest) = some (a, rest) := (h _ a rest).2 ⟨part, rfl, hpart⟩
  have h2 : read (part ++ rest) = some (a', rest') := (h _ a' rest').2 ⟨part', heq, hpart'⟩
  rw [h1, Option.some.injEq, Prod.mk.injEq] at h2
  exact h2

/-- What a reader makes of the beginning of a stream: where a part with a value stands at the front,
it reads it as soon as all of it is there, and nothing before. -/
theorem Reads.front (h : Reads read form) {part tail bs more : List β} {a : α}
    (hpart : form part a) (heq : bs ++ more = part ++ tail) :
    (∃ rest, bs = part ++ rest ∧ tail = rest ++ more ∧ read bs = some (a, rest)) ∨
      (read bs = none ∧ ∃ missing, missing ≠ [] ∧ part = bs ++ missing) := by
  have hwhole : ∀ rest, bs = part ++ rest → read bs = some (a, rest) :=
    fun rest hbs => (h bs a rest).2 ⟨part, hbs, hpart⟩
  rcases List.append_eq_append_iff.1 heq with ⟨missing, hmissing, hmore⟩ | ⟨rest, hbs, htail⟩
  · by_cases hnil : missing = []
    · subst hnil
      rw [List.append_nil] at hmissing
      refine Or.inl ⟨[], by rw [hmissing, List.append_nil], by simpa using hmore.symm, ?_⟩
      exact hwhole [] (by rw [hmissing, List.append_nil])
    · refine Or.inr ⟨?_, missing, hnil, hmissing⟩
      cases hread : read bs with
      | none => rfl
      | some p =>
        -- the part that would be read is the whole part
        obtain ⟨part', rfl, hpart'⟩ := (h bs p.1 p.2).1 hread
        have hsame : part ++ [] = part' ++ (p.2 ++ missing) := by
          rw [List.append_nil, hmissing, List.append_assoc]
        have hrest := (h.unique hpart hpart' hsame).2
        exact absurd (List.append_eq_nil_iff.1 hrest.symm).2 hnil
  · exact Or.inl ⟨rest, hbs, htail, hwhole rest hbs⟩

theorem reads_pure (a : α) :
    Reads (fun bs : List β => some (a, bs)) fun part c => part = [] ∧ c = a := by
  intro bs c rest
  rw [Option.some.injEq, Prod.mk.injEq]
  constructor
  · rintro ⟨rfl, rfl⟩
    exact ⟨[], rfl, rfl, rfl⟩
  · rintro ⟨part, rfl, rfl, rfl⟩
    exact ⟨rfl, rfl⟩

theorem Reads.map (h : Reads read form) (f : α → γ) :
    Reads (fun bs => (read bs).map fun p => (f p.1, p.2)) fun part c =>
      ∃ a, form part a ∧ f a = c := by
  intro bs c rest
  rw [Option.map_eq_some_iff]
  constructor
  · rintro ⟨⟨a, rest'⟩, hread, heq⟩
    rw [Prod.mk.injEq] at heq
    obtain ⟨rfl, rfl⟩ := heq
    obtain ⟨part, hbs, hpart⟩ := (h bs a rest').1 hread
    exact ⟨part, hbs, a, hpart, rfl⟩
  · rintro ⟨part, hbs, a, hpart, rfl⟩
    exact ⟨(a, rest), (h bs a rest).2 ⟨part, hbs, hpart⟩, rfl⟩

/-- One reader after another. -/
theorem Reads.bind (h : Reads read form) {next : α → List β → Option (γ × List β)}
    {form' : α → List β → γ → Prop} (hnext : ∀ a, Reads (next a) (form' a)) :
    Reads (fun bs => (read bs).bind fun p => next p.1 p.2) (Then form form') := by
  intro bs c rest
  rw [Option.bind_eq_some_iff]
  constructor
  · rintro ⟨⟨a, mid⟩, hread, hrest⟩
    obtain ⟨first, rfl, hfirst⟩ := (h bs a mid).1 hread
    obtain ⟨second, rfl, hsecond⟩ := (hnext a mid c rest).1 hrest
    exact ⟨first ++ second, (List.append_assoc _ _ _).symm, a, first, second, rfl, hfirst, hsecond⟩
  · rintro ⟨part, rfl, a, first, second, rfl, hfirst, hsecond⟩
    refine ⟨(a, second ++ rest), ?_, ?_⟩
    · exact (h _ a _).2 ⟨first, List.append_assoc _ _ _, hfirst⟩
    · exact (hnext a _ c rest).2 ⟨second, rfl, hsecond⟩

/-- A block of `length` elements, whose value is computed by `f`. -/
theorem reads_take (length : Nat) (f : List β → Option α) :
    Reads (fun bs => if bs.length < length then none
      else (f (bs.take length)).map fun a => (a, bs.drop length)) fun part a =>
        part.length = length ∧ f part = some a := by
  intro bs a rest
  dsimp only
  constructor
  · intro hread
    split at hread
    · cases hread
    · rename_i hlen
      obtain ⟨c, hc, heq⟩ := Option.map_eq_some_iff.1 hread
      rw [Prod.mk.injEq] at heq
      obtain ⟨rfl, rfl⟩ := heq
      refine ⟨bs.take length, (List.take_append_drop _ _).symm, ?_, hc⟩
      rw [List.length_take]
      omega
  · rintro ⟨part, rfl, rfl, ha⟩
    have hlen : ¬ (part ++ rest).length < part.length := by
      rw [List.length_append]
      omega
    rw [if_neg hlen, List.take_left, List.drop_left, ha]
    rfl

/-- The first element chooses the reader, where no form is empty. -/
theorem Reads.choose {read' : List β → Option (α × List β)} {form' : List β → α → Prop}
    (p : Option β → Prop) [DecidablePred p] (h : Reads read form) (h' : Reads read' form')
    (hne : ∀ a, ¬ form [] a) (hne' : ∀ a, ¬ form' [] a) :
    Reads (fun bs => if p bs.head? then read bs else read' bs) fun part a =>
      if p part.head? then form part a else form' part a := by
  -- the part that is read holds the first element
  have hhead : ∀ (part rest : List β), part ≠ [] → (part ++ rest).head? = part.head? := by
    intro part rest hpart
    rw [List.head?_append_of_ne_nil _ hpart]
  intro bs a rest
  dsimp only
  by_cases hp : p bs.head?
  · rw [if_pos hp, h bs a rest]
    refine exists_congr fun part => and_congr_right ?_
    rintro rfl
    cases part with
    | nil =>
      refine iff_of_false (hne a) ?_
      split
      · exact hne a
      · exact hne' a
    | cons b part =>
      rw [hhead _ _ (List.cons_ne_nil _ _)] at hp
      rw [if_pos hp]
  · rw [if_neg hp, h' bs a rest]
    refine exists_congr fun part => and_congr_right ?_
    rintro rfl
    cases part with
    | nil =>
      refine iff_of_false (hne' a) ?_
      split
      · exact hne a
      · exact hne' a
    | cons b part =>
      rw [hhead _ _ (List.cons_ne_nil _ _)] at hp
      rw [if_neg hp]

end Reader
