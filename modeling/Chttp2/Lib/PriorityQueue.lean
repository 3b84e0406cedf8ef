import Mathlib.Data.List.Perm.Basic
import Mathlib.Order.Lattice

/-!
# Priority queues

A priority queue over a list of entries is given by what it does when an entry is pushed and when
the top entry is popped (`HeapRule`). A rule may arrange the entries as it likes and choose among
entries with equal keys, so a result for every rule holds for every heap.

`HeapRule.linear` searches for the first entry with the smallest key.
-/

set_option autoImplicit false

/-- The operations of a priority queue whose top has the smallest key. -/
structure HeapRule {α : Type*} {κ : Type*} [LE κ] (key : α → κ) where
  push : List α → α → List α
  pop : List α → Option (α × List α)
  push_perm : ∀ l a, (push l a).Perm (a :: l)
  pop_nil : pop [] = none
  pop_isSome : ∀ l, l ≠ [] → (pop l).isSome = true
  pop_perm : ∀ l a rest, pop l = some (a, rest) → l.Perm (a :: rest)
  pop_le : ∀ l a rest, pop l = some (a, rest) → ∀ b ∈ l, key a ≤ key b

namespace HeapRule

section Rules

variable {α : Type*} {κ : Type*} [LE κ] {key : α → κ} (rule : HeapRule key)
  {l rest : List α} {a : α}

theorem mem_push {b : α} : b ∈ rule.push l a ↔ b = a ∨ b ∈ l := by
  rw [(rule.push_perm l a).mem_iff, List.mem_cons]

theorem eq_nil_of_pop (h : rule.pop l = none) : l = [] := by
  by_contra hne
  have hsome := rule.pop_isSome l hne
  rw [h] at hsome
  cases hsome

theorem mem_iff_of_pop (h : rule.pop l = some (a, rest)) {b : α} : b ∈ l ↔ b = a ∨ b ∈ rest := by
  rw [(rule.pop_perm l a rest h).mem_iff, List.mem_cons]

theorem length_of_pop (h : rule.pop l = some (a, rest)) : l.length = rest.length + 1 :=
  (rule.pop_perm l a rest h).length_eq

end Rules

section Linear

variable {α : Type*} {κ : Type*} [LinearOrder κ] (key : α → κ)

/-- Take the first entry with the smallest key out of a list. -/
def takeMin : List α → Option (α × List α)
  | [] => none
  | a :: l =>
    match takeMin l with
    | none => some (a, l)
    | some (b, rest) => if key a ≤ key b then some (a, l) else some (b, a :: rest)

variable {key}

theorem takeMin_eq_none {l : List α} (h : takeMin key l = none) : l = [] := by
  cases l with
  | nil => rfl
  | cons a l =>
    rw [takeMin] at h
    split at h
    · cases h
    · split at h <;> cases h

theorem takeMin_spec {l : List α} : ∀ {a : α} {rest : List α}, takeMin key l = some (a, rest) →
    l.Perm (a :: rest) ∧ ∀ b ∈ l, key a ≤ key b := by
  induction l with
  | nil =>
    intro a rest h
    cases h
  | cons x l ih =>
    intro a rest h
    rw [takeMin] at h
    split at h
    · rename_i hnone
      cases h
      rw [takeMin_eq_none hnone]
      exact ⟨List.Perm.refl _, by simp⟩
    · rename_i b left hsome
      obtain ⟨hperm, hle⟩ := ih hsome
      split at h
      · rename_i hx
        cases h
        exact ⟨List.Perm.refl _, List.forall_mem_cons.2 ⟨le_refl _,
          fun c hc => le_trans hx (hle c hc)⟩⟩
      · rename_i hx
        cases h
        refine ⟨(hperm.cons x).trans (List.Perm.swap _ _ _), List.forall_mem_cons.2 ⟨?_, hle⟩⟩
        exact le_of_lt (lt_of_not_ge hx)

variable (key) in
/-- The queue that keeps its entries in a list and searches it. -/
def linear : HeapRule key where
  push l a := l ++ [a]
  pop := takeMin key
  push_perm l a := List.perm_append_singleton a l
  pop_nil := rfl
  pop_isSome _ hne := Option.isSome_iff_ne_none.2 fun h => hne (takeMin_eq_none h)
  pop_perm _ _ _ h := (takeMin_spec h).1
  pop_le _ _ _ h := (takeMin_spec h).2

end Linear

end HeapRule
