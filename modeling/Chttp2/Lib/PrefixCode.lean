import Mathlib.Data.List.Basic
import Mathlib.Data.List.Infix

/-!
# Prefix codes

A `PrefixCode σ β` gives every symbol of `σ` a nonempty word over `β` so that no word is a prefix
of another one. A message is encoded by concatenating the words of its symbols.

A tail is `Stuck` when no code word is a prefix of it. Reading code words greedily off an encoded
message followed by a stuck tail is deterministic (`encode_append_eq_encode_append_iff`).
-/

set_option autoImplicit false

/-- Nonempty code words, none of them a prefix of another one. -/
structure PrefixCode (σ : Type*) (β : Type*) where
  code : σ → List β
  code_ne_nil : ∀ s, code s ≠ []
  eq_of_prefix : ∀ s t, code s <+: code t → s = t

namespace PrefixCode

variable {σ : Type*} {β : Type*} (C : PrefixCode σ β)

/-- The encoding of a message. -/
def encode (xs : List σ) : List β := xs.flatMap C.code

@[simp] theorem encode_nil : C.encode [] = [] := rfl

@[simp] theorem encode_cons (x : σ) (xs : List σ) :
    C.encode (x :: xs) = C.code x ++ C.encode xs := rfl

@[simp] theorem encode_append (xs ys : List σ) :
    C.encode (xs ++ ys) = C.encode xs ++ C.encode ys := by
  simp [encode]

/-- At most one code word is a prefix of a given word. -/
theorem eq_of_prefix_of_prefix {s t : σ} {w : List β} (hs : C.code s <+: w)
    (ht : C.code t <+: w) : s = t := by
  rcases List.prefix_or_prefix_of_prefix hs ht with h | h
  · exact C.eq_of_prefix s t h
  · exact (C.eq_of_prefix t s h).symm

/-- `w` is the beginning of a code word that needs at least one more letter. -/
def Partial (w : List β) : Prop := ∃ s c, c ≠ [] ∧ C.code s = w ++ c

/-- No code word is a prefix of `w`. -/
def Stuck (w : List β) : Prop := ∀ s, ¬ C.code s <+: w

theorem stuck_nil : C.Stuck [] := by
  intro s h
  exact C.code_ne_nil s (List.prefix_nil.1 h)

variable {C}

/-- A partial code word contains no complete one. -/
theorem Partial.stuck {w : List β} (h : C.Partial w) : C.Stuck w := by
  obtain ⟨t, c, hc, ht⟩ := h
  intro s hs
  have hst : s = t := C.eq_of_prefix s t (hs.trans ⟨c, ht.symm⟩)
  subst hst
  have hle := hs.length_le
  rw [ht, List.length_append] at hle
  have : c.length ≠ 0 := fun h0 => hc (List.length_eq_zero_iff.1 h0)
  omega

/-- A code word that begins a word `w ++ v` with `w` stuck extends `w`. -/
theorem Stuck.exists_append {w v : List β} (hw : C.Stuck w) {s : σ} (h : C.code s <+: w ++ v) :
    ∃ c, c ≠ [] ∧ C.code s = w ++ c ∧ c <+: v := by
  rcases List.prefix_or_prefix_of_prefix h (List.prefix_append w v) with hs | ⟨c, hc⟩
  · exact absurd hs (hw s)
  · refine ⟨c, ?_, hc.symm, ?_⟩
    · rintro rfl
      rw [List.append_nil] at hc
      exact hw s ⟨[], by rw [List.append_nil, hc]⟩
    · rw [← hc] at h
      exact (List.prefix_append_right_inj w).1 h

/-- Reading one code word off an encoded message with a stuck tail. -/
theorem code_append_eq_encode_append_iff {tail : List β} (htail : C.Stuck tail) {s : σ}
    {w : List β} {xs : List σ} :
    C.code s ++ w = C.encode xs ++ tail ↔ ∃ ys, xs = s :: ys ∧ w = C.encode ys ++ tail := by
  constructor
  · intro h
    cases xs with
    | nil => exact absurd ⟨w, by simpa using h⟩ (htail s)
    | cons x ys =>
      rw [encode_cons, List.append_assoc] at h
      have hsx : s = x :=
        C.eq_of_prefix_of_prefix (List.prefix_append _ w) ⟨C.encode ys ++ tail, h.symm⟩
      subst hsx
      exact ⟨ys, rfl, List.append_cancel_left h⟩
  · rintro ⟨ys, rfl, rfl⟩
    rw [encode_cons, List.append_assoc]

/-- A stuck word is an encoded message with a tail only for the empty message. -/
theorem eq_encode_append_iff_of_stuck {w tail : List β} (hw : C.Stuck w) {xs : List σ} :
    w = C.encode xs ++ tail ↔ xs = [] ∧ w = tail := by
  constructor
  · intro h
    cases xs with
    | nil => exact ⟨rfl, h⟩
    | cons x ys =>
      rw [encode_cons, List.append_assoc] at h
      exact absurd ⟨_, h.symm⟩ (hw x)
  · rintro ⟨rfl, rfl⟩
    rfl

/-- Reading an encoded message off another one with a stuck tail. -/
theorem encode_append_eq_encode_append_iff {tail : List β} (htail : C.Stuck tail) {xs ys : List σ}
    {w : List β} :
    C.encode xs ++ w = C.encode ys ++ tail ↔ ∃ zs, ys = xs ++ zs ∧ w = C.encode zs ++ tail := by
  induction xs generalizing ys with
  | nil =>
    constructor
    · intro h
      exact ⟨ys, rfl, h⟩
    · rintro ⟨zs, rfl, h⟩
      exact h
  | cons x xs ih =>
    rw [encode_cons, List.append_assoc, code_append_eq_encode_append_iff htail]
    constructor
    · rintro ⟨us, rfl, h⟩
      obtain ⟨zs, rfl, hz⟩ := ih.1 h
      exact ⟨zs, rfl, hz⟩
    · rintro ⟨zs, rfl, h⟩
      exact ⟨xs ++ zs, rfl, ih.2 ⟨zs, rfl, h⟩⟩

end PrefixCode
