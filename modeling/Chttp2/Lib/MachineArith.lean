import Mathlib.Tactic

/-!
# Arithmetic on machine integers

A computation is `Metered` when it comes with the operations on fixed-width integers that it
performs. An operation computes as the machine does, modulo a power of two, and is recorded with its
exact result; it is `Exact` when this result is in the range of its type and, for a shift, when the
amount is below the width. Where every operation of a computation is exact the machine computes the
integers (`value_add`, `value_addSigned` and the rules beside them), and exactness is checked part by
part (`exact_bind`).

The last section is about doubling in an unsigned type, where the bits that pass the top are lost.
-/

set_option autoImplicit false

namespace MachineArith

/-! ## Operations -/

/-- An operation with its exact result, or a shift to the left with its operands. A type is given by
its value bits and, if it is signed, by its width. -/
inductive Operation where
  | unsigned (bits : Nat) (result : Int)
  | signed (width : Nat) (result : Int)
  | shiftLeft (bits operand amount : Nat)
  deriving DecidableEq, Repr

/-- The result is in the range of the type, and a shift is by less than its bits. -/
def Operation.Exact : Operation → Prop
  | .unsigned bits result => 0 ≤ result ∧ result < 2 ^ bits
  | .signed width result => -2 ^ (width - 1) ≤ result ∧ result < 2 ^ (width - 1)
  | .shiftLeft bits operand amount => amount < bits ∧ operand * 2 ^ amount < 2 ^ bits

instance : DecidablePred Operation.Exact := fun op => by
  cases op <;> exact inferInstanceAs (Decidable (_ ∧ _))

/-- A value and the operations that led to it, in order. -/
structure Metered (α : Type) where
  value : α
  operations : List Operation := []

namespace Metered

variable {α β : Type}

instance : Monad Metered where
  pure a := ⟨a, []⟩
  bind x f := ⟨(f x.value).value, x.operations ++ (f x.value).operations⟩

/-- Every operation of the computation is exact. -/
def Exact (x : Metered α) : Prop := ∀ op ∈ x.operations, op.Exact

@[simp] theorem value_pure (a : α) : (pure a : Metered α).value = a := rfl

@[simp] theorem value_bind (x : Metered α) (f : α → Metered β) :
    (x >>= f).value = (f x.value).value := rfl

@[simp] theorem exact_pure (a : α) : (pure a : Metered α).Exact := by
  intro op hop
  cases hop

/-- The operations of a sequence are those of its two parts. -/
@[simp] theorem exact_bind (x : Metered α) (f : α → Metered β) :
    (x >>= f).Exact ↔ x.Exact ∧ (f x.value).Exact := List.forall_mem_append

theorem exact_single {a : α} {op : Operation} :
    (⟨a, [op]⟩ : Metered α).Exact ↔ op.Exact := List.forall_mem_singleton

end Metered

open Metered

/-! ## Unsigned operations -/

/-- Addition in an unsigned type. -/
def add (bits a b : Nat) : Metered Nat := ⟨(a + b) % 2 ^ bits, [.unsigned bits (a + b)]⟩

/-- `a << amount` in an unsigned type. -/
def shiftLeft (bits a amount : Nat) : Metered Nat :=
  ⟨(a <<< amount) % 2 ^ bits, [.shiftLeft bits a amount]⟩

/-- Conversion to an unsigned type. -/
def toUnsigned (bits : Nat) (a : Int) : Metered Int := ⟨a % 2 ^ bits, [.unsigned bits a]⟩

variable {bits width : Nat}

theorem exact_add {a b : Nat} : (add bits a b).Exact ↔ a + b < 2 ^ bits := by
  have hcast : ((a : Int) + b < 2 ^ bits) ↔ a + b < 2 ^ bits := by exact_mod_cast Iff.rfl
  rw [add, exact_single, Operation.Exact, hcast]
  constructor
  · exact fun h => h.2
  · exact fun h => ⟨by omega, h⟩

theorem value_add {a b : Nat} (h : a + b < 2 ^ bits) : (add bits a b).value = a + b :=
  Nat.mod_eq_of_lt h

theorem exact_shiftLeft {a amount : Nat} :
    (shiftLeft bits a amount).Exact ↔ amount < bits ∧ a * 2 ^ amount < 2 ^ bits := exact_single

theorem value_shiftLeft {a amount : Nat} (h : a * 2 ^ amount < 2 ^ bits) :
    (shiftLeft bits a amount).value = a * 2 ^ amount := by
  rw [shiftLeft, Nat.shiftLeft_eq]
  exact Nat.mod_eq_of_lt h

theorem exact_toUnsigned {a : Int} : (toUnsigned bits a).Exact ↔ 0 ≤ a ∧ a < 2 ^ bits :=
  exact_single

theorem value_toUnsigned {a : Int} (h0 : 0 ≤ a) (h : a < 2 ^ bits) :
    (toUnsigned bits a).value = a := Int.emod_eq_of_lt h0 h

/-! ## Signed operations -/

/-- What a signed type of `width` bits holds for an integer. -/
def wrapSigned (width : Nat) (a : Int) : Int := a.bmod (2 ^ width)

/-- Addition in a signed type. -/
def addSigned (width : Nat) (a b : Int) : Metered Int :=
  ⟨wrapSigned width (a + b), [.signed width (a + b)]⟩

/-- Subtraction in a signed type. -/
def subSigned (width : Nat) (a b : Int) : Metered Int :=
  ⟨wrapSigned width (a - b), [.signed width (a - b)]⟩

/-- Conversion to a signed type. -/
def toSigned (width : Nat) (a : Int) : Metered Int := ⟨wrapSigned width a, [.signed width a]⟩

/-- The range of a signed type of `width` bits. -/
def InSigned (width : Nat) (a : Int) : Prop := -2 ^ (width - 1) ≤ a ∧ a < 2 ^ (width - 1)

theorem wrapSigned_eq {a : Int} (hw : 0 < width) (h : InSigned width a) :
    wrapSigned width a = a := by
  obtain ⟨n, rfl⟩ : ∃ n, width = n + 1 := ⟨width - 1, by omega⟩
  obtain ⟨h0, h1⟩ := h
  rw [Nat.add_sub_cancel] at h0 h1
  have hpow : (2 : Int) ^ (n + 1) = 2 * 2 ^ n := by
    rw [pow_succ]
    ring
  exact Int.bmod_eq_of_le_mul_two (by push_cast; omega) (by push_cast; omega)

theorem exact_addSigned {a b : Int} : (addSigned width a b).Exact ↔ InSigned width (a + b) :=
  exact_single

theorem value_addSigned {a b : Int} (hw : 0 < width) (h : InSigned width (a + b)) :
    (addSigned width a b).value = a + b := wrapSigned_eq hw h

theorem exact_subSigned {a b : Int} : (subSigned width a b).Exact ↔ InSigned width (a - b) :=
  exact_single

theorem value_subSigned {a b : Int} (hw : 0 < width) (h : InSigned width (a - b)) :
    (subSigned width a b).value = a - b := wrapSigned_eq hw h

theorem exact_toSigned {a : Int} : (toSigned width a).Exact ↔ InSigned width a := exact_single

theorem value_toSigned {a : Int} (hw : 0 < width) (h : InSigned width a) :
    (toSigned width a).value = a := wrapSigned_eq hw h

/-! ## Doubling -/

/-- A shift to the left keeps the low bits. -/
theorem mul_two_pow_mod (bits x k : Nat) (h : k ≤ bits) :
    x * 2 ^ k % 2 ^ bits = x % 2 ^ (bits - k) * 2 ^ k := by
  have hpow : 2 ^ bits = 2 ^ (bits - k) * 2 ^ k := by rw [← Nat.pow_add, Nat.sub_add_cancel h]
  rw [hpow, Nat.mul_mod_mul_right]

/-- After as many doublings as there are bits nothing is left. -/
theorem mul_two_pow_mod_eq_zero (x : Nat) {k : Nat} (h : bits ≤ k) :
    x * 2 ^ k % 2 ^ bits = 0 :=
  Nat.mod_eq_zero_of_dvd ((Nat.pow_dvd_pow 2 h).trans (Nat.dvd_mul_left _ x))

/-- Doubling brings the top bit of a number to the top of its type. -/
theorem exists_half_le_mul_two_pow {x : Nat} (h0 : 0 < x) (h : x < 2 ^ bits) :
    ∃ k < bits, 2 ^ (bits - 1) ≤ x * 2 ^ k % 2 ^ bits := by
  have hlog : Nat.log2 x < bits := (Nat.log2_lt (by omega)).2 h
  have hle : 2 ^ Nat.log2 x ≤ x := Nat.log2_self_le (by omega)
  have hlt : x < 2 ^ (Nat.log2 x + 1) := Nat.lt_log2_self
  refine ⟨bits - 1 - Nat.log2 x, by omega, ?_⟩
  have hlow : bits - (bits - 1 - Nat.log2 x) = Nat.log2 x + 1 := by omega
  rw [mul_two_pow_mod bits x _ (by omega), hlow, Nat.mod_eq_of_lt hlt]
  calc 2 ^ (bits - 1) = 2 ^ Nat.log2 x * 2 ^ (bits - 1 - Nat.log2 x) := by
        rw [← Nat.pow_add]
        congr 1
        omega
    _ ≤ x * 2 ^ (bits - 1 - Nat.log2 x) := Nat.mul_le_mul_right _ hle

/-- The doublings of a power of two are powers of two, up to half of the type. -/
theorem two_pow_mul_two_pow_mod_le (bits i k : Nat) :
    2 ^ i * 2 ^ k % 2 ^ bits ≤ 2 ^ (bits - 1) := by
  rw [← Nat.pow_add]
  by_cases h : bits ≤ i + k
  · rw [Nat.mod_eq_zero_of_dvd (Nat.pow_dvd_pow 2 h)]
    exact Nat.zero_le _
  · rw [Nat.mod_eq_of_lt (Nat.pow_lt_pow_right (by omega) (by omega))]
    exact Nat.pow_le_pow_right (by omega) (by omega)

end MachineArith
