import Mathlib.Tactic

/-!
# Bit strings of numbers

`bitsBE n v` is the list of the `n` low bits of `v`, most significant first. It reads `v` only
through its low bits (`bitsBE_congr`), splits at any position (`bitsBE_add`), and appending a
number with `k` bits to a shifted accumulator appends the bit strings (`bitsBE_shiftLeft_or`).
`bytesBits` is the bit string of a byte list.
-/

set_option autoImplicit false

namespace BitString

/-- The `n` low bits of `v`, most significant first. -/
def bitsBE : Nat → Nat → List Bool
  | 0, _ => []
  | n + 1, v => v.testBit n :: bitsBE n v

@[simp] theorem bitsBE_zero (v : Nat) : bitsBE 0 v = [] := rfl

@[simp] theorem length_bitsBE (n v : Nat) : (bitsBE n v).length = n := by
  induction n with
  | zero => rfl
  | succ n ih => simp [bitsBE, ih]

theorem bitsBE_congr {n v w : Nat} (h : ∀ i < n, v.testBit i = w.testBit i) :
    bitsBE n v = bitsBE n w := by
  induction n with
  | zero => rfl
  | succ n ih =>
    rw [bitsBE, bitsBE, h n (by omega), ih fun i hi => h i (by omega)]

theorem bitsBE_mod {n m v : Nat} (h : n ≤ m) : bitsBE n (v % 2 ^ m) = bitsBE n v := by
  apply bitsBE_congr
  intro i hi
  rw [Nat.testBit_mod_two_pow]
  simp
  intro hm
  omega

/-- The first `m` of `m + n` bits are the bits of the number shifted right. -/
theorem bitsBE_add (m n v : Nat) : bitsBE (m + n) v = bitsBE m (v >>> n) ++ bitsBE n v := by
  induction m with
  | zero => simp
  | succ m ih =>
    have : m + 1 + n = (m + n) + 1 := by omega
    rw [this, bitsBE, bitsBE, ih, Nat.testBit_shiftRight, Nat.add_comm n m]
    rfl

theorem bitsBE_shiftLeft_or {k c : Nat} (n v : Nat) (hc : c < 2 ^ k) :
    bitsBE (n + k) ((v <<< k) ||| c) = bitsBE n v ++ bitsBE k c := by
  rw [bitsBE_add]
  congr 1
  · apply bitsBE_congr
    intro i _
    rw [Nat.testBit_shiftRight, Nat.testBit_or, Nat.testBit_shiftLeft]
    have hci : c.testBit (k + i) = false :=
      Nat.testBit_lt_two_pow (lt_of_lt_of_le hc (Nat.pow_le_pow_right (by omega) (by omega)))
    simp [hci]
  · apply bitsBE_congr
    intro i hi
    rw [Nat.testBit_or, Nat.testBit_shiftLeft]
    have : ¬ k ≤ i := by omega
    simp [this]

/-- Equal bit strings denote equal numbers. -/
theorem eq_of_bitsBE_eq {n v w : Nat} (hv : v < 2 ^ n) (hw : w < 2 ^ n)
    (h : bitsBE n v = bitsBE n w) : v = w := by
  have key : ∀ i < n, v.testBit i = w.testBit i := by
    clear hv hw
    induction n with
    | zero =>
      intro i hi
      omega
    | succ n ih =>
      rw [bitsBE, bitsBE, List.cons.injEq] at h
      intro i hi
      rcases Nat.lt_succ_iff_lt_or_eq.1 hi with hi | rfl
      · exact ih h.2 i hi
      · exact h.1
  apply Nat.eq_of_testBit_eq
  intro i
  by_cases hi : i < n
  · exact key i hi
  · have hpow : 2 ^ n ≤ 2 ^ i := Nat.pow_le_pow_right (by omega) (by omega)
    rw [Nat.testBit_lt_two_pow (lt_of_lt_of_le hv hpow),
      Nat.testBit_lt_two_pow (lt_of_lt_of_le hw hpow)]

theorem bitsBE_eq_iff {n v w : Nat} : bitsBE n v = bitsBE n w ↔ v % 2 ^ n = w % 2 ^ n := by
  have hv : v % 2 ^ n < 2 ^ n := Nat.mod_lt _ (by positivity)
  have hw : w % 2 ^ n < 2 ^ n := Nat.mod_lt _ (by positivity)
  constructor
  · intro h
    rw [← bitsBE_mod (le_refl n), ← bitsBE_mod (v := w) (le_refl n)] at h
    exact eq_of_bitsBE_eq hv hw h
  · intro h
    rw [← bitsBE_mod (le_refl n), h, bitsBE_mod (le_refl n)]

/-- The low `m` bits of `v` begin the low `n` bits of `w`. -/
theorem bitsBE_prefix_iff {m n v w : Nat} (h : m ≤ n) :
    bitsBE m v <+: bitsBE n w ↔ v % 2 ^ m = (w >>> (n - m)) % 2 ^ m := by
  have hsplit : bitsBE n w = bitsBE m (w >>> (n - m)) ++ bitsBE (n - m) w := by
    rw [← bitsBE_add]
    congr 1
    omega
  rw [hsplit, ← bitsBE_eq_iff]
  constructor
  · intro hp
    have := List.prefix_iff_eq_take.1 hp
    rwa [length_bitsBE, List.take_left' (by simp)] at this
  · intro he
    rw [he]
    exact List.prefix_append _ _

/-- The bits of an all-ones number. -/
theorem bitsBE_ones (n : Nat) : bitsBE n (2 ^ n - 1) = List.replicate n true := by
  have key : ∀ m ≤ n, bitsBE m (2 ^ n - 1) = List.replicate m true := by
    intro m
    induction m with
    | zero => exact fun _ => rfl
    | succ m ih =>
      intro hm
      rw [bitsBE, ih (by omega), List.replicate_succ, Nat.testBit_two_pow_sub_one]
      simp
      omega
  exact key n (le_refl n)

/-- The bits are all ones exactly when masking with an all-ones number gives that number. -/
theorem bitsBE_eq_ones_iff {n v : Nat} :
    bitsBE n v = List.replicate n true ↔ v &&& (2 ^ n - 1) = 2 ^ n - 1 := by
  constructor
  · intro h
    have hlt : v &&& (2 ^ n - 1) < 2 ^ n := by
      rw [Nat.and_two_pow_sub_one_eq_mod]
      exact Nat.mod_lt _ (by positivity)
    refine eq_of_bitsBE_eq hlt (Nat.sub_lt (by positivity) (by omega)) ?_
    rw [bitsBE_ones, Nat.and_two_pow_sub_one_eq_mod, bitsBE_mod (le_refl n), h]
  · intro h
    have h' := congrArg (bitsBE n) h
    rwa [bitsBE_ones, Nat.and_two_pow_sub_one_eq_mod, bitsBE_mod (le_refl n)] at h'

/-- The bits of a number shifted left end in zeros. -/
theorem bitsBE_shiftLeft (n k v : Nat) :
    bitsBE (n + k) (v <<< k) = bitsBE n v ++ bitsBE k 0 := by
  have h := bitsBE_shiftLeft_or (k := k) (c := 0) n v (by positivity)
  rwa [Nat.or_zero] at h

/-! ## Byte lists -/

/-- The bit string of a byte list. -/
def bytesBits (bs : List UInt8) : List Bool := bs.flatMap fun b => bitsBE 8 b.toNat

@[simp] theorem bytesBits_nil : bytesBits [] = [] := rfl

@[simp] theorem bytesBits_cons (b : UInt8) (bs : List UInt8) :
    bytesBits (b :: bs) = bitsBE 8 b.toNat ++ bytesBits bs := rfl

theorem bytesBits_singleton (b : UInt8) : bytesBits [b] = bitsBE 8 b.toNat := by
  simp

@[simp] theorem bytesBits_append (as bs : List UInt8) :
    bytesBits (as ++ bs) = bytesBits as ++ bytesBits bs := by
  simp [bytesBits]

@[simp] theorem length_bytesBits (bs : List UInt8) : (bytesBits bs).length = 8 * bs.length := by
  induction bs with
  | nil => rfl
  | cons b bs ih =>
    rw [bytesBits_cons, List.length_append, length_bitsBE, ih, List.length_cons]
    omega

theorem bytesBits_injective {as bs : List UInt8} (h : bytesBits as = bytesBits bs) : as = bs := by
  induction as generalizing bs with
  | nil =>
    have := congrArg List.length h
    simp at this
    exact this.symm
  | cons a as ih =>
    cases bs with
    | nil =>
      have := congrArg List.length h
      simp at this
    | cons b bs =>
      rw [bytesBits_cons, bytesBits_cons] at h
      obtain ⟨h1, h2⟩ := List.append_inj h (by simp)
      have hab : a.toNat = b.toNat := eq_of_bitsBE_eq a.toNat_lt b.toNat_lt h1
      rw [UInt8.toNat_inj.1 hab, ih h2]

theorem bytesBits_prefix_iff {as bs : List UInt8} : bytesBits as <+: bytesBits bs ↔ as <+: bs := by
  constructor
  · rintro ⟨c, hc⟩
    have hle : as.length ≤ bs.length := by
      have := congrArg List.length hc
      simp at this
      omega
    have hsplit : bytesBits bs = bytesBits (bs.take as.length) ++ bytesBits (bs.drop as.length) := by
      rw [← bytesBits_append, List.take_append_drop]
    rw [hsplit] at hc
    have hlen : (bytesBits as).length = (bytesBits (bs.take as.length)).length := by
      simp
      omega
    rw [bytesBits_injective (List.append_inj hc hlen).1]
    exact List.take_prefix _ _
  · rintro ⟨c, rfl⟩
    rw [bytesBits_append]
    exact List.prefix_append _ _

/-- The byte that holds the low eight bits of `v`. -/
theorem bitsBE_toUInt8 (v : Nat) : bitsBE 8 (v.toUInt8).toNat = bitsBE 8 v := by
  have : (v.toUInt8).toNat = v % 2 ^ 8 := UInt8.toNat_ofNat'
  rw [this, bitsBE_mod (le_refl 8)]

end BitString
