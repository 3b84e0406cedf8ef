import Chttp2.Bytes
import Chttp2.Lib.MachineArith

/-!
# The growth of a byte buffer

`ByteBuffer` of `byte_buffer.hpp` with its allocation: `cap` bytes of memory, of which the first
`len` are the content. A new allocation holds bytes that the language does not specify; they are the
argument `fresh`. `ensureCapacity` doubles a 32-bit capacity until it is enough, and the doubling
loses the bits that pass the top, so the loop may run forever: with `fuel` rounds it has an answer or
it is still running (`none`).

`ensureCapacity_iff` says for which capacities and lengths it answers. The buffers that collect the
fragments of a header block start with no capacity or with 128 bytes (`Accumulator`); for these it is
up to 2^31 bytes, an append never writes outside the allocation (`appendRange_ne_outOfRange`), and on
its content it is the append of byte strings that the protocol is modelled with
(`returns_iff_append`).
-/

set_option autoImplicit false

namespace Chttp2

/-- A buffer: the allocation behind `ptr` and the two counters. -/
structure ByteBuffer where
  memory : Bytes
  len : UInt32
  cap : UInt32
  length_memory : memory.length = cap.toNat
  len_le : len.toNat ≤ cap.toNat

namespace ByteBuffer

open MachineArith

/-- `[begin(), end())`. -/
def content (b : ByteBuffer) : Bytes := b.memory.take b.len.toNat

theorem length_content (b : ByteBuffer) : b.content.length = b.len.toNat := by
  rw [content, List.length_take, b.length_memory]
  exact Nat.min_eq_left b.len_le

variable (fresh : Nat → UInt8)

/-- `new std::uint8_t[capacity]`. -/
def allocate (capacity : UInt32) : Bytes := (List.range capacity.toNat).map fresh

/-- `ByteBuffer(capacity)`; `ByteBuffer()` for the capacity zero. -/
def ofCapacity (capacity : UInt32) : ByteBuffer where
  memory := allocate fresh capacity
  len := 0
  cap := capacity
  length_memory := by simp [allocate]
  len_le := Nat.zero_le _

/-- The content is copied to a new allocation, which takes the place of the old one. -/
def moveTo (b : ByteBuffer) (newCap : UInt32) (h : b.len.toNat ≤ newCap.toNat) : ByteBuffer where
  memory := b.content ++ (allocate fresh newCap).drop b.len.toNat
  len := b.len
  cap := newCap
  length_memory := by
    rw [List.length_append, length_content, List.length_drop, allocate, List.length_map,
      List.length_range]
    omega
  len_le := h

/-- `while (newCap < needed) newCap *= 2;`, for at most `fuel` rounds. -/
def growLoop (needed : UInt32) : Nat → UInt32 → Option { c : UInt32 // needed ≤ c }
  | 0, newCap => if h : newCap < needed then none else some ⟨newCap, UInt32.not_lt.1 h⟩
  | fuel + 1, newCap =>
    if h : newCap < needed then growLoop needed fuel (newCap * 2)
    else some ⟨newCap, UInt32.not_lt.1 h⟩

/-- `std::max(8u, cap * 2)`. -/
def startCap (cap : UInt32) : UInt32 := max 8 (cap * 2)

theorem len_le_of_grown {b : ByteBuffer} {needed : UInt32} (h : ¬ needed ≤ b.cap)
    (newCap : { c : UInt32 // needed ≤ c }) : b.len.toNat ≤ newCap.val.toNat := by
  have hlen := b.len_le
  have hcap := UInt32.lt_iff_toNat_lt.1 (UInt32.not_le.1 h)
  have hnew := UInt32.le_iff_toNat_le.1 newCap.property
  omega

/-- `ensureCapacity`; `none` while it is still running. -/
def ensureCapacity (fuel : Nat) (b : ByteBuffer) (needed : UInt32) : Option ByteBuffer :=
  if h : needed ≤ b.cap then some b
  else
    (growLoop needed fuel (startCap b.cap)).map fun newCap =>
      b.moveTo fresh newCap.val (len_le_of_grown h newCap)

/-- What an append comes to. -/
inductive Appended where
  | running
  | outOfRange
  | done (b : ByteBuffer)

/-- `std::copy(begin, end, ptr + len); len += count;` inside the allocation. -/
def copyIn (b : ByteBuffer) (more : Bytes) (h : b.len.toNat + more.length ≤ b.cap.toNat) :
    ByteBuffer where
  memory := b.content ++ more ++ b.memory.drop (b.len.toNat + more.length)
  len := b.len + more.length.toUInt32
  cap := b.cap
  length_memory := by
    have := b.length_memory
    rw [List.length_append, List.length_append, length_content, List.length_drop]
    omega
  len_le := by
    have := b.cap.toNat_lt
    rw [UInt32.toNat_add, Nat.toUInt32_eq, UInt32.toNat_ofNat']
    omega

/-- `append(begin, end)`. -/
def appendRange (fuel : Nat) (b : ByteBuffer) (more : Bytes) : Appended :=
  let count := more.length.toUInt32
  if count = 0 then .done b
  else
    match ensureCapacity fresh fuel b (b.len + count) with
    | none => .running
    | some b =>
      if h : b.len.toNat + more.length ≤ b.cap.toNat then .done (b.copyIn more h) else .outOfRange

/-- `clear()`. -/
def clear (b : ByteBuffer) : ByteBuffer := { b with len := 0, len_le := Nat.zero_le _ }

/-! ## When the loop ends -/

section Growth

variable {needed c : UInt32}

/-- One round doubles. -/
theorem toNat_double (c : UInt32) (k : Nat) :
    (c * 2).toNat * 2 ^ k % 2 ^ 32 = c.toNat * 2 ^ (k + 1) % 2 ^ 32 := by
  have htwo : UInt32.toNat 2 = 2 := rfl
  rw [UInt32.toNat_mul, Nat.mod_mul_mod, htwo, Nat.mul_assoc, ← Nat.pow_succ']

theorem growLoop_of_le (h : needed ≤ c) (fuel : Nat) : growLoop needed fuel c = some ⟨c, h⟩ := by
  cases fuel with
  | zero => rw [growLoop, dif_neg (UInt32.not_lt.2 h)]
  | succ fuel => rw [growLoop, dif_neg (UInt32.not_lt.2 h)]

/-- What the loop ends with is a shift of its start. -/
theorem exists_shift_of_growLoop {fuel : Nat} {r : { c : UInt32 // needed ≤ c }}
    (h : growLoop needed fuel c = some r) : ∃ k, r.val.toNat = c.toNat * 2 ^ k % 2 ^ 32 := by
  induction fuel generalizing c with
  | zero =>
    rw [growLoop] at h
    split at h
    · cases h
    · cases h
      exact ⟨0, by rw [Nat.pow_zero, Nat.mul_one, Nat.mod_eq_of_lt c.toNat_lt]⟩
  | succ fuel ih =>
    rw [growLoop] at h
    split at h
    · obtain ⟨k, hk⟩ := ih h
      exact ⟨k + 1, by rw [hk, toNat_double]⟩
    · cases h
      exact ⟨0, by rw [Nat.pow_zero, Nat.mul_one, Nat.mod_eq_of_lt c.toNat_lt]⟩

/-- The loop ends when a shift of its start is enough. -/
theorem growLoop_returns {k : Nat} (h : needed.toNat ≤ c.toNat * 2 ^ k % 2 ^ 32) :
    ∃ fuel r, growLoop needed fuel c = some r := by
  induction k generalizing c with
  | zero =>
    rw [Nat.pow_zero, Nat.mul_one, Nat.mod_eq_of_lt c.toNat_lt] at h
    exact ⟨0, _, growLoop_of_le (UInt32.le_iff_toNat_le.2 h) 0⟩
  | succ k ih =>
    by_cases hlt : c < needed
    · obtain ⟨fuel, r, hr⟩ := ih (c := c * 2) (by rw [toNat_double]; exact h)
      exact ⟨fuel + 1, r, by rw [growLoop, dif_pos hlt]; exact hr⟩
    · exact ⟨0, _, growLoop_of_le (UInt32.not_lt.1 hlt) 0⟩

theorem growLoop_returns_iff : (∃ fuel r, growLoop needed fuel c = some r) ↔
    ∃ k, needed.toNat ≤ c.toNat * 2 ^ k % 2 ^ 32 := by
  constructor
  · rintro ⟨fuel, r, h⟩
    obtain ⟨k, hk⟩ := exists_shift_of_growLoop h
    exact ⟨k, hk ▸ UInt32.le_iff_toNat_le.1 r.property⟩
  · rintro ⟨k, h⟩
    exact growLoop_returns h

/-- The start of the loop is the doubled capacity, or 8 where less than 8 is left of it. -/
theorem toNat_startCap (cap : UInt32) : (startCap cap).toNat =
    if cap.toNat % 2 ^ 31 < 4 then 8 else cap.toNat % 2 ^ 31 * 2 := by
  -- the doubling drops the top bit
  have hmul : (cap * 2).toNat = cap.toNat % 2 ^ 31 * 2 := by
    rw [UInt32.toNat_mul]
    show cap.toNat * 2 % 2 ^ 32 = cap.toNat % 2 ^ 31 * 2
    omega
  have hmax : startCap cap = if 8 ≤ cap * 2 then cap * 2 else 8 := rfl
  rw [hmax]
  by_cases h : 8 ≤ cap * 2
  · have hle : 8 ≤ (cap * 2).toNat := UInt32.le_iff_toNat_le.1 h
    rw [if_pos h, hmul, if_neg (by omega)]
  · have hlt : (cap * 2).toNat < 8 := UInt32.lt_iff_toNat_lt.1 (UInt32.not_le.1 h)
    rw [if_neg h, if_pos (by omega)]
    rfl

end Growth

/-- The lengths that a buffer of the capacity `cap` can grow to: everything up to 2^31, and beyond it
what the low `m` bits of the capacity come to at the top of a 32-bit word, for some `m` (unless the
low 31 bits are below 4). -/
def CanGrow (cap needed : Nat) : Prop :=
  needed ≤ cap ∨ needed ≤ 2 ^ 31 ∨
    (4 ≤ cap % 2 ^ 31 ∧ ∃ m < 32, needed ≤ cap % 2 ^ m * 2 ^ (32 - m))

instance (cap needed : Nat) : Decidable (CanGrow cap needed) :=
  inferInstanceAs (Decidable (_ ∨ _ ∨ _))

/-- The shifts of the start are the low bits of the capacity, shifted to the top. -/
theorem startCap_shift {cap : UInt32} (h : 4 ≤ cap.toNat % 2 ^ 31) {m : Nat} (hm : m < 32) :
    (startCap cap).toNat * 2 ^ (31 - m) % 2 ^ 32 = cap.toNat % 2 ^ m * 2 ^ (32 - m) := by
  -- the doubling of the start is one shift more
  have hpow : 2 * 2 ^ (31 - m) = 2 ^ (32 - m) := by
    rw [← Nat.pow_succ']
    congr 1
    omega
  have hlow : cap.toNat % 2 ^ 31 % 2 ^ m = cap.toNat % 2 ^ m :=
    Nat.mod_mod_of_dvd _ (Nat.pow_dvd_pow 2 (by omega))
  rw [toNat_startCap, if_neg (by omega), Nat.mul_assoc, hpow, mul_two_pow_mod 32 _ _ (by omega),
    show 32 - (32 - m) = m by omega, hlow]

/-- Beyond the capacity, the loop ends exactly for these lengths. -/
theorem growLoop_startCap_iff {cap needed : UInt32} (h : cap.toNat < needed.toNat) :
    (∃ fuel r, growLoop needed fuel (startCap cap) = some r) ↔
      CanGrow cap.toNat needed.toNat := by
  rw [growLoop_returns_iff]
  have hstart := toNat_startCap cap
  have hlt := (startCap cap).toNat_lt
  constructor
  · rintro ⟨k, hk⟩
    by_cases hsmall : cap.toNat % 2 ^ 31 < 4
    · -- from 8 only powers of two are reached
      rw [if_pos hsmall] at hstart
      have := two_pow_mul_two_pow_mod_le 32 3 k
      rw [hstart] at hk
      exact Or.inr (Or.inl (hk.trans this))
    · by_cases hover : 31 < k
      · -- nothing is left of the start
        rw [mul_two_pow_mod_eq_zero _ (by omega)] at hk
        omega
      · refine Or.inr (Or.inr ⟨by omega, 31 - k, by omega, ?_⟩)
        rw [← startCap_shift (by omega) (by omega), show 31 - (31 - k) = k by omega]
        exact hk
  · rintro (hcap | hhalf | ⟨hlow, m, hm, hreach⟩)
    · omega
    · have hpos : 0 < (startCap cap).toNat := by
        rw [hstart]
        split <;> omega
      -- the highest bit of the start passes through the top half
      obtain ⟨k, -, hk⟩ := exists_half_le_mul_two_pow hpos hlt
      exact ⟨k, hhalf.trans hk⟩
    · exact ⟨31 - m, by rw [startCap_shift hlow hm]; exact hreach⟩

-- two bits of a capacity reach further than one
example : CanGrow (3 * 2 ^ 29) (3 * 2 ^ 30) ∧ ¬ CanGrow (2 ^ 30) (3 * 2 ^ 30) := by decide

/-! ## Growing and appending -/

variable {fresh} {b b' : ByteBuffer} {fuel : Nat} {more : Bytes}

theorem content_moveTo {newCap : UInt32} (h : b.len.toNat ≤ newCap.toNat) :
    (b.moveTo fresh newCap h).content = b.content := by
  show (b.content ++ (allocate fresh newCap).drop b.len.toNat).take b.len.toNat = b.content
  exact List.take_left' b.length_content

/-- Where `ensureCapacity` returns there is enough room for the same content; the capacity is the old
one or comes from the loop. -/
theorem ensureCapacity_spec {needed : UInt32} (h : ensureCapacity fresh fuel b needed = some b') :
    needed ≤ b'.cap ∧ b'.len = b.len ∧ b'.content = b.content ∧
      (b'.cap = b.cap ∨ ∃ k, b'.cap.toNat = (startCap b.cap).toNat * 2 ^ k % 2 ^ 32) := by
  rw [ensureCapacity] at h
  split at h
  · rename_i hle
    cases h
    exact ⟨hle, rfl, rfl, Or.inl rfl⟩
  · obtain ⟨newCap, hloop, rfl⟩ := Option.map_eq_some_iff.1 h
    exact ⟨newCap.property, rfl, content_moveTo _, Or.inr (exists_shift_of_growLoop hloop)⟩

theorem ensureCapacity_returns_iff (fresh : Nat → UInt8) {needed : UInt32} :
    (∃ fuel b', ensureCapacity fresh fuel b needed = some b') ↔
      CanGrow b.cap.toNat needed.toNat := by
  by_cases h : needed ≤ b.cap
  · refine iff_of_true ⟨0, b, by rw [ensureCapacity, dif_pos h]⟩ (Or.inl ?_)
    exact UInt32.le_iff_toNat_le.1 h
  · rw [← growLoop_startCap_iff (UInt32.lt_iff_toNat_lt.1 (UInt32.not_le.1 h))]
    constructor
    · rintro ⟨fuel, b', hb⟩
      rw [ensureCapacity, dif_neg h] at hb
      obtain ⟨r, hr, -⟩ := Option.map_eq_some_iff.1 hb
      exact ⟨fuel, r, hr⟩
    · rintro ⟨fuel, r, hr⟩
      exact ⟨fuel, _, by rw [ensureCapacity, dif_neg h, hr]; rfl⟩

/-- `ensureCapacity` returns with enough room and the content kept exactly for the lengths that the
capacity can grow to. -/
theorem ensureCapacity_iff {needed : UInt32} :
    (∃ fuel b', ensureCapacity fresh fuel b needed = some b' ∧ needed.toNat ≤ b'.cap.toNat ∧
        b'.memory.take b.len.toNat = b.memory.take b.len.toNat) ↔
      CanGrow b.cap.toNat needed.toNat := by
  rw [← ensureCapacity_returns_iff fresh]
  constructor
  · rintro ⟨fuel, b', hb, -, -⟩
    exact ⟨fuel, b', hb⟩
  · rintro ⟨fuel, b', hb⟩
    obtain ⟨hcap, hlen, hcontent, -⟩ := ensureCapacity_spec hb
    refine ⟨fuel, b', hb, UInt32.le_iff_toNat_le.1 hcap, ?_⟩
    rw [content, hlen] at hcontent
    exact hcontent

theorem content_copyIn (h : b.len.toNat + more.length ≤ b.cap.toNat) :
    (b.copyIn more h).content = b.content ++ more := by
  have hcap := b.cap.toNat_lt
  have hlen : (b.copyIn more h).len.toNat = (b.content ++ more).length := by
    show (b.len + more.length.toUInt32).toNat = _
    rw [UInt32.toNat_add, Nat.toUInt32_eq, UInt32.toNat_ofNat', List.length_append, length_content]
    omega
  rw [content, hlen]
  exact List.take_left' rfl

/-- The length after an append that is representable in 32 bits. -/
theorem toNat_len_add (h : b.len.toNat + more.length < 2 ^ 32) :
    (b.len + more.length.toUInt32).toNat = b.len.toNat + more.length := by
  rw [UInt32.toNat_add, Nat.toUInt32_eq, UInt32.toNat_ofNat']
  omega

theorem count_eq_zero_iff (h : more.length < 2 ^ 32) : more.length.toUInt32 = 0 ↔ more = [] := by
  rw [← UInt32.toNat_inj, Nat.toUInt32_eq, UInt32.toNat_ofNat', Nat.mod_eq_of_lt h]
  exact List.length_eq_zero_iff

/-- An append to a representable length is still running or has the new content, with a capacity
that is the old one or comes from the loop. -/
theorem appendRange_cases (fresh : Nat → UInt8) (fuel : Nat)
    (h : b.len.toNat + more.length < 2 ^ 32) :
    (appendRange fresh fuel b more = .running ∧
        ensureCapacity fresh fuel b (b.len + more.length.toUInt32) = none) ∨
      ∃ b', appendRange fresh fuel b more = .done b' ∧ b'.content = b.content ++ more ∧
        (b'.cap = b.cap ∨ ∃ k, b'.cap.toNat = (startCap b.cap).toNat * 2 ^ k % 2 ^ 32) := by
  rw [appendRange]
  by_cases hzero : more.length.toUInt32 = 0
  · -- an empty range is not even looked at
    obtain rfl := (count_eq_zero_iff (by omega)).1 hzero
    exact Or.inr ⟨b, by rw [if_pos hzero], (List.append_nil _).symm, Or.inl rfl⟩
  · rw [if_neg hzero]
    -- the length did not wrap, so the capacity covers the copy
    cases hgrow : ensureCapacity fresh fuel b (b.len + more.length.toUInt32) with
    | none => exact Or.inl ⟨rfl, rfl⟩
    | some grown =>
      obtain ⟨hcap, hlen, hcontent, hnew⟩ := ensureCapacity_spec hgrow
      have hroom : grown.len.toNat + more.length ≤ grown.cap.toNat := by
        rw [hlen, ← toNat_len_add h]
        exact UInt32.le_iff_toNat_le.1 hcap
      refine Or.inr ⟨grown.copyIn more hroom, ?_, ?_, hnew⟩
      · exact dif_pos hroom
      · rw [content_copyIn, hcontent]

/-- What an append to a representable length that returned has done. -/
theorem appendRange_done_spec (h : b.len.toNat + more.length < 2 ^ 32)
    (hdone : appendRange fresh fuel b more = .done b') :
    b'.content = b.content ++ more ∧
      (b'.cap = b.cap ∨ ∃ k, b'.cap.toNat = (startCap b.cap).toNat * 2 ^ k % 2 ^ 32) := by
  rcases appendRange_cases fresh fuel h with ⟨hrun, -⟩ | ⟨after, hafter, hspec⟩
  · rw [hrun] at hdone
    cases hdone
  · rw [hafter] at hdone
    cases hdone
    exact hspec

/-- An append to a representable length never writes outside the allocation. -/
theorem appendRange_ne_outOfRange (fuel : Nat) (h : b.len.toNat + more.length < 2 ^ 32) :
    appendRange fresh fuel b more ≠ .outOfRange := by
  intro hout
  rcases appendRange_cases fresh fuel h with ⟨hrun, -⟩ | ⟨b', hdone, -, -⟩
  · rw [hrun] at hout
    cases hout
  · rw [hdone] at hout
    cases hout

/-- An append to a representable length returns exactly where the buffer can grow to it. -/
theorem appendRange_returns_iff (fresh : Nat → UInt8) (h : b.len.toNat + more.length < 2 ^ 32) :
    (∃ fuel b', appendRange fresh fuel b more = .done b') ↔
      CanGrow b.cap.toNat (b.len.toNat + more.length) := by
  constructor
  · rintro ⟨fuel, b', hdone⟩
    by_cases hzero : more.length.toUInt32 = 0
    · obtain rfl := (count_eq_zero_iff (by omega)).1 hzero
      exact Or.inl b.len_le
    · rw [← toNat_len_add h, ← ensureCapacity_returns_iff fresh]
      cases hgrow : ensureCapacity fresh fuel b (b.len + more.length.toUInt32) with
      | none =>
        rw [appendRange, if_neg hzero, hgrow] at hdone
        cases hdone
      | some grown => exact ⟨fuel, grown, hgrow⟩
  · intro hgrow
    rw [← toNat_len_add h, ← ensureCapacity_returns_iff fresh] at hgrow
    obtain ⟨fuel, grown, hgrow⟩ := hgrow
    rcases appendRange_cases fresh fuel h with ⟨-, hnone⟩ | ⟨b', hdone, -, -⟩
    · rw [hgrow] at hnone
      cases hnone
    · exact ⟨fuel, b', hdone⟩

/-! ## The buffers of the header blocks -/

/-- The capacity is zero or a power of two, at least 8. -/
def BinaryCap (cap : UInt32) : Prop := cap = 0 ∨ ∃ j, 3 ≤ j ∧ cap.toNat = 2 ^ j

/-- Such a buffer can grow to 2^31 bytes and no further. -/
theorem canGrow_iff_of_binaryCap {cap : UInt32} (h : BinaryCap cap) (needed : Nat) :
    CanGrow cap.toNat needed ↔ needed ≤ 2 ^ 31 := by
  refine ⟨?_, fun hhalf => Or.inr (Or.inl hhalf)⟩
  rcases h with rfl | ⟨j, -, hj⟩
  · rintro (hcap | hhalf | ⟨hlow, -⟩)
    · exact hcap.trans (by decide)
    · exact hhalf
    · exact absurd hlow (by decide)
  · have hlt : j < 32 := by
      have := cap.toNat_lt
      rw [hj] at this
      exact (Nat.pow_lt_pow_iff_right (by omega)).1 this
    rw [hj]
    rintro (hcap | hhalf | ⟨-, m, hm, hreach⟩)
    · exact hcap.trans (Nat.pow_le_pow_right (by omega) (by omega))
    · exact hhalf
    · -- its low bits are the power or nothing
      have hshift := mul_two_pow_mod 32 (2 ^ j) (32 - m) (by omega)
      rw [show 32 - (32 - m) = m by omega] at hshift
      rw [← hshift] at hreach
      exact hreach.trans (two_pow_mul_two_pow_mod_le 32 j (32 - m))

/-- A shift of the start of the loop is such a capacity again. -/
theorem binaryCap_shift {cap grown : UInt32} (h : BinaryCap cap) {k : Nat}
    (hk : grown.toNat = (startCap cap).toNat * 2 ^ k % 2 ^ 32) : BinaryCap grown := by
  obtain ⟨i, hi, hstart⟩ : ∃ i, 3 ≤ i ∧ (startCap cap).toNat = 2 ^ i := by
    rw [toNat_startCap]
    split
    · exact ⟨3, le_refl 3, rfl⟩
    · rename_i hlow
      rcases h with rfl | ⟨j, hj, hcap⟩
      · exact absurd (by decide) hlow
      · have hlt : j < 31 := by
          by_contra hge
          apply hlow
          rw [hcap, Nat.mod_eq_zero_of_dvd (Nat.pow_dvd_pow 2 (not_lt.1 hge))]
          decide
        refine ⟨j + 1, by omega, ?_⟩
        rw [hcap, Nat.mod_eq_of_lt (Nat.pow_lt_pow_right (by omega) hlt), Nat.pow_succ]
  rw [hstart, ← Nat.pow_add] at hk
  by_cases hover : 32 ≤ i + k
  · -- the bit has passed the top
    rw [Nat.mod_eq_zero_of_dvd (Nat.pow_dvd_pow 2 hover)] at hk
    exact Or.inl (UInt32.toNat_inj.1 hk)
  · rw [Nat.mod_eq_of_lt (Nat.pow_lt_pow_right (by omega) (by omega))] at hk
    exact Or.inr ⟨i + k, by omega, hk⟩

/-- A buffer that collects the fragments of header blocks: new or with 128 bytes, after any appends
that returned, each of at most the payload of a frame, and any `clear`. -/
inductive Accumulator (fresh : Nat → UInt8) : ByteBuffer → Prop where
  | empty : Accumulator fresh (ofCapacity fresh 0)
  | sized : Accumulator fresh (ofCapacity fresh 128)
  | append {b b' : ByteBuffer} {fuel : Nat} {fragment : Bytes} : Accumulator fresh b →
      fragment.length < 2 ^ 24 → appendRange fresh fuel b fragment = .done b' →
      Accumulator fresh b'
  | clear {b : ByteBuffer} : Accumulator fresh b → Accumulator fresh b.clear

/-- The content of a buffer with such a capacity is at most 2^31 bytes long. -/
theorem len_le_of_binaryCap (h : BinaryCap b.cap) : b.len.toNat ≤ 2 ^ 31 :=
  (canGrow_iff_of_binaryCap h _).1 (Or.inl b.len_le)

theorem Accumulator.binaryCap (h : Accumulator fresh b) : BinaryCap b.cap := by
  induction h with
  | empty => exact Or.inl rfl
  | sized => exact Or.inr ⟨7, by decide, rfl⟩
  | @append b b' fuel fragment h hlen hdone ih =>
    have hle := len_le_of_binaryCap ih
    obtain ⟨-, hcap | ⟨k, hk⟩⟩ := appendRange_done_spec (by omega) hdone
    · -- there was room
      rw [hcap]
      exact ih
    · exact binaryCap_shift ih hk
  | clear _ ih => exact ih

/-- Where the fragment is appended the content is the appended byte string of the protocol's model,
which stops where the loop of the buffer does. -/
theorem returns_iff_append (h : Accumulator fresh b) {out : Bytes} (hlen : more.length < 2 ^ 24) :
    (∃ fuel b', appendRange fresh fuel b more = .done b' ∧ b'.content = out) ↔
      ByteBuffer.append b.content more = .ok out := by
  have hle := len_le_of_binaryCap h.binaryCap
  have hsum : b.len.toNat + more.length < 2 ^ 32 := by omega
  have hreturns := (appendRange_returns_iff fresh hsum).trans
    (canGrow_iff_of_binaryCap h.binaryCap _)
  rw [append_eq_ok]
  constructor
  · rintro ⟨fuel, b', hdone, rfl⟩
    have := hreturns.1 ⟨fuel, b', hdone⟩
    rw [(appendRange_done_spec hsum hdone).1]
    exact ⟨rfl, by rw [List.length_append, length_content]; exact this⟩
  · rintro ⟨rfl, hout⟩
    rw [List.length_append, length_content] at hout
    obtain ⟨fuel, b', hdone⟩ := hreturns.2 hout
    exact ⟨fuel, b', hdone, (appendRange_done_spec hsum hdone).1⟩

/-- A peer can fill an accumulator to every length up to 2^31. -/
theorem exists_accumulator (fresh : Nat → UInt8) (n : Nat) (h : n ≤ 2 ^ 31) :
    ∃ b, Accumulator fresh b ∧ b.len.toNat = n := by
  -- byte by byte
  induction n with
  | zero => exact ⟨_, .empty, rfl⟩
  | succ n ih =>
    obtain ⟨b, hb, hlen⟩ := ih (by omega)
    have happend : ByteBuffer.append b.content [0] = .ok (b.content ++ [0]) :=
      append_eq_ok.2 ⟨rfl, by rw [List.length_append, length_content, hlen]; exact h⟩
    obtain ⟨fuel, b', hdone, hcontent⟩ := (returns_iff_append hb (by decide)).2 happend
    refine ⟨b', .append hb (by decide) hdone, ?_⟩
    rw [← length_content, hcontent, List.length_append, length_content, hlen]
    rfl

/-- The growth of a buffer. For every buffer and every append to a representable length,
`ensureCapacity` returns with enough room and the content kept exactly where the capacity can grow to
this length. The buffers of the header blocks take a fragment exactly up to 2^31 bytes, and none of
their appends writes outside the allocation. -/
theorem ensureCapacity_correct_iff (fresh : Nat → UInt8) :
    (∀ (b : ByteBuffer) (count : UInt32), b.len.toNat + count.toNat < 2 ^ 32 →
      ((∃ fuel b', ensureCapacity fresh fuel b (b.len + count) = some b' ∧
          b.len.toNat + count.toNat ≤ b'.cap.toNat ∧
          b'.memory.take b.len.toNat = b.memory.take b.len.toNat) ↔
        CanGrow b.cap.toNat (b.len.toNat + count.toNat))) ∧
    ∀ (b : ByteBuffer) (fragment : Bytes), Accumulator fresh b → fragment.length < 2 ^ 24 →
      ((∃ fuel b', appendRange fresh fuel b fragment = .done b') ↔
        b.len.toNat + fragment.length ≤ 2 ^ 31) ∧
      ∀ fuel, appendRange fresh fuel b fragment ≠ .outOfRange := by
  constructor
  · intro b count h
    have hsum : (b.len + count).toNat = b.len.toNat + count.toNat := by
      rw [UInt32.toNat_add, Nat.mod_eq_of_lt h]
    rw [← hsum]
    exact ensureCapacity_iff
  · intro b fragment hb hlen
    have hle := len_le_of_binaryCap hb.binaryCap
    have hsum : b.len.toNat + fragment.length < 2 ^ 32 := by omega
    refine ⟨?_, fun fuel => appendRange_ne_outOfRange fuel hsum⟩
    exact (appendRange_returns_iff fresh hsum).trans (canGrow_iff_of_binaryCap hb.binaryCap _)

/-- A new buffer of 128 bytes has room for 1000 bytes after the loop. -/
theorem ensureCapacity_correct_iff_1000 :
    ∃ fuel b', ensureCapacity (fun _ => 0) fuel (ofCapacity (fun _ => 0) 128) (0 + 1000) =
      some b' ∧ 0 + 1000 ≤ b'.cap.toNat ∧
      b'.memory.take 0 = (ofCapacity (fun _ => 0) 128).memory.take 0 :=
  ((ensureCapacity_correct_iff fun _ => 0).1 (ofCapacity (fun _ => 0) 128) 1000 (by decide)).2
    (by decide)

/-- `ensureCapacity` never returns for 2^31 + 1 bytes in a new buffer of 128 bytes, nor for one byte
more in an accumulator that a peer has filled with 2^31 bytes. -/
theorem ensureCapacity_never_returns :
    (∀ fuel, ensureCapacity (fun _ => 0) fuel (ofCapacity (fun _ => 0) 128) (0 + 2147483649) =
      none) ∧
    ∃ b, Accumulator (fun _ => 0) b ∧ b.len.toNat + 1 < 2 ^ 32 ∧
      ∀ fuel, ensureCapacity (fun _ => 0) fuel b (b.len + 1) = none := by
  -- a power of two grows to 2^31 at most
  have never : ∀ (b : ByteBuffer) (needed : UInt32), BinaryCap b.cap → 2 ^ 31 < needed.toNat →
      ∀ fuel, ensureCapacity (fun _ => 0) fuel b needed = none := by
    intro b needed hb hneeded fuel
    rw [← Option.not_isSome_iff_eq_none, Option.isSome_iff_exists]
    rintro ⟨b', h⟩
    have hgrow := (ensureCapacity_returns_iff _).1 ⟨fuel, b', h⟩
    have := (canGrow_iff_of_binaryCap hb _).1 hgrow
    omega
  refine ⟨never _ _ (Or.inr ⟨7, by decide, rfl⟩) (by decide), ?_⟩
  obtain ⟨b, hb, hlen⟩ := exists_accumulator (fun _ => 0) (2 ^ 31) (le_refl _)
  have hsum : (b.len + 1).toNat = 2 ^ 31 + 1 := by
    rw [UInt32.toNat_add, hlen]
    rfl
  exact ⟨b, hb, by rw [hlen]; decide, never b _ hb.binaryCap (by omega)⟩

end ByteBuffer

end Chttp2
