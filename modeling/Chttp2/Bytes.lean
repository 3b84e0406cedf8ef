import Mathlib.Tactic

/-!
# Byte strings, spans and the guarded operations

`std::string`, `ByteBuffer` and the bytes of a frame are byte lists here. `ByteSpan` is the read
cursor of `byte_span.hpp`: a byte range and an offset into it, with 32-bit offsets. Its accessors
check their argument and throw; here they return a `Fault` in `Guarded`, and so does every other
operation of the library that the source guards with an exception or an assertion.

`ByteSpan.rest` is the unread part of a span. On a span that fits its range (`ByteSpan.Fits`) a
read that stays inside `rest` succeeds and moves `rest` forward (`advance_eq`, `readAs_eq`,
`subspan_eq`).
-/

set_option autoImplicit false

namespace Chttp2

/-- A byte string. -/
abbrev Bytes := List UInt8

/-- The bytes of an ASCII literal. -/
def ascii (s : String) : Bytes := s.toList.map fun c => c.toNat.toUInt8

/-- The failures that the source guards against with an exception or an assertion. `bufferGrowth`
is the one that is not an exception: `ByteBuffer::ensureCapacity` doubles a 32-bit capacity, and
for a buffer that needs more than 2^31 bytes the doubling wraps to zero and never ends. -/
inductive Fault where
  /-- `ByteSpan::operator[]: out of range` -/
  | spanIndex
  /-- `ByteSpan::advance: out of range` -/
  | spanAdvance
  /-- `ByteSpan::peek: out of range` -/
  | spanPeek
  /-- `ByteSpan::subspan: out of range` -/
  | spanSubspan
  /-- `assert(data.size() == 9)` in `FrameHeader::decode` -/
  | headerSize
  /-- `internal error: took too much` in `OutFlow::take` -/
  | tookTooMuch
  /-- a null `Node*` is dereferenced in `Huffman::decode` -/
  | nullHuffmanNode
  /-- `std::stoi` without a convertible value -/
  | stoi
  /-- `ByteBuffer::ensureCapacity` does not return -/
  | bufferGrowth (needed : Nat)
  deriving DecidableEq, Repr

/-- A computation that may run into a guard. -/
abbrev Guarded := Except Fault

theorem ok_bind {α β : Type} (a : α) (f : α → Guarded β) : (Except.ok a >>= f) = f a := rfl

theorem bind_eq_ok {α β : Type} {x : Guarded α} {f : α → Guarded β} {b : β} :
    (x >>= f) = .ok b ↔ ∃ a, x = .ok a ∧ f a = .ok b := by
  cases x with
  | error e =>
    constructor
    · intro h
      cases h
    · rintro ⟨a, h, -⟩
      cases h
  | ok a =>
    constructor
    · intro h
      exact ⟨a, rfl, h⟩
    · rintro ⟨a', h, h'⟩
      cases h
      exact h'

/-- `ByteBuffer::append` of a byte range to an accumulator. The accumulators of the protocol start
empty or with 128 bytes, so their capacity is a power of two and `ensureCapacity` returns exactly
when at most 2^31 bytes are needed. -/
def ByteBuffer.append (buf more : Bytes) : Guarded Bytes :=
  if buf.length + more.length ≤ 2 ^ 31 then .ok (buf ++ more)
  else .error (.bufferGrowth (buf.length + more.length))

/-- The fault of an accumulator that has to hold more than 2^31 bytes. -/
def Fault.Overgrown (e : Fault) : Prop := ∃ needed > 2 ^ 31, e = .bufferGrowth needed

theorem ByteBuffer.append_eq_ok {buf more out : Bytes} :
    ByteBuffer.append buf more = .ok out ↔ out = buf ++ more ∧ out.length ≤ 2 ^ 31 := by
  unfold ByteBuffer.append
  by_cases h : buf.length + more.length ≤ 2 ^ 31
  · rw [if_pos h]
    constructor
    · intro e
      cases e
      exact ⟨rfl, by simpa using h⟩
    · rintro ⟨rfl, -⟩
      rfl
  · rw [if_neg h]
    constructor
    · intro e
      cases e
    · rintro ⟨rfl, hl⟩
      exact absurd (by simpa using hl) h

theorem ByteBuffer.error_of_append {buf more : Bytes} {e : Fault}
    (h : ByteBuffer.append buf more = .error e) : e.Overgrown := by
  unfold ByteBuffer.append at h
  split at h
  · cases h
  · rename_i hlen
    cases h
    exact ⟨_, not_le.1 hlen, rfl⟩

/-! ## Big-endian numbers -/

/-- The number a byte string denotes, most significant byte first. -/
def bigEndian (bs : Bytes) : Nat := bs.foldl (fun acc b => acc * 256 + b.toNat) 0

/-- The `n` low bytes of `v`, most significant first. -/
def toBigEndian : Nat → Nat → Bytes
  | 0, _ => []
  | n + 1, v => (v / 256 ^ n % 256).toUInt8 :: toBigEndian n v

@[simp] theorem length_toBigEndian (n v : Nat) : (toBigEndian n v).length = n := by
  induction n with
  | zero => rfl
  | succ n ih => simp [toBigEndian, ih]

theorem foldl_bigEndian_lt (bs : Bytes) :
    ∀ acc, bs.foldl (fun acc b => acc * 256 + b.toNat) acc < (acc + 1) * 256 ^ bs.length := by
  induction bs with
  | nil =>
    intro acc
    simp
  | cons b bs ih =>
    intro acc
    have hb : b.toNat < 256 := b.toNat_lt
    have h := ih (acc * 256 + b.toNat)
    have hle : (acc * 256 + b.toNat + 1) * 256 ^ bs.length ≤
        (acc + 1) * 256 * 256 ^ bs.length :=
      Nat.mul_le_mul_right _ (by omega)
    calc (b :: bs).foldl (fun acc b => acc * 256 + b.toNat) acc
        < (acc * 256 + b.toNat + 1) * 256 ^ bs.length := h
      _ ≤ (acc + 1) * 256 * 256 ^ bs.length := hle
      _ = (acc + 1) * 256 ^ (b :: bs).length := by
        rw [List.length_cons, Nat.pow_succ, Nat.mul_assoc, Nat.mul_comm 256]

theorem bigEndian_lt (bs : Bytes) : bigEndian bs < 256 ^ bs.length := by
  have h := foldl_bigEndian_lt bs 0
  simpa [bigEndian] using h

theorem foldl_bigEndian (bs : Bytes) :
    ∀ acc, bs.foldl (fun acc b => acc * 256 + b.toNat) acc = acc * 256 ^ bs.length + bigEndian bs := by
  induction bs with
  | nil =>
    intro acc
    simp [bigEndian]
  | cons b bs ih =>
    intro acc
    have hb : bigEndian (b :: bs) = b.toNat * 256 ^ bs.length + bigEndian bs := by
      rw [← ih b.toNat]
      simp [bigEndian]
    rw [hb, List.foldl_cons, ih, List.length_cons, Nat.pow_succ]
    ring

theorem bigEndian_cons (b : UInt8) (bs : Bytes) :
    bigEndian (b :: bs) = b.toNat * 256 ^ bs.length + bigEndian bs := by
  rw [← foldl_bigEndian bs b.toNat]
  simp [bigEndian]

/-- Bytes written with most significant first are read back. -/
theorem bigEndian_toBigEndian {n v : Nat} (h : v < 256 ^ n) : bigEndian (toBigEndian n v) = v := by
  have key : ∀ n, bigEndian (toBigEndian n v) = v % 256 ^ n := by
    intro n
    induction n with
    | zero => simp [toBigEndian, bigEndian, Nat.mod_one]
    | succ n ih =>
      have hdigit : ((v / 256 ^ n % 256).toUInt8).toNat = v / 256 ^ n % 256 := by
        rw [Nat.toUInt8_eq, UInt8.toNat_ofNat']
        exact Nat.mod_eq_of_lt (Nat.mod_lt _ (by decide))
      rw [toBigEndian, bigEndian_cons, length_toBigEndian, ih, hdigit, Nat.mod_pow_succ]
      ring
  rw [key, Nat.mod_eq_of_lt h]

/-- The low bytes do not depend on the digits above them. -/
theorem toBigEndian_add_mul (n a r : Nat) : toBigEndian n (a * 256 ^ n + r) = toBigEndian n r := by
  induction n generalizing a with
  | zero => rfl
  | succ n ih =>
    have hpow : a * 256 ^ (n + 1) = a * 256 * 256 ^ n := by
      rw [Nat.pow_succ]
      ring
    have hdiv : (a * 256 * 256 ^ n + r) / 256 ^ n = a * 256 + r / 256 ^ n := by
      rw [Nat.add_comm, Nat.add_mul_div_right _ _ (by positivity), Nat.add_comm]
    rw [toBigEndian, toBigEndian, hpow, hdiv, Nat.mul_add_mod_self_right, ih (a * 256)]

/-- The bytes of the number that a byte string denotes. -/
theorem toBigEndian_bigEndian (bs : Bytes) : toBigEndian bs.length (bigEndian bs) = bs := by
  induction bs with
  | nil => rfl
  | cons b bs ih =>
    have hdiv : (b.toNat * 256 ^ bs.length + bigEndian bs) / 256 ^ bs.length = b.toNat := by
      rw [Nat.add_comm, Nat.add_mul_div_right _ _ (by positivity),
        Nat.div_eq_of_lt (bigEndian_lt bs), Nat.zero_add]
    have hb : b.toNat % 256 = b.toNat := Nat.mod_eq_of_lt b.toNat_lt
    rw [List.length_cons, toBigEndian, bigEndian_cons, hdiv, hb, toBigEndian_add_mul, ih]
    simp

/-! ## Spans -/

/-- A read cursor: the bytes `data` of the range and the offset `cur` of the next unread byte. -/
structure ByteSpan where
  data : Bytes
  cur : Nat
  deriving DecidableEq, Repr

namespace ByteSpan

/-- The span over a whole byte string. -/
def ofBytes (b : Bytes) : ByteSpan := ⟨b, 0⟩

/-- The unread bytes, `[begin(), end())`. -/
def rest (s : ByteSpan) : Bytes := s.data.drop s.cur

def size (s : ByteSpan) : Nat := s.data.length - s.cur

def empty (s : ByteSpan) : Bool := decide (s.data.length ≤ s.cur)

/-- `operator[]`; the index counts from the start of the range, not from the cursor. -/
def get (s : ByteSpan) (index : Nat) : Guarded UInt8 :=
  match s.data[index]? with
  | some b => .ok b
  | none => .error .spanIndex

/-- `advance`. The cursor is a `uint32_t`; past the end of the range it throws. -/
def advance (s : ByteSpan) (n : Nat) : Guarded ByteSpan :=
  if (s.cur + n) % 2 ^ 32 > s.data.length then .error .spanAdvance
  else .ok { s with cur := (s.cur + n) % 2 ^ 32 }

/-- `peek<T>()` for a `T` of `width` bytes. -/
def peek (s : ByteSpan) (width : Nat) : Guarded Nat :=
  if s.cur + width > s.data.length then .error .spanPeek
  else .ok (bigEndian (s.rest.take width))

/-- `readAs<T>()` for a `T` of `width` bytes. -/
def readAs (s : ByteSpan) (width : Nat) : Guarded (Nat × ByteSpan) := do
  let value ← s.peek width
  let s ← s.advance width
  return (value, s)

/-- `subspan(off, count)`. -/
def subspan (s : ByteSpan) (off count : Nat) : Guarded ByteSpan :=
  if (s.cur + off + count) % 2 ^ 32 > s.data.length then .error .spanSubspan
  else .ok ⟨(s.data.drop (s.cur + off)).take count, 0⟩

/-- The cursor is inside the range, and the range has a 32-bit length. -/
structure Fits (s : ByteSpan) : Prop where
  cur_le : s.cur ≤ s.data.length
  length_lt : s.data.length < 2 ^ 32

theorem fits_ofBytes {b : Bytes} (h : b.length < 2 ^ 32) : (ofBytes b).Fits :=
  ⟨Nat.zero_le _, h⟩

@[simp] theorem rest_ofBytes (b : Bytes) : (ofBytes b).rest = b := rfl

@[simp] theorem length_rest (s : ByteSpan) : s.rest.length = s.size := by
  simp [rest, size]

theorem empty_iff {s : ByteSpan} : s.empty = true ↔ s.rest = [] := by
  simp [empty, rest]

theorem empty_eq_false_iff {s : ByteSpan} : s.empty = false ↔ s.rest ≠ [] := by
  rw [← Bool.not_eq_true, empty_iff]

variable {s : ByteSpan}

theorem get_eq {b : UInt8} {bs : Bytes} (h : s.data = b :: bs) : s.get 0 = .ok b := by
  simp [get, h]

/-- Advancing inside the unread bytes drops them. -/
theorem advance_eq (hs : s.Fits) {n : Nat} (hn : n ≤ s.rest.length) :
    ∃ s' : ByteSpan, s.advance n = .ok s' ∧ s'.Fits ∧ s'.data = s.data ∧
      s'.rest = s.rest.drop n := by
  obtain ⟨h1, h2⟩ := hs
  rw [length_rest, size] at hn
  have hlt : (s.cur + n) % 2 ^ 32 = s.cur + n := Nat.mod_eq_of_lt (by omega)
  refine ⟨⟨s.data, s.cur + n⟩, ?_, ⟨?_, h2⟩, rfl, ?_⟩
  · rw [advance, hlt, if_neg (by omega)]
  · show s.cur + n ≤ s.data.length
    omega
  · simp [rest]

theorem peek_eq {w : Nat} (hw : 0 < w) (hn : w ≤ s.rest.length) :
    s.peek w = .ok (bigEndian (s.rest.take w)) := by
  rw [length_rest, size] at hn
  rw [peek, if_neg (by omega)]

/-- A read inside the unread bytes returns their prefix and drops it. -/
theorem readAs_eq (hs : s.Fits) {w : Nat} (hw : 0 < w) (hn : w ≤ s.rest.length) :
    ∃ s' : ByteSpan, s.readAs w = .ok (bigEndian (s.rest.take w), s') ∧ s'.Fits ∧
      s'.data = s.data ∧ s'.rest = s.rest.drop w := by
  obtain ⟨s', h1, h2, h3, h4⟩ := advance_eq hs hn
  refine ⟨s', ?_, h2, h3, h4⟩
  rw [readAs, peek_eq hw hn, h1]
  rfl

/-- A one-byte read of a span whose unread bytes start with `b`. -/
theorem readAs_one (hs : s.Fits) {b : UInt8} {bs : Bytes} (h : s.rest = b :: bs) :
    ∃ s' : ByteSpan, s.readAs 1 = .ok (b.toNat, s') ∧ s'.Fits ∧ s'.data = s.data ∧
      s'.rest = bs := by
  obtain ⟨s', h1, h2, h3, h4⟩ := readAs_eq hs (w := 1) (by omega) (by rw [h]; simp)
  refine ⟨s', ?_, h2, h3, ?_⟩
  · rw [h1, h]
    simp [bigEndian]
  · rw [h4, h]
    rfl

/-- Reading back a number that has been written at the front of the unread bytes. -/
theorem readAs_toBigEndian (hs : s.Fits) {w v : Nat} {bs : Bytes} (hw : 0 < w) (hv : v < 256 ^ w)
    (h : s.rest = toBigEndian w v ++ bs) :
    ∃ s' : ByteSpan, s.readAs w = .ok (v, s') ∧ s'.Fits ∧ s'.rest = bs := by
  obtain ⟨s', h1, h2, -, h4⟩ := readAs_eq hs hw (by rw [h]; simp)
  have htake : s.rest.take w = toBigEndian w v := by rw [h, List.take_left' (by simp)]
  refine ⟨s', ?_, h2, ?_⟩
  · rw [h1, htake, bigEndian_toBigEndian hv]
  · rw [h4, h, List.drop_left' (by simp)]

theorem subspan_eq (hs : s.Fits) {n : Nat} (hn : n ≤ s.rest.length) :
    s.subspan 0 n = .ok (ofBytes (s.rest.take n)) := by
  obtain ⟨h1, h2⟩ := hs
  rw [length_rest, size] at hn
  have hlt : (s.cur + 0 + n) % 2 ^ 32 = s.cur + n := Nat.mod_eq_of_lt (by omega)
  rw [subspan, hlt, if_neg (by omega)]
  rfl

end ByteSpan

end Chttp2
