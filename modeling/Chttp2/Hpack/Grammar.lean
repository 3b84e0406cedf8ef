import Chttp2.Hpack.Codec
import Chttp2.Hpack.HuffmanCorrect

/-!
# The decoder reads a sequence of representations

`Representation` is one element of a header block: an indexed field, a literal field or a size
update. `readRepresentation` reads one from a byte list, `Block.apply` is its effect on the dynamic
table and on the fields read so far, and `readBlock` does both until the block is empty.

`decode_eq` says that `Hpack.decode` returns on every block below 2^32 bytes and does what
`readBlock` does; in particular no guard of a span or of the Huffman tree is reached.
-/

set_option autoImplicit false

namespace Chttp2.Hpack

/-! ## Reading -/

/-- The name of a literal field. -/
inductive NameRef where
  | index (i : Nat)
  | literal (name : Bytes)
  deriving DecidableEq, Repr

/-- What the receiver of a literal does with it. -/
inductive Indexing where
  | incremental
  | without
  | never
  deriving DecidableEq, Repr

/-- What a header block consists of. -/
inductive Representation where
  | indexed (index : Nat)
  | literal (mode : Indexing) (name : NameRef) (value : Bytes)
  | sizeUpdate (size : Nat)
  deriving DecidableEq, Repr

/-- The continuation bytes of a prefix integer: at most nine. -/
def readVIntRest : Nat → Bytes → Nat → Nat → Option (Nat × Bytes)
  | 0, _, _, _ => none
  | _ + 1, [], _, _ => none
  | fuel + 1, b :: bs, value, shift =>
    let value := value + b.toNat % 128 * 2 ^ shift
    if b.toNat < 128 then some (value, bs)
    else if shift + 7 ≥ 63 then none
    else readVIntRest fuel bs value (shift + 7)

/-- A prefix integer whose first byte holds `width` bits of it. -/
def readVInt (width : Nat) : Bytes → Option (Nat × Bytes)
  | [] => none
  | b :: bs =>
    if b.toNat % 2 ^ width < 2 ^ width - 1 then some (b.toNat % 2 ^ width, bs)
    else readVIntRest 9 bs (b.toNat % 2 ^ width) 0

/-- `Huffman.decode` as a total function. -/
def huffmanDecoded (data : Bytes) : Option Bytes :=
  match Huffman.decode data with
  | .ok r => r
  | .error _ => none

/-- A string literal. -/
def readString (bs : Bytes) : Option (Bytes × Bytes) :=
  match readVInt 7 bs with
  | none => none
  | some (length, rest) =>
    if rest.length < length then none
    else
      (if (bs.headD 0).toNat ≥ 128 then huffmanDecoded (rest.take length)
        else some (rest.take length)).map fun str => (str, rest.drop length)

/-- The name of a literal: an index, or a string behind the index 0. -/
def readName (index : Nat) (bs : Bytes) : Option (NameRef × Bytes) :=
  if index = 0 then (readString bs).map fun p => (.literal p.1, p.2) else some (.index index, bs)

/-- A literal field whose index takes `width` bits. -/
def readLiteral (mode : Indexing) (width : Nat) (bs : Bytes) : Option (Representation × Bytes) :=
  (readVInt width bs).bind fun p =>
    (readName p.1 p.2).bind fun q =>
      (readString q.2).map fun v => (.literal mode q.1 v.1, v.2)

/-- The first bits of a representation tell its kind. -/
def readRepresentation (bs : Bytes) : Option (Representation × Bytes) :=
  let flag := (bs.headD 0).toNat
  if flag ≥ 128 then (readVInt 7 bs).map fun p => (.indexed p.1, p.2)
  else if flag ≥ 64 then readLiteral .incremental 6 bs
  else if flag ≥ 32 then (readVInt 5 bs).map fun p => (.sizeUpdate p.1, p.2)
  else if flag ≥ 16 then readLiteral .never 4 bs
  else readLiteral .without 4 bs

/-! ## The effect of a representation -/

/-- What has been decoded of a block: the dynamic table, whether a size update is still allowed,
and the fields. -/
structure Block where
  table : HpackTable
  firstField : Bool := true
  headers : List HeaderField := []
  deriving DecidableEq

namespace Block

/-- Add a field. -/
def push (b : Block) (header : HeaderField) (table : HpackTable) : Block :=
  { table, firstField := false, headers := b.headers ++ [header] }

/-- The name that a literal refers to. -/
def nameOf (b : Block) : NameRef → Option Bytes
  | .index i => (b.table.at? i).map HeaderField.name
  | .literal name => some name

/-- The effect of a representation; a size update has to come first and to keep the limit. -/
def apply (limit : Nat) (b : Block) : Representation → Option Block
  | .indexed i => (b.table.at? i).map fun header => b.push header b.table
  | .literal mode name value =>
    (b.nameOf name).map fun name =>
      let header : HeaderField := ⟨name, value, mode == .never⟩
      b.push header (if mode == .incremental then b.table.insert header else b.table)
  | .sizeUpdate size =>
    if b.firstField && size ≤ limit then some { b with table := b.table.setMaxSize size } else none

end Block

/-- Read and apply representations until the block is empty. -/
def readBlock (limit : Nat) : Nat → Bytes → Block → HpackTable × Option (List HeaderField)
  | 0, _, b => (b.table, some b.headers)
  | fuel + 1, bs, b =>
    if bs = [] then (b.table, some b.headers)
    else
      match readRepresentation bs with
      | none => (b.table, none)
      | some (r, rest) =>
        match b.apply limit r with
        | none => (b.table, none)
        | some b => readBlock limit fuel rest b

/-- The effect of a whole block on the dynamic table, and its fields unless it is rejected. -/
def decodeBlock (limit : Nat) (t : HpackTable) (data : Bytes) :
    HpackTable × Option (List HeaderField) :=
  readBlock limit data.length data { table := t }

/-! ## The decoder follows the grammar -/

/-- A read of the source returns, and it returns what the grammar reads. -/
def Agrees {α : Type} (x : Guarded (Option (α × ByteSpan))) (p : Option (α × Bytes)) : Prop :=
  match p with
  | none => x = .ok none
  | some (a, rest) => ∃ s : ByteSpan, x = .ok (some (a, s)) ∧ s.Fits ∧ s.rest = rest

theorem huffman_decode_eq (data : Bytes) : Huffman.decode data = .ok (huffmanDecoded data) := by
  obtain ⟨r, hr, -⟩ := Huffman.decode_spec data
  rw [huffmanDecoded, hr]

section Reading

variable {s : ByteSpan}

/-- Moving the caller's buffer to the position of the view. -/
theorem advance_to_view {buffer view : ByteSpan} (hv : view.Fits) (hdata : view.data = buffer.data)
    (hcur : buffer.cur ≤ view.cur) : buffer.advance (buffer.size - view.size) = .ok view := by
  obtain ⟨h1, h2⟩ := hv
  have hsub : buffer.cur + (buffer.size - view.size) = view.cur := by
    unfold ByteSpan.size
    rw [hdata] at h1 ⊢
    omega
  rw [ByteSpan.advance, hsub, Nat.mod_eq_of_lt (by omega), if_neg (by rw [← hdata]; omega)]
  cases view
  cases hdata
  rfl

theorem and_maxPrefix (b width : Nat) : b &&& (1 <<< width - 1) = b % 2 ^ width := by
  rw [Nat.one_shiftLeft, Nat.and_two_pow_sub_one_eq_mod]

theorem and_high_bit (b : UInt8) : b.toNat &&& 0x80 = 0 ↔ b.toNat < 128 := by
  have h : ∀ n : Nat, n < 256 → (n &&& 0x80 = 0 ↔ n < 128) := by decide +kernel
  exact h _ b.toNat_lt

/-- A read moves the cursor forward by one. -/
theorem readAs_one_view (hs : s.Fits) {b : UInt8} {bs : Bytes} (h : s.rest = b :: bs) :
    ∃ v : ByteSpan, s.readAs 1 = .ok (b.toNat, v) ∧ v.Fits ∧ v.data = s.data ∧ v.rest = bs ∧
      s.cur ≤ v.cur := by
  obtain ⟨v, h1, h2, h3, h4⟩ := ByteSpan.readAs_one hs h
  refine ⟨v, h1, h2, h3, h4, ?_⟩
  have hl1 := congrArg List.length h
  have hl2 := congrArg List.length h4
  rw [ByteSpan.length_rest, ByteSpan.size, List.length_cons] at hl1
  rw [ByteSpan.length_rest, ByteSpan.size, h3] at hl2
  omega

/-- The value stays below 2^64, so the additions of the source do not wrap. -/
theorem decodeVIntLoop_agrees {buffer : ByteSpan} (fuel : Nat) : ∀ (view : ByteSpan)
    (value shift : Nat), view.Fits → view.data = buffer.data → buffer.cur ≤ view.cur →
    shift + 7 * fuel = 63 → value < 2 ^ 8 + 2 ^ shift →
    Agrees (decodeVIntLoop buffer buffer.size fuel view value shift)
      (readVIntRest fuel view.rest value shift) := by
  induction fuel with
  | zero =>
    intro view value shift _ _ _ _ _
    rfl
  | succ fuel ih =>
    intro view value shift hv hdata hcur hshift hvalue
    rw [decodeVIntLoop]
    cases hrest : view.rest with
    | nil =>
      rw [if_pos (ByteSpan.empty_iff.2 hrest)]
      rfl
    | cons b bs =>
      have hne : view.empty = false := ByteSpan.empty_eq_false_iff.2 (by simp [hrest])
      obtain ⟨v, h1, h2, h3, h4, h5⟩ := readAs_one_view hv hrest
      have hand : (b.toNat &&& 0x7f) <<< shift = b.toNat % 128 * 2 ^ shift := by
        rw [Nat.shiftLeft_eq]
        exact congrArg (· * 2 ^ shift) (and_maxPrefix b.toNat 7)
      -- seven bits more keep the value below the next bound
      have hgrow : value + b.toNat % 128 * 2 ^ shift < 2 ^ 8 + 2 ^ (shift + 7) := by
        have hb : b.toNat % 128 ≤ 127 := by omega
        have := Nat.mul_le_mul_right (2 ^ shift) hb
        rw [Nat.pow_add]
        omega
      have hpow : 2 ^ (shift + 7) ≤ 2 ^ 63 := Nat.pow_le_pow_right (by omega) (by omega)
      simp only [hne, Bool.false_eq_true, if_false, h1, ok_bind, hand, readVIntRest]
      rw [Nat.mod_eq_of_lt (by omega)]
      by_cases hb : b.toNat < 128
      · rw [if_pos ((and_high_bit b).2 hb), if_pos hb,
          advance_to_view h2 (h3.trans hdata) (Nat.le_trans hcur h5)]
        exact ⟨v, rfl, h2, h4⟩
      · rw [if_neg (fun h => hb ((and_high_bit b).1 h)), if_neg hb]
        by_cases h63 : shift + 7 ≥ 63
        · rw [if_pos h63, if_pos h63]
          rfl
        · rw [if_neg h63, if_neg h63, ← h4]
          exact ih v _ _ h2 (h3.trans hdata) (Nat.le_trans hcur h5) (by omega) hgrow

theorem decodeVInt_agrees (hs : s.Fits) (width : Nat) (h1 : 1 ≤ width) (h8 : width ≤ 8) :
    Agrees (decodeVInt s width) (readVInt width s.rest) := by
  rw [decodeVInt, if_neg (by omega)]
  cases hrest : s.rest with
  | nil =>
    rw [if_pos (ByteSpan.empty_iff.2 hrest)]
    rfl
  | cons b bs =>
    have hne : s.empty = false := ByteSpan.empty_eq_false_iff.2 (by simp [hrest])
    obtain ⟨v, hr, hf, hd, hv, hc⟩ := readAs_one_view hs hrest
    simp only [hne, Bool.false_eq_true, if_false, hr, ok_bind, and_maxPrefix, readVInt]
    rw [Nat.one_shiftLeft]
    split
    · rw [advance_to_view hf hd hc]
      exact ⟨v, rfl, hf, hv⟩
    · rw [← hv]
      have hlt : b.toNat % 2 ^ width < 2 ^ 8 :=
        Nat.lt_of_lt_of_le (Nat.mod_lt _ (by positivity)) (Nat.pow_le_pow_right (by omega) h8)
      exact decodeVIntLoop_agrees 9 v _ 0 hf hd hc rfl (by omega)

theorem peek_one (hne : s.rest ≠ []) : s.peek 1 = .ok (s.rest.headD 0).toNat := by
  cases hrest : s.rest with
  | nil => exact absurd hrest hne
  | cons b bs =>
    rw [ByteSpan.peek_eq (by omega) (by rw [hrest]; simp), hrest]
    simp [bigEndian]

theorem decodeString_agrees (hs : s.Fits) : Agrees (decodeString s) (readString s.rest) := by
  rw [decodeString, readString]
  by_cases hrest : s.rest = []
  · rw [if_pos (ByteSpan.empty_iff.2 hrest), hrest]
    rfl
  · have hne : s.empty = false := ByteSpan.empty_eq_false_iff.2 hrest
    have hint := decodeVInt_agrees hs 7 (by omega) (by omega)
    simp only [hne, Bool.false_eq_true, if_false, peek_one hrest, ok_bind]
    cases hread : readVInt 7 s.rest with
    | none =>
      rw [hread] at hint
      simp only [Agrees] at hint
      simp only [hint, ok_bind]
      rfl
    | some p =>
      obtain ⟨length, rest⟩ := p
      rw [hread] at hint
      obtain ⟨v, hv, hf, hr⟩ := hint
      simp only [hv, ok_bind]
      have hsize : v.size = rest.length := by rw [← ByteSpan.length_rest, hr]
      rw [hsize]
      by_cases hlen : rest.length < length
      · rw [if_pos hlen, if_pos hlen]
        rfl
      · rw [if_neg hlen, if_neg hlen]
        -- the cast to 32 bits keeps a length that fits the block
        have h32 : length % 2 ^ 32 = length := by
          have h2 := hf.length_lt
          have : rest.length ≤ v.data.length := by
            rw [← hr, ByteSpan.rest, List.length_drop]
            omega
          exact Nat.mod_eq_of_lt (by omega)
        obtain ⟨v', ha, hf', -, hr'⟩ := ByteSpan.advance_eq hf (n := length) (by rw [hr]; omega)
        have hsub := ByteSpan.subspan_eq hf (n := length) (by rw [hr]; omega)
        have hflag : ((s.rest.headD 0).toNat &&& 0x80 != 0) = true ↔
            (s.rest.headD 0).toNat ≥ 128 := by
          rw [bne_iff_ne, ne_eq, and_high_bit]
          omega
        simp only [h32, hsub, ok_bind, ByteSpan.rest_ofBytes, huffman_decode_eq, hflag, hr]
        by_cases hb : (s.rest.headD 0).toNat ≥ 128
        · simp only [if_pos hb]
          cases huffmanDecoded (rest.take length) with
          | none => rfl
          | some str =>
            simp only [ha, ok_bind]
            exact ⟨v', rfl, hf', by rw [hr', hr]⟩
        · simp only [if_neg hb, pure_bind, ha, ok_bind]
          exact ⟨v', rfl, hf', by rw [hr', hr]⟩

end Reading

/-- The part of the decoder's state that is not the read position. -/
def DecodeState.block (st : DecodeState) : Block := ⟨st.decodeTable, st.firstField, st.headers⟩

/-- One step of the decoder: it returns, and does what the grammar reads and applies. -/
def StepAgrees (st : DecodeState) (x : Guarded (Option DecodeState))
    (p : Option (Block × Bytes)) : Prop :=
  match p with
  | none => x = .ok none
  | some (b, rest) => ∃ s : ByteSpan, x = .ok (some ⟨s, st.firstField, b.table, b.headers⟩) ∧
      s.Fits ∧ s.rest = rest

section Steps

variable {limit : Nat} {st : DecodeState}

theorem decodeIndexedHeader_agrees (hs : st.decodeBuffer.Fits) :
    StepAgrees st (decodeIndexedHeader st)
      (((readVInt 7 st.decodeBuffer.rest).map fun p => (Representation.indexed p.1, p.2)).bind
        fun p => (st.block.apply limit p.1).map fun b => (b, p.2)) := by
  have hint := decodeVInt_agrees hs 7 (by omega) (by omega)
  rw [decodeIndexedHeader]
  cases hread : readVInt 7 st.decodeBuffer.rest with
  | none =>
    rw [hread] at hint
    simp only [Agrees] at hint
    simp only [hint, ok_bind]
    rfl
  | some p =>
    obtain ⟨index, rest⟩ := p
    rw [hread] at hint
    obtain ⟨v, hv, hf, hr⟩ := hint
    simp only [hv, ok_bind, Option.map_some, Option.bind_some, Block.apply, DecodeState.block]
    cases st.decodeTable.at? index with
    | none => rfl
    | some header => exact ⟨v, rfl, hf, hr⟩

theorem decodeTableSizeUpdate_agrees (hs : st.decodeBuffer.Fits) :
    StepAgrees st (if !st.firstField then .ok none else decodeTableSizeUpdate limit st)
      (((readVInt 5 st.decodeBuffer.rest).map fun p => (Representation.sizeUpdate p.1, p.2)).bind
        fun p => (st.block.apply limit p.1).map fun b => (b, p.2)) := by
  have hint := decodeVInt_agrees hs 5 (by omega) (by omega)
  rw [decodeTableSizeUpdate]
  cases hread : readVInt 5 st.decodeBuffer.rest with
  | none =>
    rw [hread] at hint
    simp only [Agrees] at hint
    simp only [hint, ok_bind]
    split <;> rfl
  | some p =>
    obtain ⟨size, rest⟩ := p
    rw [hread] at hint
    obtain ⟨v, hv, hf, hr⟩ := hint
    simp only [hv, ok_bind, Option.map_some, Option.bind_some, Block.apply, DecodeState.block]
    by_cases hfirst : st.firstField = true
    · by_cases hsize : size ≤ limit
      · simp only [hfirst, Bool.not_true, Bool.false_eq_true, if_false, Bool.true_and,
          decide_eq_true_eq, if_pos hsize, if_neg (Nat.not_lt.2 hsize)]
        exact ⟨v, by rw [hfirst]; rfl, hf, hr⟩
      · simp only [hfirst, Bool.not_true, Bool.false_eq_true, if_false, Bool.true_and,
          decide_eq_true_eq, if_neg hsize, if_pos (Nat.lt_of_not_le hsize)]
        rfl
    · simp only [hfirst, Bool.not_false, if_true, Bool.false_and, Bool.false_eq_true, if_false]
      rfl

/-- The lines of `decodeHeaderField` after the name. -/
def decodeFieldValue (st : DecodeState) (indexed sensitive : Bool) (name : Bytes)
    (buffer : ByteSpan) : Guarded (Option DecodeState) := do
  match ← decodeString buffer with
  | none => return none
  | some (value, buffer) =>
    let header : HeaderField := { name, value, sensitivity := sensitive }
    return some { st with
      decodeBuffer := buffer
      decodeTable := if indexed then st.decodeTable.insert header else st.decodeTable
      headers := st.headers ++ [header] }

theorem decodeHeaderField_agrees (hs : st.decodeBuffer.Fits) (mode : Indexing) {width : Nat}
    (h1 : 1 ≤ width) (h8 : width ≤ 8) :
    StepAgrees st (decodeHeaderField st width (mode == .incremental) (mode == .never))
      ((readLiteral mode width st.decodeBuffer.rest).bind
        fun p => (st.block.apply limit p.1).map fun b => (b, p.2)) := by
  have hint := decodeVInt_agrees hs _ h1 h8
  rw [decodeHeaderField, readLiteral]
  cases hread : readVInt width st.decodeBuffer.rest with
  | none =>
    rw [hread] at hint
    simp only [Agrees] at hint
    simp only [hint, ok_bind]
    rfl
  | some p =>
    obtain ⟨index, rest⟩ := p
    rw [hread] at hint
    obtain ⟨v, hv, hf, rfl⟩ := hint
    -- the value after the name, which both sides read from the same bytes
    have hvalue : ∀ (w : ByteSpan) (ref : NameRef) (name : Bytes), w.Fits →
        st.block.nameOf ref = some name →
        StepAgrees st (decodeFieldValue st (mode == .incremental) (mode == .never) name w)
          (((readString w.rest).map fun v => (Representation.literal mode ref v.1, v.2)).bind
            fun p => (st.block.apply limit p.1).map fun b => (b, p.2)) := by
      intro w ref name hw hname
      have hstr := decodeString_agrees hw
      unfold decodeFieldValue
      cases hread : readString w.rest with
      | none =>
        rw [hread] at hstr
        simp only [Agrees] at hstr
        simp only [hstr, ok_bind]
        rfl
      | some p =>
        obtain ⟨value, rest⟩ := p
        rw [hread] at hstr
        obtain ⟨u, hu, hf, hr⟩ := hstr
        simp only [hu, ok_bind, Option.map_some, Option.bind_some, Block.apply, hname]
        exact ⟨u, rfl, hf, hr⟩
    simp only [hv, ok_bind, Option.bind_some, decodeName, readName]
    by_cases h0 : index = 0
    · have hstr := decodeString_agrees hf
      simp only [if_pos h0]
      cases hread : readString v.rest with
      | none =>
        rw [hread] at hstr
        simp only [Agrees] at hstr
        simp only [hstr, ok_bind]
        rfl
      | some p =>
        obtain ⟨name, rest⟩ := p
        rw [hread] at hstr
        obtain ⟨w, hw, hf', rfl⟩ := hstr
        simp only [hw, ok_bind, Option.map_some, Option.bind_some]
        exact hvalue w (.literal name) name hf' rfl
    · simp only [if_neg h0, Option.bind_some]
      cases hat : st.decodeTable.at? index with
      | none =>
        cases readString v.rest with
        | none => rfl
        | some p => simp only [Option.map_some, Option.bind_some, Block.apply, Block.nameOf,
            DecodeState.block, hat, Option.map_none]; rfl
      | some e =>
        exact hvalue v (.index index) e.name hf (by simp [Block.nameOf, DecodeState.block, hat])

theorem decodeHeader_agrees (hs : st.decodeBuffer.Fits) (hne : st.decodeBuffer.rest ≠ []) :
    StepAgrees st (decodeHeader limit st)
      ((readRepresentation st.decodeBuffer.rest).bind
        fun p => (st.block.apply limit p.1).map fun b => (b, p.2)) := by
  rw [decodeHeader, readRepresentation, peek_one hne, ok_bind]
  generalize hflag : (st.decodeBuffer.rest.headD 0).toNat = flag
  have hlt : flag < 256 := by
    rw [← hflag]
    exact UInt8.toNat_lt _
  have e7 : flag >>> 7 = 1 ↔ flag ≥ 128 := by
    rw [Nat.shiftRight_eq_div_pow]
    omega
  have e6 : ¬ flag ≥ 128 → (flag >>> 6 = 1 ↔ flag ≥ 64) := by
    rw [Nat.shiftRight_eq_div_pow]
    omega
  have e5 : ¬ flag ≥ 64 → (flag >>> 5 = 1 ↔ flag ≥ 32) := by
    rw [Nat.shiftRight_eq_div_pow]
    omega
  have e4 : ¬ flag ≥ 32 → (flag >>> 4 = 1 ↔ flag ≥ 16) := by
    rw [Nat.shiftRight_eq_div_pow]
    omega
  by_cases h7 : flag ≥ 128
  · simp only [e7, if_pos h7]
    exact decodeIndexedHeader_agrees hs
  by_cases h6 : flag ≥ 64
  · simp only [e7, if_neg h7, e6 h7, if_pos h6]
    exact decodeHeaderField_agrees hs .incremental (by omega) (by omega)
  by_cases h5 : flag ≥ 32
  · simp only [e7, if_neg h7, e6 h7, if_neg h6, e5 h6, if_pos h5]
    exact decodeTableSizeUpdate_agrees hs
  by_cases h4 : flag ≥ 16
  · simp only [e7, if_neg h7, e6 h7, if_neg h6, e5 h6, if_neg h5, e4 h5, if_pos h4]
    exact decodeHeaderField_agrees hs .never (by omega) (by omega)
  · simp only [e7, if_neg h7, e6 h7, if_neg h6, e5 h6, if_neg h5, e4 h5, if_neg h4]
    exact decodeHeaderField_agrees hs .without (by omega) (by omega)

/-- A field ends the part of the block where size updates are allowed. -/
theorem apply_firstField {b b' : Block} {r : Representation} (h : b.apply limit r = some b') :
    b'.firstField = if b'.headers.length > b.headers.length then false else b.firstField := by
  cases r with
  | indexed i =>
    obtain ⟨header, -, rfl⟩ := Option.map_eq_some_iff.1 h
    simp [Block.push]
  | literal mode name value =>
    obtain ⟨n, -, rfl⟩ := Option.map_eq_some_iff.1 h
    simp [Block.push]
  | sizeUpdate size =>
    simp only [Block.apply] at h
    split at h
    · cases h
      simp
    · cases h

theorem decodeLoop_eq (fuel : Nat) : ∀ st : DecodeState, st.decodeBuffer.Fits →
    decodeLoop limit fuel st = .ok (readBlock limit fuel st.decodeBuffer.rest st.block) := by
  induction fuel with
  | zero =>
    intro st _
    rfl
  | succ fuel ih =>
    intro st hs
    rw [decodeLoop, readBlock]
    by_cases hne : st.decodeBuffer.rest = []
    · rw [if_pos (ByteSpan.empty_iff.2 hne), if_pos hne]
      rfl
    · rw [ByteSpan.empty_eq_false_iff.2 hne, if_neg hne]
      simp only [Bool.false_eq_true, if_false]
      have hstep : StepAgrees st (decodeHeader limit st) _ := decodeHeader_agrees hs hne
      cases hread : readRepresentation st.decodeBuffer.rest with
      | none =>
        rw [hread] at hstep
        simp only [Option.bind_none, StepAgrees] at hstep
        simp only [hstep, ok_bind]
        rfl
      | some p =>
        obtain ⟨r, rest⟩ := p
        rw [hread] at hstep
        simp only [Option.bind_some] at hstep ⊢
        cases happly : st.block.apply limit r with
        | none =>
          rw [happly] at hstep
          simp only [Option.map_none, StepAgrees] at hstep
          simp only [hstep, ok_bind]
          rfl
        | some b =>
          rw [happly] at hstep
          obtain ⟨v, hv, hf, rfl⟩ := hstep
          -- the flag for the start of the block is cleared when the list of headers grows
          have hfirst := apply_firstField happly
          simp only [hv, ok_bind]
          rw [ih _ hf]
          exact congrArg (fun f => Except.ok (readBlock limit fuel v.rest ⟨b.table, f, b.headers⟩))
            hfirst.symm

end Steps

/-- The decoder returns on every block below 2^32 bytes, with the effect of `decodeBlock`. -/
theorem decode_eq (h : Hpack) {data : Bytes} (hlen : data.length < 2 ^ 32) :
    h.decode data =
      .ok ({ h with decodeTable := (decodeBlock h.decodeTableLimit h.decodeTable data).1 },
        (decodeBlock h.decodeTableLimit h.decodeTable data).2) := by
  unfold decode decodeBlock
  by_cases hd : data = []
  · rw [if_pos hd, hd]
    rfl
  · rw [if_neg hd, decodeLoop_eq _ _ (ByteSpan.fits_ofBytes hlen)]
    rfl

end Chttp2.Hpack
