import Chttp2.Hpack.Grammar

/-!
# What the encoder writes is what the grammar reads

Each `encode...` function appends bytes to a buffer. `readVInt_encodeVInt` and
`readString_encodeString` read prefix integers and strings back, and `Writes` says that a function
appended one representation: `writes_indexedHeader`, `writes_literal` and `writes_sizeUpdate`.
-/

set_option autoImplicit false

namespace Chttp2.Hpack

/-! ## Prefix integers -/

theorem orAt_append (buffer : Bytes) (b : UInt8) (bs : Bytes) (flag : UInt8) :
    orAt (buffer ++ b :: bs) buffer.length flag = buffer ++ (b ||| flag) :: bs := by
  induction buffer with
  | nil => rfl
  | cons a buffer ih => simpa [orAt] using ih

theorem encodeVIntLoop_append (fuel : Nat) : ∀ (buffer : Bytes) (value : Nat),
    encodeVIntLoop fuel buffer value = buffer ++ encodeVIntLoop fuel [] value := by
  induction fuel with
  | zero =>
    intro buffer value
    rfl
  | succ fuel ih =>
    intro buffer value
    rw [encodeVIntLoop, encodeVIntLoop]
    split
    · rw [ih (buffer ++ _), ih ([] ++ _)]
      simp
    · rfl

theorem encodeVInt_append (buffer : Bytes) (width value : Nat) :
    encodeVInt buffer width value = buffer ++ encodeVInt [] width value := by
  rw [encodeVInt, encodeVInt]
  split
  · rfl
  · rw [encodeVIntLoop_append _ (buffer ++ _), encodeVIntLoop_append _ ([] ++ _)]
    simp

theorem length_encodeVIntLoop_le (fuel : Nat) : ∀ (buffer : Bytes) (value : Nat),
    (encodeVIntLoop fuel buffer value).length ≤ buffer.length + fuel + 1 := by
  induction fuel with
  | zero =>
    intro buffer value
    simp [encodeVIntLoop]
  | succ fuel ih =>
    intro buffer value
    rw [encodeVIntLoop]
    split
    · have := ih (buffer ++ [(0x80 ||| (value &&& 0x7f)).toUInt8]) (value >>> 7)
      rw [List.length_append, List.length_singleton] at this
      omega
    · rw [List.length_append, List.length_singleton]
      omega

theorem length_encodeTableSizeUpdate_le (buffer : Bytes) (size : Nat) :
    (encodeTableSizeUpdate buffer size).length ≤ buffer.length + 12 := by
  rw [encodeTableSizeUpdate, orAt, List.length_modify, encodeVInt]
  split
  · simp
  · have := length_encodeVIntLoop_le 10 (buffer ++ [(1 <<< 5 - 1).toUInt8]) (size - (1 <<< 5 - 1))
    rw [List.length_append, List.length_singleton] at this
    exact this

/-- The continuation bytes are read back: `n` of them suffice for a value below `2 ^ (7 * n)`. -/
theorem readVIntRest_encodeVIntLoop (n : Nat) : ∀ (fuel value acc shift : Nat) (suffix : Bytes),
    n ≤ fuel → shift + 7 * (n + 1) = 63 → value < 2 ^ (7 * (n + 1)) →
    readVIntRest (n + 1) (encodeVIntLoop fuel [] value ++ suffix) acc shift =
      some (acc + value * 2 ^ shift, suffix) := by
  -- a last byte without the continuation bit
  have last : ∀ (n value acc shift : Nat) (suffix : Bytes), value < 128 →
      readVIntRest (n + 1) ([value.toUInt8] ++ suffix) acc shift =
        some (acc + value * 2 ^ shift, suffix) := by
    intro n value acc shift suffix h
    have hnat : value.toUInt8.toNat = value := by
      rw [Nat.toUInt8_eq, UInt8.toNat_ofNat']
      omega
    rw [List.singleton_append, readVIntRest, hnat, if_pos h, Nat.mod_eq_of_lt h]
  induction n with
  | zero =>
    intro fuel value acc shift suffix _ _ hvalue
    have h128 : value < 128 := by simpa using hvalue
    cases fuel with
    | zero => exact last 0 value acc shift suffix h128
    | succ fuel =>
      rw [encodeVIntLoop, if_neg (by omega)]
      exact last 0 value acc shift suffix h128
  | succ n ih =>
    intro fuel value acc shift suffix hfuel hshift hvalue
    obtain ⟨fuel, rfl⟩ : ∃ m, fuel = m + 1 := ⟨fuel - 1, by omega⟩
    rw [encodeVIntLoop]
    by_cases h : value ≥ 128
    · have hlow : value &&& 0x7f = value % 128 := Nat.and_two_pow_sub_one_eq_mod value 7
      have hor : 0x80 ||| value % 128 = 128 + value % 128 := by
        have := Nat.two_pow_add_eq_or_of_lt (i := 7) (b := value % 128) (Nat.mod_lt _ (by omega)) 1
        simpa using this.symm
      have hbyte : (0x80 ||| (value &&& 0x7f)).toUInt8.toNat = 128 + value % 128 := by
        rw [hlow, hor, Nat.toUInt8_eq, UInt8.toNat_ofNat']
        omega
      have hdiv : value >>> 7 = value / 128 := Nat.shiftRight_eq_div_pow value 7
      rw [if_pos h, encodeVIntLoop_append, List.append_assoc, List.nil_append,
        List.singleton_append, readVIntRest, hbyte,
        if_neg (by omega), if_neg (by omega), hdiv,
        ih fuel (value / 128) _ (shift + 7) suffix (by omega) (by omega) ?_]
      · congr 2
        have hmod : (128 + value % 128) % 128 = value % 128 := by omega
        have hsplit := Nat.div_add_mod value 128
        calc acc + (128 + value % 128) % 128 * 2 ^ shift + value / 128 * 2 ^ (shift + 7)
            = acc + (128 * (value / 128) + value % 128) * 2 ^ shift := by
              rw [hmod, Nat.pow_add]
              ring
          _ = acc + value * 2 ^ shift := by rw [hsplit]
      · have hpow : 2 ^ (7 * (n + 1 + 1)) = 2 ^ (7 * (n + 1)) * 128 := by
          rw [show 7 * (n + 1 + 1) = 7 * (n + 1) + 7 by omega, Nat.pow_add]
        rw [Nat.div_lt_iff_lt_mul (by omega), ← hpow]
        exact hvalue
    · rw [if_neg h]
      exact last (n + 1) value acc shift suffix (by omega)

/-- A prefix integer is read back from its bytes under any flag bits above the prefix. -/
theorem readVInt_encodeVInt (width value : Nat) (flag : UInt8) (h1 : 1 ≤ width) (h8 : width ≤ 8)
    (hvalue : value < 2 ^ 63 + 2 ^ width - 1) (hflag : flag.toNat % 2 ^ width = 0) :
    ∃ b bs, encodeVInt [] width value = b :: bs ∧
      flag.toNat ≤ (b ||| flag).toNat ∧ (b ||| flag).toNat < flag.toNat + 2 ^ width ∧
      ∀ suffix, readVInt width ((b ||| flag) :: bs ++ suffix) = some (value, suffix) := by
  have hpow : 2 ^ width ≤ 2 ^ 8 := Nat.pow_le_pow_right (by omega) h8
  have hpos : 2 ^ 1 ≤ 2 ^ width := Nat.pow_le_pow_right (by omega) h1
  -- the prefix and the flag share no bits, so `|||` adds them
  have hor : ∀ n : Nat, n < 2 ^ width → (n.toUInt8 ||| flag).toNat = flag.toNat + n := by
    intro n hn
    have hnat : n.toUInt8.toNat = n := by
      rw [Nat.toUInt8_eq, UInt8.toNat_ofNat']
      omega
    have hmul : flag.toNat = 2 ^ width * (flag.toNat / 2 ^ width) := by
      have := Nat.div_add_mod flag.toNat (2 ^ width)
      omega
    rw [UInt8.toNat_or, hnat, Nat.or_comm, hmul]
    exact (Nat.two_pow_add_eq_or_of_lt hn _).symm
  have hmod : ∀ n : Nat, n < 2 ^ width → (flag.toNat + n) % 2 ^ width = n := by
    intro n hn
    rw [Nat.add_mod, hflag, Nat.zero_add, Nat.mod_mod, Nat.mod_eq_of_lt hn]
  unfold encodeVInt
  simp only [Nat.one_shiftLeft]
  -- a small value fits into the prefix
  by_cases hsmall : value < 2 ^ width - 1
  · have hlt : value < 2 ^ width := by omega
    refine ⟨value.toUInt8, [], by rw [if_pos hsmall]; rfl, ?_, ?_, fun suffix => ?_⟩
    · rw [hor value hlt]
      omega
    · rw [hor value hlt]
      omega
    · rw [List.singleton_append, readVInt, hor value hlt, hmod value hlt, if_pos hsmall]
  · have hlt : 2 ^ width - 1 < 2 ^ width := by omega
    refine ⟨(2 ^ width - 1).toUInt8, encodeVIntLoop 10 [] (value - (2 ^ width - 1)), ?_, ?_, ?_,
      fun suffix => ?_⟩
    · rw [if_neg hsmall, encodeVIntLoop_append]
      rfl
    · rw [hor _ hlt]
      omega
    · rw [hor _ hlt]
      omega
    · rw [List.cons_append, readVInt, hor _ hlt, hmod _ hlt, if_neg (by omega),
        readVIntRest_encodeVIntLoop 8 10 _ _ 0 suffix (by omega) rfl (by omega)]
      congr 2
      omega

/-! ## Strings -/

theorem encodeString_append (buffer str : Bytes) :
    encodeString buffer str = buffer ++ encodeString [] str := by
  unfold encodeString
  dsimp only
  split
  · rw [encodeVInt_append]
    obtain ⟨b, bs, hb⟩ : ∃ b bs, encodeVInt [] 7 (Huffman.encodedLength str) = b :: bs := by
      rw [encodeVInt]
      split
      · exact ⟨_, _, rfl⟩
      · rw [encodeVIntLoop_append]
        exact ⟨_, _, rfl⟩
    rw [hb, List.append_assoc, List.cons_append, orAt_append]
    exact congrArg _ (orAt_append [] b _ _).symm
  · rw [encodeVInt_append, List.append_assoc]

theorem huffmanDecoded_encode (str : Bytes) : huffmanDecoded (Huffman.encode str) = some str := by
  rw [huffmanDecoded, Huffman.decode_encode]

/-- A string is read back from its bytes, whichever form the encoder chose. -/
theorem readString_encodeString {str : Bytes} (hlen : (encodeString [] str).length < 2 ^ 63)
    (suffix : Bytes) : readString (encodeString [] str ++ suffix) = some (str, suffix) := by
  unfold encodeString at hlen ⊢
  dsimp only at hlen ⊢
  by_cases hshort : Huffman.encodedLength str < str.length
  · simp only [if_pos hshort] at hlen ⊢
    have hel := Huffman.length_encode str
    have hbound : Huffman.encodedLength str < 2 ^ 63 + 2 ^ 7 - 1 := by
      rw [orAt, List.length_modify, List.length_append, hel] at hlen
      omega
    obtain ⟨b, bs, hb, hge, -, hread⟩ :=
      readVInt_encodeVInt _ _ 0x80 (by omega) (by omega) hbound (by decide)
    have hor : orAt (encodeVInt [] 7 (Huffman.encodedLength str) ++ Huffman.encode str)
        ([] : Bytes).length 0x80 = (b ||| 0x80) :: bs ++ Huffman.encode str := by
      rw [hb]
      exact orAt_append [] b _ _
    rw [hor, readString, List.append_assoc, hread]
    dsimp only
    rw [if_neg (by rw [List.length_append, hel]; omega), List.cons_append, List.headD_cons,
      if_pos (by simpa using hge), ← hel, List.take_left, List.drop_left, huffmanDecoded_encode]
    rfl
  · simp only [if_neg hshort] at hlen ⊢
    have hbound : str.length < 2 ^ 63 + 2 ^ 7 - 1 := by
      rw [List.length_append] at hlen
      omega
    obtain ⟨b, bs, hb, -, hlt, hread⟩ :=
      readVInt_encodeVInt _ _ 0 (by omega) (by omega) hbound (by decide)
    have hzero : b ||| 0 = b := UInt8.or_zero
    rw [hzero] at hlt hread
    have h128 : b.toNat < 128 := by simpa using hlt
    rw [hb, readString, List.append_assoc, hread]
    dsimp only
    rw [if_neg (by rw [List.length_append]; omega), List.cons_append, List.headD_cons,
      if_neg (by omega), List.take_left, List.drop_left]
    rfl

/-! ## Representations -/

theorem readRepresentation_cons (b : UInt8) (bs : Bytes) : readRepresentation (b :: bs) =
    if b.toNat ≥ 128 then (readVInt 7 (b :: bs)).map fun p => (.indexed p.1, p.2)
    else if b.toNat ≥ 64 then readLiteral .incremental 6 (b :: bs)
    else if b.toNat ≥ 32 then (readVInt 5 (b :: bs)).map fun p => (.sizeUpdate p.1, p.2)
    else if b.toNat ≥ 16 then readLiteral .never 4 (b :: bs)
    else readLiteral .without 4 (b :: bs) :=
  rfl

/-- `out` is `buffer` with the bytes of one representation, as long as it stays short enough for
the lengths of its strings. -/
def Writes (out buffer : Bytes) (r : Representation) : Prop :=
  ∃ bs, out = buffer ++ bs ∧ bs ≠ [] ∧
    (bs.length < 2 ^ 63 → ∀ suffix, readRepresentation (bs ++ suffix) = some (r, suffix))

section Writing

variable (buffer : Bytes)

/-- A prefix integer under a flag, at the end of a buffer. -/
theorem orAt_encodeVInt {width value : Nat} {flag : UInt8} {b : UInt8} {bs : Bytes}
    (hb : encodeVInt [] width value = b :: bs) :
    orAt (encodeVInt buffer width value) buffer.length flag = buffer ++ (b ||| flag) :: bs := by
  rw [encodeVInt_append, hb, orAt_append]

theorem writes_indexedHeader {index : Nat} (h : index < 2 ^ 63) :
    Writes (encodeIndexedHeader buffer index) buffer (.indexed index) := by
  obtain ⟨b, bs, hb, hge, -, hread⟩ :=
    readVInt_encodeVInt 7 index 0x80 (by omega) (by omega)
      (by omega) (by decide)
  refine ⟨(b ||| 0x80) :: bs, orAt_encodeVInt buffer hb, by simp, fun _ suffix => ?_⟩
  have h128 : (b ||| 0x80).toNat ≥ 128 := by simpa using hge
  rw [List.cons_append, readRepresentation_cons, if_pos h128, ← List.cons_append, hread]
  rfl

theorem writes_sizeUpdate (size : Nat) (h : size < 2 ^ 63 + 31) :
    Writes (encodeTableSizeUpdate buffer size) buffer (.sizeUpdate size) := by
  obtain ⟨b, bs, hb, hge, hlt, hread⟩ :=
    readVInt_encodeVInt 5 size 0x20 (by omega) (by omega)
      (by omega) (by decide)
  refine ⟨(b ||| 0x20) :: bs, orAt_encodeVInt buffer hb, by simp, fun _ suffix => ?_⟩
  have h32 : (b ||| 0x20).toNat ≥ 32 := by simpa using hge
  have h64 : (b ||| 0x20).toNat < 64 := by simpa using hlt
  rw [List.cons_append, readRepresentation_cons, if_neg (by omega), if_neg (by omega), if_pos h32,
    ← List.cons_append, hread]
  rfl

/-- The literal fields: the name by index or as a string, then the value. -/
def encodeLiteral (width : Nat) (flag : UInt8) (index : Nat) (header : HeaderField) : Bytes :=
  encodeString
    (if index > 0 then orAt (encodeVInt buffer width index) buffer.length flag
      else encodeString (buffer ++ [flag]) header.name) header.value

/-- The name that a literal field with the name index `index` carries. -/
def nameRef (index : Nat) (name : Bytes) : NameRef :=
  if index = 0 then .literal name else .index index

/-- The first bytes of the literals of one mode. -/
def LiteralFlag (mode : Indexing) (width : Nat) (flag : UInt8) : Prop :=
  1 ≤ width ∧ width ≤ 7 ∧ flag.toNat % 2 ^ width = 0 ∧
    ∀ (b : UInt8) (bs : Bytes), flag.toNat ≤ b.toNat → b.toNat < flag.toNat + 2 ^ width →
      readRepresentation (b :: bs) = readLiteral mode width (b :: bs)

theorem literalFlag_incremental : LiteralFlag .incremental 6 0x40 := by
  refine ⟨by omega, by omega, by decide, fun b bs h1 h2 => ?_⟩
  have h1' : 64 ≤ b.toNat := by simpa using h1
  have h2' : b.toNat < 128 := by simpa using h2
  rw [readRepresentation_cons, if_neg (by omega), if_pos (by omega)]

theorem literalFlag_without : LiteralFlag .without 4 0 := by
  refine ⟨by omega, by omega, by decide, fun b bs h1 h2 => ?_⟩
  have h2' : b.toNat < 16 := by simpa using h2
  rw [readRepresentation_cons, if_neg (by omega), if_neg (by omega), if_neg (by omega), if_neg (by omega)]

theorem literalFlag_never : LiteralFlag .never 4 0x10 := by
  refine ⟨by omega, by omega, by decide, fun b bs h1 h2 => ?_⟩
  have h1' : 16 ≤ b.toNat := by simpa using h1
  have h2' : b.toNat < 32 := by simpa using h2
  rw [readRepresentation_cons, if_neg (by omega), if_neg (by omega), if_neg (by omega), if_pos (by omega)]

theorem writes_literal {mode : Indexing} {width : Nat} {flag : UInt8}
    (hf : LiteralFlag mode width flag) {index : Nat} (hindex : index < 2 ^ 63)
    (header : HeaderField) :
    Writes (encodeLiteral buffer width flag index header) buffer
      (.literal mode (nameRef index header.name) header.value) := by
  obtain ⟨h1, h7, hmod, hdispatch⟩ := hf
  have hpow : 2 ^ 1 ≤ 2 ^ width := Nat.pow_le_pow_right (by omega) h1
  unfold encodeLiteral nameRef
  by_cases hi : index > 0
  · obtain ⟨b, bs, hb, hge, hlt, hread⟩ :=
      readVInt_encodeVInt _ index _ h1 (by omega) (by omega) hmod
    refine ⟨(b ||| flag) :: bs ++ encodeString [] header.value, ?_, by simp, ?_⟩
    · rw [if_pos hi, orAt_encodeVInt buffer hb, encodeString_append, List.append_assoc]
    · intro hlen suffix
      have hv : (encodeString [] header.value).length < 2 ^ 63 := by
        rw [List.length_append] at hlen
        omega
      rw [List.append_assoc, List.cons_append, hdispatch _ _ hge hlt, ← List.cons_append,
        readLiteral, hread]
      simp only [Option.bind_some, readName, if_neg (show ¬ index = 0 by omega),
        readString_encodeString hv, Option.map_some]
  · have h0 : index = 0 := by omega
    refine ⟨[flag] ++ (encodeString [] header.name ++ encodeString [] header.value), ?_, by simp, ?_⟩
    · rw [if_neg hi, encodeString_append, encodeString_append (buffer ++ [flag])]
      simp
    · intro hlen suffix
      simp only [List.length_append] at hlen
      have hn : (encodeString [] header.name).length < 2 ^ 63 := by omega
      have hv : (encodeString [] header.value).length < 2 ^ 63 := by omega
      have hread : ∀ rest, readVInt width (flag :: rest) = some (0, rest) := by
        intro rest
        rw [readVInt, hmod, if_pos (by omega)]
      rw [List.append_assoc, List.append_assoc, List.singleton_append,
        hdispatch _ _ (Nat.le_refl _) (by omega), readLiteral, hread]
      simp only [Option.bind_some, readName, if_true, if_pos h0, readString_encodeString hn,
        readString_encodeString hv, Option.map_some]

theorem writes_indexLiteral {index : Nat} (hindex : index < 2 ^ 63) (header : HeaderField) :
    Writes (encodeIndexLiteralHeader buffer index header) buffer
      (.literal .incremental (nameRef index header.name) header.value) :=
  writes_literal buffer literalFlag_incremental hindex header

theorem writes_unIndexLiteral {index : Nat} (hindex : index < 2 ^ 63) (header : HeaderField) :
    Writes (encodeUnIndexLiteralHeader buffer index header) buffer
      (.literal .without (nameRef index header.name) header.value) := by
  have hzero : ∀ l : Bytes, orAt l buffer.length 0 = l := by
    intro l
    have : (fun x : UInt8 => x ||| 0) = id := funext fun x => UInt8.or_zero
    rw [orAt, this, List.modify_id]
  have h := writes_literal buffer literalFlag_without hindex header
  rw [encodeLiteral, hzero] at h
  exact h

theorem writes_neverIndexLiteral {index : Nat} (hindex : index < 2 ^ 63) (header : HeaderField) :
    Writes (encodeNeverIndexLiteralHeader buffer index header) buffer
      (.literal .never (nameRef index header.name) header.value) :=
  writes_literal buffer literalFlag_never hindex header

end Writing

end Chttp2.Hpack
