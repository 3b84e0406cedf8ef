import Chttp2.Hpack.HuffmanCode

/-!
# Huffman coding and decoding are inverse

The bits of `encode str` are the code words of `str` followed by at most seven ones
(`bytesBits_encode`). `decode` never meets a null node, and it returns `str` exactly on the byte
strings whose bits are of this form (`decode_spec`). So it undoes `encode` (`decode_encode`), and
`encode` undoes it (`huffman_bijection`).
-/

set_option autoImplicit false

namespace Chttp2.Huffman

open BitString

/-! ## Encoding -/

section Encoding

/-- The bits written so far: those of the output and the `nbits` bits of the buffer. -/
def EncodeState.bitsOf (st : EncodeState) : List Bool := bytesBits st.out ++ bitsBE st.nbits st.buf

/-- The four bytes of a word have the bits of the word. -/
theorem bytesBits_word (w : Nat) :
    bytesBits [(w >>> 24).toUInt8, (w >>> 16).toUInt8, (w >>> 8).toUInt8, w.toUInt8] =
      bitsBE 32 w := by
  have h1 := bitsBE_add 8 24 w
  have h2 := bitsBE_add 8 16 w
  have h3 := bitsBE_add 8 8 w
  simp only [bytesBits_cons, bytesBits_nil, List.append_nil, bitsBE_toUInt8]
  rw [h1, h2, h3]

theorem encodeChar_spec (st : EncodeState) (h : st.nbits < 32) (c : UInt8) :
    (encodeChar st c).nbits < 32 ∧ (encodeChar st c).bitsOf = st.bitsOf ++ codeBits c := by
  have hb := table_bounds c
  have hbits : bitsBE (st.nbits + lengthOf c) ((st.buf <<< lengthOf c ||| codeOf c) % 2 ^ 64) =
      bitsBE st.nbits st.buf ++ codeBits c := by
    rw [bitsBE_mod (by omega), bitsBE_shiftLeft_or _ _ (codeOf_lt c), codeBits]
  unfold encodeChar
  dsimp only
  split
  · refine ⟨by dsimp only; omega, ?_⟩
    simp only [EncodeState.bitsOf, bytesBits_append, bytesBits_word, bitsBE_mod (le_refl 32),
      List.append_assoc]
    rw [← hbits, ← bitsBE_add]
    congr 2
    omega
  · refine ⟨by dsimp only; omega, ?_⟩
    simp only [EncodeState.bitsOf, hbits, List.append_assoc]

theorem foldl_encodeChar_spec (str : Bytes) : ∀ st : EncodeState, st.nbits < 32 →
    (str.foldl encodeChar st).nbits < 32 ∧
      (str.foldl encodeChar st).bitsOf = st.bitsOf ++ huffmanCode.encode str := by
  induction str with
  | nil =>
    intro st h
    exact ⟨h, by simp⟩
  | cons c str ih =>
    intro st h
    obtain ⟨h1, h2⟩ := encodeChar_spec st h c
    obtain ⟨h3, h4⟩ := ih _ h1
    refine ⟨h3, ?_⟩
    rw [List.foldl_cons, h4, h2, PrefixCode.encode_cons, List.append_assoc]
    rfl

theorem flushBytes_spec (buf n : Nat) : ∀ (fuel : Nat) (out : Bytes), n ≤ fuel →
    bytesBits (flushBytes buf fuel (8 * n) out) = bytesBits out ++ bitsBE (8 * n) buf := by
  induction n with
  | zero =>
    intro fuel out _
    cases fuel with
    | zero => simp [flushBytes]
    | succ fuel => simp [flushBytes]
  | succ n ih =>
    intro fuel out h
    obtain ⟨fuel, rfl⟩ : ∃ m, fuel = m + 1 := ⟨fuel - 1, by omega⟩
    have hsub : 8 * (n + 1) - 8 = 8 * n := by omega
    have hadd : 8 * (n + 1) = 8 + 8 * n := by omega
    rw [flushBytes, if_pos (by omega), hsub, ih fuel _ (by omega), hadd, bitsBE_add,
      bytesBits_append, bytesBits_singleton, bitsBE_toUInt8, List.append_assoc]

/-- The bits of an encoded string: its code words and at most seven ones. -/
theorem bytesBits_encode (str : Bytes) : ∃ k, k ≤ 7 ∧
    bytesBits (encode str) = huffmanCode.encode str ++ List.replicate k true := by
  obtain ⟨h1, h2⟩ := foldl_encodeChar_spec str {} (by decide)
  generalize hst : str.foldl encodeChar {} = st at h1 h2
  have hbits : bytesBits st.out ++ bitsBE st.nbits st.buf = huffmanCode.encode str := h2
  simp only [encode, hst]
  split
  · rename_i hrem
    generalize hpad : 8 - st.nbits % 8 = pad
    have hn : st.nbits + pad = 8 * ((st.nbits + pad) / 8) := by omega
    refine ⟨pad, by omega, ?_⟩
    rw [hn, flushBytes_spec _ _ _ _ (by omega), ← hn, bitsBE_mod (by omega), Nat.one_shiftLeft,
      bitsBE_shiftLeft_or _ _ (Nat.sub_lt (by positivity) (by omega)), bitsBE_ones,
      ← List.append_assoc, hbits]
  · have hn : st.nbits = 8 * (st.nbits / 8) := by omega
    refine ⟨0, by omega, ?_⟩
    rw [hn, flushBytes_spec _ _ _ _ (by omega), ← hn, hbits]
    simp

theorem length_huffmanCode_encode (str : Bytes) :
    (huffmanCode.encode str).length = (str.map lengthOf).sum := by
  induction str with
  | nil => rfl
  | cons c str ih =>
    rw [PrefixCode.encode_cons, List.length_append, ih, List.map_cons, List.sum_cons]
    congr 1
    exact length_codeBits c

theorem length_encode (str : Bytes) : (encode str).length = encodedLength str := by
  obtain ⟨k, hk, h⟩ := bytesBits_encode str
  have hlen := congrArg List.length h
  rw [List.length_append, length_bytesBits, length_huffmanCode_encode, List.length_replicate]
    at hlen
  unfold encodedLength
  omega

end Encoding

/-! ## Decoding -/

section Decoding

variable {t : Tree}

/-- The words that stand for `syms`: the code words followed by at most seven ones. -/
def Accepts (w : List Bool) (syms : Bytes) : Prop :=
  ∃ k, k ≤ 7 ∧ w = huffmanCode.encode syms ++ List.replicate k true

theorem accepts_encode_append {xs syms : Bytes} {w : List Bool} :
    Accepts (huffmanCode.encode xs ++ w) syms ↔ ∃ ys, syms = xs ++ ys ∧ Accepts w ys := by
  constructor
  · rintro ⟨k, hk, h⟩
    obtain ⟨ys, rfl, hw⟩ :=
      (PrefixCode.encode_append_eq_encode_append_iff (stuck_replicate k)).1 h
    exact ⟨ys, rfl, k, hk, hw⟩
  · rintro ⟨ys, rfl, k, hk, hw⟩
    exact ⟨k, hk,
      (PrefixCode.encode_append_eq_encode_append_iff (stuck_replicate k)).2 ⟨ys, rfl, hw⟩⟩

theorem accepts_of_stuck {w : List Bool} {syms : Bytes} (hw : huffmanCode.Stuck w) :
    Accepts w syms ↔ syms = [] ∧ w.length ≤ 7 ∧ w = List.replicate w.length true := by
  constructor
  · rintro ⟨k, hk, h⟩
    obtain ⟨rfl, rfl⟩ := (PrefixCode.eq_encode_append_iff_of_stuck hw).1 h
    exact ⟨rfl, by simpa using hk, by simp⟩
  · rintro ⟨rfl, hk, h⟩
    exact ⟨w.length, hk, h⟩

/-- The bits read since the last symbol: those on the way to the current node and the unconsumed
bits of the buffer. -/
def DecodeState.unread (st : DecodeState) : List Bool :=
  bytesBits st.node ++ bitsBE st.avail st.buf

/-- The states of the decoder: the current node is an inner node, and `pending` counts the bits
read since the last symbol. -/
structure DecodeState.Valid (st : DecodeState) : Prop where
  node : Open st.node
  pending : st.pending = 8 * st.node.length + st.avail

/-- The state `st'` comes from `st` by decoding the symbols `out`, with the further input bits `w`. -/
structure Decodes (st : DecodeState) (w : List Bool) (out : Bytes) (st' : DecodeState) : Prop where
  valid : st'.Valid
  result : st'.result = st.result ++ out
  unread : st.unread ++ w = huffmanCode.encode out ++ st'.unread

theorem Decodes.refl {st : DecodeState} (h : st.Valid) : Decodes st [] [] st :=
  ⟨h, by simp, by simp⟩

theorem Decodes.trans {st st' st'' : DecodeState} {v w : List Bool} {xs ys : Bytes}
    (h1 : Decodes st v xs st') (h2 : Decodes st' w ys st'') :
    Decodes st (v ++ w) (xs ++ ys) st'' := by
  refine ⟨h2.valid, ?_, ?_⟩
  · rw [h2.result, h1.result, List.append_assoc]
  · rw [← List.append_assoc, h1.unread, List.append_assoc, h2.unread, PrefixCode.encode_append,
      List.append_assoc]

theorem Decodes.accepts_iff {st st' : DecodeState} {v : List Bool} {xs : Bytes}
    (h : Decodes st v xs st') (w : List Bool) (syms : Bytes) :
    Accepts (st.unread ++ (v ++ w)) syms ↔ ∃ ys, syms = xs ++ ys ∧ Accepts (st'.unread ++ w) ys := by
  rw [← List.append_assoc, h.unread, List.append_assoc, accepts_encode_append]

/-- Consuming the bits `c` that complete the code of `s`. -/
theorem decodes_leaf {st : DecodeState} {s : UInt8} {c : List Bool}
    (hs : codeBits s = bytesBits st.node ++ c) (hc : c.length ≤ st.avail)
    (hp : c <+: bitsBE st.avail st.buf) :
    Decodes st [] [s] { st with
      result := st.result ++ [s], avail := st.avail - c.length, node := [],
      pending := st.avail - c.length } := by
  obtain ⟨d, hd⟩ := hp
  have hsplit : bitsBE st.avail st.buf =
      bitsBE c.length (st.buf >>> (st.avail - c.length)) ++ bitsBE (st.avail - c.length) st.buf := by
    rw [← bitsBE_add]
    congr 1
    omega
  have hcd := List.append_inj (hd.trans hsplit) (by simp)
  refine ⟨⟨Or.inl rfl, by simp⟩, rfl, ?_⟩
  simp only [DecodeState.unread, bytesBits_nil, List.nil_append, List.append_nil, ← hd, hcd.2,
    PrefixCode.encode_cons, PrefixCode.encode_nil]
  rw [← List.append_assoc, ← hs]
  rfl

/-- The inner loop: it decodes until fewer than eight bits are left, or stops at bits that no
continuation makes an encoding. -/
theorem decodeWhile_spec (ht : IsCodeTree t) (fuel : Nat) : ∀ st : DecodeState, st.Valid → st.avail ≤ fuel →
    (decodeWhile t fuel st = .ok none ∧ ∀ w syms, ¬ Accepts (st.unread ++ w) syms) ∨
      ∃ st' out, decodeWhile t fuel st = .ok (some st') ∧ Decodes st [] out st' ∧ st'.avail < 8 := by
  induction fuel with
  | zero =>
    intro st h hfuel
    exact Or.inr ⟨st, [], rfl, .refl h, by omega⟩
  | succ fuel ih =>
    intro st h hfuel
    by_cases hav : st.avail ≥ 8
    · have hbyte : bitsBE st.avail st.buf =
          bitsBE 8 (st.buf >>> (st.avail - 8)) ++ bitsBE (st.avail - 8) st.buf := by
        rw [← bitsBE_add]
        congr 1
        omega
      generalize hidx : (st.buf >>> (st.avail - 8)).toUInt8 = idx
      have hidxBits : bitsBE 8 (st.buf >>> (st.avail - 8)) = bitsBE 8 idx.toNat := by
        rw [← hidx, bitsBE_toUInt8]
      have hunread : st.unread = bytesBits (st.node ++ [idx]) ++ bitsBE (st.avail - 8) st.buf := by
        rw [DecodeState.unread, hbyte, hidxBits, bytesBits_append, bytesBits_singleton,
          List.append_assoc]
      rw [decodeWhile, if_pos hav]
      dsimp only
      rw [hidx]
      rcases child_cases ht h.node idx with ⟨hn, hstuck⟩ | ⟨s, c, hn, hc, hs, hp⟩ | ⟨hn, hopen⟩
      · -- no code goes on like this
        left
        simp only [hn, ok_bind]
        refine ⟨rfl, fun w syms hacc => ?_⟩
        rw [hunread, List.append_assoc] at hacc
        have := ((accepts_of_stuck (hstuck _)).1 hacc).2.1
        simp at this
        omega
      · -- a code ends within the byte
        have hlen : c.length ≤ 8 := by simpa using hp.length_le
        have hpos := List.length_pos_iff.2 hc
        have hd := decodes_leaf hs (by omega)
          (by rw [hbyte, hidxBits]; exact hp.trans (List.prefix_append _ _))
        simp only [hn, ok_bind, if_true]
        rcases ih _ hd.valid (by dsimp only; omega) with ⟨h1, h2⟩ | ⟨st', out, h1, h2, h3⟩
        · refine Or.inl ⟨h1, fun w syms hacc => ?_⟩
          obtain ⟨ys, -, hys⟩ := (hd.accepts_iff _ _).1 hacc
          exact h2 w ys hys
        · exact Or.inr ⟨st', [s] ++ out, h1, hd.trans h2, h3⟩
      · -- the byte leads to an inner node
        have hd : Decodes st [] [] { st with node := st.node ++ [idx], avail := st.avail - 8 } := by
          refine ⟨⟨hopen, ?_⟩, by simp, ?_⟩
          · have := h.pending
            simp
            omega
          · rw [hunread]
            simp [DecodeState.unread]
        simp only [hn, ok_bind, Bool.false_eq_true, if_false]
        rcases ih _ hd.valid (by dsimp only; omega) with ⟨h1, h2⟩ | ⟨st', out, h1, h2, h3⟩
        · refine Or.inl ⟨h1, fun w syms hacc => ?_⟩
          obtain ⟨ys, -, hys⟩ := (hd.accepts_iff _ _).1 hacc
          exact h2 w ys hys
        · exact Or.inr ⟨st', [] ++ out, h1, hd.trans h2, h3⟩
    · rw [decodeWhile, if_neg hav]
      exact Or.inr ⟨st, [], rfl, .refl h, by omega⟩

theorem decodeBytes_spec (ht : IsCodeTree t) (data : Bytes) : ∀ st : DecodeState, st.Valid → st.avail < 8 →
    (decodeBytes t data st = .ok none ∧ ∀ syms, ¬ Accepts (st.unread ++ bytesBits data) syms) ∨
      ∃ st' out, decodeBytes t data st = .ok (some st') ∧ Decodes st (bytesBits data) out st' ∧
        st'.avail < 8 := by
  induction data with
  | nil =>
    intro st h hav
    exact Or.inr ⟨st, [], rfl, .refl h, hav⟩
  | cons byte data ih =>
    intro st h hav
    have hfeed : Decodes st (bitsBE 8 byte.toNat) [] { st with
        buf := (st.buf <<< 8 ||| byte.toNat) % 2 ^ 32, avail := st.avail + 8,
        pending := st.pending + 8 } := by
      refine ⟨⟨h.node, ?_⟩, by simp, ?_⟩
      · have := h.pending
        simp
        omega
      · simp only [DecodeState.unread, PrefixCode.encode_nil, List.nil_append]
        rw [bitsBE_mod (by omega), bitsBE_shiftLeft_or _ _ byte.toNat_lt, List.append_assoc]
    rw [decodeBytes]
    dsimp only
    rcases decodeWhile_spec ht _ _ hfeed.valid (le_refl _) with ⟨h1, h2⟩ | ⟨st1, out1, h1, h2, h3⟩
    · left
      simp only [h1, ok_bind]
      refine ⟨rfl, fun syms hacc => ?_⟩
      rw [bytesBits_cons] at hacc
      obtain ⟨ys, -, hys⟩ := (hfeed.accepts_iff _ _).1 hacc
      exact h2 _ ys hys
    · simp only [h1, ok_bind]
      have hd := hfeed.trans h2
      rw [List.append_nil, List.nil_append] at hd
      rcases ih st1 h2.valid h3 with ⟨h4, h5⟩ | ⟨st2, out2, h4, h5, h6⟩
      · refine Or.inl ⟨h4, fun syms hacc => ?_⟩
        rw [bytesBits_cons] at hacc
        obtain ⟨ys, -, hys⟩ := (hd.accepts_iff _ _).1 hacc
        exact h5 ys hys
      · exact Or.inr ⟨st2, out1 ++ out2, h4, hd.trans h5, h6⟩

/-- The last loop decodes the codes that are complete. -/
theorem decodeTail_spec (ht : IsCodeTree t) (fuel : Nat) : ∀ st : DecodeState, st.Valid → st.avail < 8 →
    st.avail ≤ fuel →
    ∃ st' out, decodeTail t fuel st = .ok st' ∧ Decodes st [] out st' ∧ st'.avail < 8 ∧
      huffmanCode.Stuck st'.unread := by
  induction fuel with
  | zero =>
    intro st h hav hfuel
    have h0 : st.avail = 0 := by omega
    refine ⟨st, [], rfl, .refl h, hav, ?_⟩
    rw [DecodeState.unread, h0, bitsBE_zero, List.append_nil]
    exact h.node.stuck
  | succ fuel ih =>
    intro st h hav hfuel
    rw [decodeTail]
    by_cases hpos : st.avail > 0
    · rw [if_pos hpos]
      dsimp only
      generalize hidx : (st.buf <<< (8 - st.avail)).toUInt8 = idx
      have hidxBits : bitsBE 8 idx.toNat = bitsBE st.avail st.buf ++ bitsBE (8 - st.avail) 0 := by
        rw [← hidx, bitsBE_toUInt8, ← bitsBE_shiftLeft]
        congr 1
        omega
      -- a code that ends within the unread bits has its leaf at the child
      have hleaf : ∀ s, codeBits s <+: st.unread → ∃ c, c ≠ [] ∧
          codeBits s = bytesBits st.node ++ c ∧ c <+: bitsBE st.avail st.buf ∧
          child t st.node idx = .ok (st.node ++ [idx], some ⟨true, c.length, s⟩) := by
        intro s hs
        obtain ⟨c, hc, hcs, hp⟩ := h.node.stuck.exists_append hs
        refine ⟨c, hc, hcs, hp, child_leaf ht h.node hc hcs ?_⟩
        rw [hidxBits]
        exact hp.trans (List.prefix_append _ _)
      rcases child_cases ht h.node idx with ⟨hn, -⟩ | ⟨s, c, hn, hc, hs, hp⟩ | ⟨hn, -⟩
      · refine ⟨st, [], by simp only [hn, ok_bind]; rfl, .refl h, hav, fun s hs => ?_⟩
        obtain ⟨c, -, -, -, hbt⟩ := hleaf s hs
        rw [hn] at hbt
        cases hbt
      · by_cases hbits : c.length > st.avail
        · refine ⟨st, [], by simp [hn, ok_bind, hbits]; rfl, .refl h, hav, fun t ht => ?_⟩
          obtain ⟨d, -, -, hd, hbt⟩ := hleaf t ht
          rw [hn] at hbt
          have hle := hd.length_le
          simp at hbt hle
          omega
        · have hd := decodes_leaf hs (by omega) (by
            refine List.prefix_of_prefix_length_le hp (hidxBits ▸ List.prefix_append _ _) ?_
            simp
            omega)
          have hpos' := List.length_pos_iff.2 hc
          obtain ⟨st', out, h1, h2, h3, h4⟩ :=
            ih _ hd.valid (by dsimp only; omega) (by dsimp only; omega)
          refine ⟨st', [s] ++ out, ?_, hd.trans h2, h3, h4⟩
          simpa [hn, ok_bind, hbits] using h1
      · refine ⟨st, [], by simp [hn, ok_bind]; rfl, .refl h, hav, fun s hs => ?_⟩
        obtain ⟨c, -, -, -, hbt⟩ := hleaf s hs
        rw [hn] at hbt
        cases hbt
    · rw [if_neg hpos]
      have h0 : st.avail = 0 := by omega
      refine ⟨st, [], rfl, .refl h, hav, ?_⟩
      rw [DecodeState.unread, h0, bitsBE_zero, List.append_nil]
      exact h.node.stuck

/-- The check of the padding: at most seven bits, all ones. -/
theorem padding_ok_iff {st : DecodeState} (h : st.Valid) (hav : st.avail < 8) :
    (st.unread.length ≤ 7 ∧ st.unread = List.replicate st.unread.length true) ↔
      ¬ st.pending > 7 ∧ st.buf &&& (1 <<< st.avail - 1) = 1 <<< st.avail - 1 := by
  have hlen : st.unread.length = st.pending := by
    rw [h.pending, DecodeState.unread, List.length_append, length_bytesBits, length_bitsBE]
  rw [hlen, Nat.one_shiftLeft, ← bitsBE_eq_ones_iff]
  have hsmall : st.pending ≤ 7 → st.unread = bitsBE st.avail st.buf ∧ st.pending = st.avail := by
    intro hp
    have := h.pending
    have h0 : st.node.length = 0 := by omega
    rw [DecodeState.unread, List.length_eq_zero_iff.1 h0]
    exact ⟨by simp, by omega⟩
  constructor
  · rintro ⟨h1, h2⟩
    obtain ⟨h3, h4⟩ := hsmall h1
    rw [h3, h4] at h2
    exact ⟨by omega, h2⟩
  · rintro ⟨h1, h2⟩
    obtain ⟨h3, h4⟩ := hsmall (by omega)
    exact ⟨by omega, by rw [h3, h4, h2]⟩

/-- The decoder returns on every input, and it accepts exactly the code words of a string followed
by at most seven ones. -/
theorem decodeWith_spec (ht : IsCodeTree t) (data : Bytes) : ∃ r, decodeWith t data = .ok r ∧
    ∀ syms, r = some syms ↔ Accepts (bytesBits data) syms := by
  have hvalid : ({} : DecodeState).Valid := ⟨Or.inl rfl, rfl⟩
  rw [decodeWith]
  rcases decodeBytes_spec ht data {} hvalid (by decide) with ⟨h1, h2⟩ | ⟨st, out, h1, h2, h3⟩
  · refine ⟨none, by rw [h1]; rfl, fun syms => ?_⟩
    constructor
    · intro h
      cases h
    · intro h
      exact absurd h (h2 syms)
  · obtain ⟨st', out', h4, h5, h6, h7⟩ := decodeTail_spec ht st.avail st h2.valid h3 (le_refl _)
    have hd := h2.trans h5
    rw [List.append_nil] at hd
    -- what is left over must be padding: at most seven bits, all ones
    have hacc : ∀ syms, Accepts (bytesBits data) syms ↔ syms = out ++ out' ∧
        ¬ st'.pending > 7 ∧ st'.buf &&& (1 <<< st'.avail - 1) = 1 <<< st'.avail - 1 := by
      intro syms
      have := hd.accepts_iff [] syms
      simp only [List.append_nil] at this
      rw [← padding_ok_iff h5.valid h6]
      constructor
      · intro h
        obtain ⟨ys, rfl, hys⟩ := this.1 h
        obtain ⟨rfl, hpad⟩ := (accepts_of_stuck h7).1 hys
        exact ⟨by simp, hpad⟩
      · rintro ⟨rfl, hpad⟩
        exact this.2 ⟨[], by simp, (accepts_of_stuck h7).2 ⟨rfl, hpad⟩⟩
    have hresult : st'.result = out ++ out' := hd.result
    by_cases hpend : st'.pending > 7
    · refine ⟨none, by simp only [h1, ok_bind, h4, if_pos hpend]; rfl, fun syms => ?_⟩
      simp [hacc, hpend]
    · by_cases hmask : st'.buf &&& (1 <<< st'.avail - 1) = 1 <<< st'.avail - 1
      · refine ⟨some st'.result, ?_, fun syms => ?_⟩
        · simp only [h1, ok_bind, h4, if_neg hpend, hmask, ne_eq, not_true_eq_false, if_false]
          rfl
        · rw [hacc, hresult]
          simp only [Option.some.injEq, hpend, not_false_eq_true, hmask, and_self, and_true]
          exact eq_comm
      · refine ⟨none, ?_, fun syms => ?_⟩
        · simp only [h1, ok_bind, h4, if_neg hpend, ne_eq, hmask, not_false_eq_true, if_true]
          rfl
        · simp [hacc, hmask]

theorem decode_spec (data : Bytes) : ∃ r, decode data = .ok r ∧
    ∀ syms, r = some syms ↔ Accepts (bytesBits data) syms :=
  decodeWith_spec isCodeTree_buildTree data

theorem decode_encode (str : Bytes) : decode (encode str) = .ok (some str) := by
  obtain ⟨r, h1, h2⟩ := decode_spec (encode str)
  rw [h1, (h2 str).2 (bytesBits_encode str)]

end Decoding

/-! ## The accepted byte strings -/

section Accepted

/-- Whole bytes leave one length for the padding, so a string has one accepted encoding. -/
theorem accepts_bytesBits_iff {data str : Bytes} :
    Accepts (bytesBits data) str ↔ data = encode str := by
  obtain ⟨k, hk, hbits⟩ := bytesBits_encode str
  constructor
  · rintro ⟨j, hj, hdata⟩
    have hlen := congrArg List.length hbits
    have hlen' := congrArg List.length hdata
    simp only [List.length_append, length_bytesBits, List.length_replicate] at hlen hlen'
    have hjk : j = k := by omega
    subst hjk
    exact bytesBits_injective (hdata.trans hbits.symm)
  · rintro rfl
    exact ⟨k, hk, hbits⟩

theorem decode_eq_ok_iff {data str : Bytes} : decode data = .ok (some str) ↔ data = encode str := by
  obtain ⟨r, h1, h2⟩ := decode_spec data
  rw [← accepts_bytesBits_iff, ← h2 str, h1]
  simp

/-- Bytes that hold a string and go on with `tail`, at which no code starts, are accepted only if
`tail` is padding. -/
theorem decode_of_stuck {data str : Bytes} {tail : List Bool}
    (hdata : bytesBits data = huffmanCode.encode str ++ tail) (htail : huffmanCode.Stuck tail)
    (hpad : ¬ (tail.length ≤ 7 ∧ tail = List.replicate tail.length true)) :
    decode data = .ok none := by
  obtain ⟨r, h1, h2⟩ := decode_spec data
  cases r with
  | none => exact h1
  | some syms =>
    have hacc := (h2 syms).1 rfl
    rw [hdata, accepts_encode_append] at hacc
    obtain ⟨ys, -, hys⟩ := hacc
    exact absurd ((accepts_of_stuck htail).1 hys).2 hpad

/-- The 30 ones of the end-of-string symbol, with whatever follows. -/
theorem stuck_eos (w : List Bool) : huffmanCode.Stuck (List.replicate 30 true ++ w) := by
  intro s hs
  have hlen : (codeBits s).length ≤ (List.replicate 30 true).length := by
    rw [length_codeBits, List.length_replicate]
    exact (table_bounds s).2.1
  exact stuck_replicate 30 s (List.prefix_of_prefix_length_le hs (List.prefix_append _ w) hlen)

/-- Huffman coding is a bijection onto the accepted byte strings. What is accepted is the codes of a
string with at most seven ones after them. Where no code goes on, anything but such padding is
rejected, and the end-of-string symbol always is. -/
theorem huffman_bijection :
    (∀ str, (encode str).length = encodedLength str ∧ decode (encode str) = .ok (some str)) ∧
    (∀ data str, decode data = .ok (some str) → data = encode str) ∧
    (∀ data, ∃ r, decode data = .ok r ∧ ∀ str, r = some str ↔
      ∃ k ≤ 7, bytesBits data = str.flatMap codeBits ++ List.replicate k true) ∧
    (∀ (data str : Bytes) tail, bytesBits data = str.flatMap codeBits ++ tail →
      (∀ s, ¬ codeBits s <+: tail) → ¬ (tail.length ≤ 7 ∧ ∀ b ∈ tail, b = true) →
      decode data = .ok none) ∧
    ∀ (data str : Bytes) w, bytesBits data = str.flatMap codeBits ++ (List.replicate 30 true ++ w) →
      decode data = .ok none := by
  refine ⟨fun str => ⟨length_encode str, decode_encode str⟩, fun data str => decode_eq_ok_iff.1,
    decode_spec, fun data str tail hdata htail hpad => decode_of_stuck hdata htail ?_,
    fun data str w hdata => decode_of_stuck hdata (stuck_eos w) ?_⟩
  · rintro ⟨hlen, hones⟩
    exact hpad ⟨hlen, (List.eq_replicate_iff.1 hones).2⟩
  · rintro ⟨hlen, -⟩
    simp only [List.length_append, List.length_replicate] at hlen
    omega

end Accepted

end Chttp2.Huffman
