import Chttp2.Hpack.Writing
import Chttp2.Lib.Machine

/-!
# Two HPACK endpoints stay synchronised

`Exchange` is an encoder and a decoder on the two sides of a connection, with the operations that
change their table sizes and that transfer a header block. `Exchange.InStep` relates the two
dynamic tables between transfers: while size changes are pending at the encoder, its table is the
decoder's table evicted to the smallest of the pending sizes. Every operation keeps it
(`InStep.step`), and under it a transfer returns the fields that were encoded
(`transfer_lossless`).
-/

set_option autoImplicit false

namespace Chttp2.Hpack

open EvictingFifo

/-! ## One block -/

/-- The encoder's and the decoder's table hold the same entries under the same limit. -/
structure Sync (te td : HpackTable) : Prop where
  encOk : te.Ok
  decOk : td.Ok
  entries : te.entryTable = td.entryTable
  maxSize : te.maxSize = td.maxSize
  plain : ∀ e ∈ te.entryTable, e.sensitivity = false

theorem Sync.insert {te td : HpackTable} (h : Sync te td) {header : HeaderField}
    (hs : header.sensitivity = false) : Sync (te.insert header) (td.insert header) where
  encOk := HpackTable.ok_insert h.encOk header
  decOk := HpackTable.ok_insert h.decOk header
  entries := by
    rw [HpackTable.entryTable_insert h.encOk, HpackTable.entryTable_insert h.decOk, h.entries,
      h.maxSize]
  maxSize := by
    rw [HpackTable.maxSize_insert h.encOk, HpackTable.maxSize_insert h.decOk, h.maxSize]
  plain := by
    intro e he
    rw [HpackTable.entryTable_insert h.encOk] at he
    rcases List.mem_append.1 ((evictTo_suffix _ _).subset he) with he | he
    · exact h.plain e he
    · rw [List.mem_singleton.1 he]
      exact hs

section Block

variable {te td : HpackTable} (limit : Nat)

/-- The name index that the encoder found names the field at the decoder. -/
theorem nameOf_nameRef (h : Sync te td) {header : HeaderField} {i : Nat}
    (hi : i = 0 ∨ ∃ e, te.at? i = some e ∧ e.name = header.name) {b : Block} (hb : b.table = td) :
    b.nameOf (nameRef i header.name) = some header.name := by
  unfold nameRef
  rcases hi with rfl | ⟨e, he, hname⟩
  · rfl
  · have hpos := (HpackTable.at?_bounds he).1
    rw [if_neg (by omega), Block.nameOf, hb, ← HpackTable.at?_congr h.entries, he]
    simp [hname]

theorem index_lt (h : te.Ok) (hmax : te.maxSize < 2 ^ 63 + 31) {i : Nat}
    (hi : i = 0 ∨ ∃ e, te.at? i = some e) : i < 2 ^ 63 := by
  have hlen := HpackTable.length_entryTable_le h
  rcases hi with rfl | ⟨e, he⟩
  · omega
  · have := (HpackTable.at?_bounds he).2
    omega

/-- One field: the encoder writes a representation, and applying it at the decoder adds the field
and keeps the tables in step. -/
theorem encodeHeader_spec (h : Sync te td) (hmax : te.maxSize < 2 ^ 63 + 31) (buffer : Bytes)
    (header : HeaderField) {b : Block} (hb : b.table = td) :
    ∃ out te' r td', encodeHeader (buffer, te) header = (out, te') ∧ Writes out buffer r ∧
      b.apply limit r = some (b.push header td') ∧ Sync te' td' ∧ te'.maxSize = te.maxSize := by
  obtain ⟨hexact, i, hfind⟩ : ∃ hexact i, te.find header = (hexact, i) := ⟨_, _, rfl⟩
  unfold encodeHeader
  simp only [hfind]
  cases hexact with
  | true =>
    -- an indexed field
    obtain ⟨hs, e, hat, hname, hvalue, hplain⟩ := HpackTable.find_exact h.encOk hfind
    have heq : e = header := by
      have hse : e.sensitivity = false := by
        rcases hplain with he | he
        · exact h.plain e he
        · exact he
      cases e
      cases header
      simp_all
    subst heq
    rw [if_neg (by simp [hs]), if_pos rfl]
    refine ⟨_, _, _, td, rfl,
      writes_indexedHeader buffer (index_lt h.encOk hmax (Or.inr ⟨_, hat⟩)), ?_, h, rfl⟩
    rw [Block.apply, hb, ← HpackTable.at?_congr h.entries, hat]
    rfl
  | false =>
    -- a literal field
    have hi := HpackTable.find_name h.encOk hfind
    have hlt : i < 2 ^ 63 := index_lt h.encOk hmax (by
      rcases hi with h0 | ⟨e, he, -⟩
      · exact Or.inl h0
      · exact Or.inr ⟨e, he⟩)
    have hn := nameOf_nameRef h hi hb
    by_cases hs : header.sensitivity = true
    · rw [if_pos hs]
      refine ⟨_, _, _, td, rfl, writes_neverIndexLiteral buffer hlt header, ?_, h, rfl⟩
      simp only [Block.apply, hn, Option.map_some, hb]
      rw [show (⟨header.name, header.value, Indexing.never == .never⟩ : HeaderField) = header by
        cases header
        simp_all]
      rfl
    · have hplain : header.sensitivity = false := by simpa using hs
      have hfield : (⟨header.name, header.value, false⟩ : HeaderField) = header := by
        cases header
        simp_all
      rw [if_neg hs, if_neg (by simp)]
      by_cases hcould : couldIndex te header = true
      · rw [if_pos hcould]
        refine ⟨_, _, _, td.insert header, rfl, writes_indexLiteral buffer hlt header, ?_,
          h.insert hplain, HpackTable.maxSize_insert h.encOk header⟩
        simp only [Block.apply, hn, Option.map_some, hb]
        rw [show (Indexing.incremental == .never) = false by decide, hfield]
        rfl
      · rw [if_neg hcould]
        refine ⟨_, _, _, td, rfl, writes_unIndexLiteral buffer hlt header, ?_, h, rfl⟩
        simp only [Block.apply, hn, Option.map_some, hb]
        rw [show (Indexing.without == .never) = false by decide, hfield]
        rfl

/-- Reading one written representation. -/
theorem readBlock_writes {out buffer : Bytes} {r : Representation} (h : Writes out buffer r)
    (hlen : out.length < 2 ^ 63) :
    ∃ bs, out = buffer ++ bs ∧ bs ≠ [] ∧ ∀ (rest : Bytes) (fuel : Nat) (b b' : Block),
      b.apply limit r = some b' →
        readBlock limit (fuel + 1) (bs ++ rest) b = readBlock limit fuel rest b' := by
  obtain ⟨bs, hout, hne, hread⟩ := h
  refine ⟨bs, hout, hne, fun rest fuel b b' happly => ?_⟩
  have hbs : bs.length < 2 ^ 63 := by
    rw [hout, List.length_append] at hlen
    omega
  rw [readBlock, if_neg (by simp [hne]), hread hbs rest]
  simp only [happly]

/-- All fields of a block. -/
theorem foldl_encodeHeader_spec (headers : List HeaderField) : ∀ (te td : HpackTable)
    (buffer : Bytes) (b : Block), Sync te td → te.maxSize < 2 ^ 63 + 31 → b.table = td →
    (headers.foldl encodeHeader (buffer, te)).1.length < 2 ^ 63 →
    ∃ bs, (headers.foldl encodeHeader (buffer, te)).1 = buffer ++ bs ∧
      (headers.foldl encodeHeader (buffer, te)).2.maxSize = te.maxSize ∧
      ∀ fuel, bs.length ≤ fuel → ∃ td',
        readBlock limit fuel bs b = (td', some (b.headers ++ headers)) ∧
          Sync (headers.foldl encodeHeader (buffer, te)).2 td' := by
  induction headers with
  | nil =>
    intro te td buffer b h _ hb _
    refine ⟨[], by simp, rfl, fun fuel _ => ⟨td, ?_, h⟩⟩
    cases fuel with
    | zero => simp [readBlock, hb]
    | succ fuel => simp [readBlock, hb]
  | cons header headers ih =>
    intro te td buffer b h hmax hb hlen
    obtain ⟨out, te', r, td', henc, hw, happly, hsync, hmax'⟩ :=
      encodeHeader_spec limit h hmax buffer header hb
    rw [List.foldl_cons, henc] at hlen ⊢
    obtain ⟨bs, hbs, hms, hread⟩ := ih te' td' out (b.push header td') hsync (by rw [hmax']; exact hmax)
      rfl hlen
    have hout : out.length < 2 ^ 63 := by
      rw [hbs, List.length_append] at hlen
      omega
    obtain ⟨cs, rfl, hcs, hstep⟩ := readBlock_writes limit hw hout
    refine ⟨cs ++ bs, by rw [hbs, List.append_assoc], by rw [hms, hmax'], fun fuel hfuel => ?_⟩
    have hpos := List.length_pos_iff.2 hcs
    rw [List.length_append] at hfuel
    obtain ⟨fuel, rfl⟩ : ∃ m, fuel = m + 1 := ⟨fuel - 1, by omega⟩
    obtain ⟨td'', hrb, hs⟩ := hread fuel (by omega)
    refine ⟨td'', ?_, hs⟩
    rw [hstep bs fuel b _ happly, hrb]
    simp [Block.push]

end Block

/-! ## Size changes -/

/-- An encoder and a decoder of the two sides of a connection. -/
structure Exchange where
  enc : Hpack := {}
  dec : Hpack := {}
  deriving DecidableEq

namespace Exchange

/-- What the two sides of a connection do with the encoder and the decoder. -/
inductive Op where
  | renegotiate (limit : Nat)
  | setEncodeTableSize (size : Nat)
  | transfer (headers : List HeaderField)
  deriving DecidableEq, Repr

/-- One operation; a transfer returns the decoded fields, or `none` when the block is rejected. -/
def step (x : Exchange) : Op → Guarded (Exchange × Option (List HeaderField))
  | .renegotiate limit =>
    .ok (⟨x.enc.setEncodeTableSize limit, x.dec.setDecodeTableLimit limit⟩, none)
  | .setEncodeTableSize size => .ok (⟨x.enc.setEncodeTableSize size, x.dec⟩, none)
  | .transfer headers => do
    let (block, enc) := x.enc.encode headers
    let (dec, fields) ← x.dec.decode block
    return (⟨enc, dec⟩, fields)

/-- The operations that the two sides may perform: the renegotiated limits are below `bound`, the
encoder stays within the decoder's limit, and a block is shorter than 2^31 bytes. -/
def Allowed (bound : Nat) (x : Exchange) : Op → Prop
  | .renegotiate limit => limit < bound
  | .setEncodeTableSize size => size ≤ x.dec.decodeTableLimit
  | .transfer headers => (x.enc.encode headers).1.length < 2 ^ 31

/-- The relation between the two sides. -/
structure InStep (x : Exchange) : Prop where
  encOk : x.enc.encodeTable.Ok
  decOk : x.dec.decodeTable.Ok
  plain : ∀ e ∈ x.dec.decodeTable.entryTable, e.sensitivity = false
  maxSize_le : x.enc.encodeTable.maxSize ≤ x.dec.decodeTableLimit
  limit_lt : x.dec.decodeTableLimit < 2 ^ 63 + 31
  clean : x.enc.encodeTableDirty = false →
    x.enc.encodeTable.entryTable = x.dec.decodeTable.entryTable ∧
      x.enc.encodeTable.maxSize = x.dec.decodeTable.maxSize ∧ x.enc.encodeMinSize = 2 ^ 64 - 1
  dirty : x.enc.encodeTableDirty = true →
    x.enc.encodeMinSize ≤ x.enc.encodeTable.maxSize ∧ x.enc.encodeTable.entryTable =
      evictTo HeaderField.size x.enc.encodeMinSize x.dec.decodeTable.entryTable

theorem inStep_init : InStep {} where
  encOk := HpackTable.ok_empty
  decOk := HpackTable.ok_empty
  plain := by simp
  maxSize_le := by decide
  limit_lt := by decide
  clean := fun _ => ⟨rfl, rfl, rfl⟩
  dirty := by simp

/-- In both cases the encoder's table is the decoder's one evicted to the encoder's next size. -/
theorem InStep.entries_min {x : Exchange} (h : x.InStep) {size : Nat} (hsize : size < 2 ^ 64) :
    evictTo HeaderField.size size x.enc.encodeTable.entryTable =
      evictTo HeaderField.size (min size x.enc.encodeMinSize) x.dec.decodeTable.entryTable := by
  cases hd : x.enc.encodeTableDirty with
  | false =>
    obtain ⟨h1, -, h3⟩ := h.clean hd
    rw [h1, h3, Nat.min_eq_left (by omega)]
  | true =>
    obtain ⟨-, h2⟩ := h.dirty hd
    rw [h2]
    rcases Nat.le_total size x.enc.encodeMinSize with hle | hle
    · rw [evictTo_evictTo hle, Nat.min_eq_left hle]
    · rw [evictTo_evictTo_of_le hle, Nat.min_eq_right hle]

theorem InStep.setEncodeTableSize {x : Exchange} (h : x.InStep) {size : Nat}
    (hsize : size ≤ x.dec.decodeTableLimit) :
    InStep ⟨x.enc.setEncodeTableSize size, x.dec⟩ where
  encOk := HpackTable.ok_setMaxSize h.encOk size
  decOk := h.decOk
  plain := h.plain
  maxSize_le := by
    show (x.enc.encodeTable.setMaxSize size).maxSize ≤ _
    rw [HpackTable.maxSize_setMaxSize h.encOk]
    exact hsize
  limit_lt := h.limit_lt
  clean := by simp [Hpack.setEncodeTableSize]
  dirty := by
    intro _
    have hlt := h.limit_lt
    show min size x.enc.encodeMinSize ≤ (x.enc.encodeTable.setMaxSize size).maxSize ∧
      (x.enc.encodeTable.setMaxSize size).entryTable = _
    rw [HpackTable.maxSize_setMaxSize h.encOk, HpackTable.entryTable_setMaxSize h.encOk,
      h.entries_min (by omega)]
    exact ⟨Nat.min_le_left _ _, rfl⟩

theorem InStep.renegotiate {x : Exchange} (h : x.InStep) {limit : Nat}
    (hlimit : limit < 2 ^ 63 + 31) :
    InStep ⟨x.enc.setEncodeTableSize limit, x.dec.setDecodeTableLimit limit⟩ where
  encOk := HpackTable.ok_setMaxSize h.encOk limit
  decOk := HpackTable.ok_setMaxSize h.decOk limit
  plain := by
    intro e he
    have he' : e ∈ (x.dec.decodeTable.setMaxSize limit).entryTable := he
    rw [HpackTable.entryTable_setMaxSize h.decOk] at he'
    exact h.plain e ((evictTo_suffix _ _).subset he')
  maxSize_le := by
    show (x.enc.encodeTable.setMaxSize limit).maxSize ≤ limit
    rw [HpackTable.maxSize_setMaxSize h.encOk]
  limit_lt := hlimit
  clean := by simp [Hpack.setEncodeTableSize]
  dirty := by
    intro _
    show min limit x.enc.encodeMinSize ≤ (x.enc.encodeTable.setMaxSize limit).maxSize ∧
      (x.enc.encodeTable.setMaxSize limit).entryTable =
        evictTo _ (min limit x.enc.encodeMinSize) (x.dec.decodeTable.setMaxSize limit).entryTable
    rw [HpackTable.maxSize_setMaxSize h.encOk, HpackTable.entryTable_setMaxSize h.encOk,
      HpackTable.entryTable_setMaxSize h.decOk, h.entries_min (by omega),
      evictTo_evictTo (Nat.min_le_left _ _)]
    exact ⟨Nat.min_le_left _ _, rfl⟩

/-- The decoder's limit changes and the encoder follows it; the decoder's table is resized by the
next block only. -/
theorem InStep.follow {x : Exchange} (h : x.InStep) {limit : Nat} (hlimit : limit < 2 ^ 63 + 31) :
    InStep ⟨x.enc.setEncodeTableSize limit, { x.dec with decodeTableLimit := limit }⟩ where
  encOk := HpackTable.ok_setMaxSize h.encOk limit
  decOk := h.decOk
  plain := h.plain
  maxSize_le := by
    show (x.enc.encodeTable.setMaxSize limit).maxSize ≤ limit
    rw [HpackTable.maxSize_setMaxSize h.encOk]
  limit_lt := hlimit
  clean := by simp [Hpack.setEncodeTableSize]
  dirty := by
    intro _
    show min limit x.enc.encodeMinSize ≤ (x.enc.encodeTable.setMaxSize limit).maxSize ∧
      (x.enc.encodeTable.setMaxSize limit).entryTable = _
    rw [HpackTable.maxSize_setMaxSize h.encOk, HpackTable.entryTable_setMaxSize h.encOk,
      h.entries_min (by omega)]
    exact ⟨Nat.min_le_left _ _, rfl⟩

/-- Only the encoder's side of the one object and the decoder's side of the other are related. -/
theorem InStep.congr {enc enc' dec : Hpack} (h : InStep ⟨enc, dec⟩)
    (htable : enc'.encodeTable = enc.encodeTable)
    (hdirty : enc'.encodeTableDirty = enc.encodeTableDirty)
    (hmin : enc'.encodeMinSize = enc.encodeMinSize) : InStep ⟨enc', dec⟩ := by
  obtain ⟨h1, h2, h3, h4, h5, h6, h7⟩ := h
  dsimp only at h1 h4 h6 h7
  rw [← htable] at h1 h4 h6 h7
  rw [← hdirty, ← hmin] at h6 h7
  exact ⟨h1, h2, h3, h4, h5, h6, h7⟩

/-! ## A transfer -/

/-- Applying a size update within the limit at the start of a block. -/
theorem apply_sizeUpdate {limit size : Nat} {t : HpackTable} (h : size ≤ limit) :
    Block.apply limit { table := t } (.sizeUpdate size) =
      some { table := t.setMaxSize size } := by
  simp [Block.apply, h]

theorem length_encodeSizeUpdates_le (h : Hpack) : h.encodeSizeUpdates.length ≤ 24 := by
  unfold encodeSizeUpdates
  split
  · have h1 := length_encodeTableSizeUpdate_le [] h.encodeMinSize
    have h2 := length_encodeTableSizeUpdate_le (if h.encodeMinSize < h.encodeTable.maxSize then
      encodeTableSizeUpdate [] h.encodeMinSize else []) h.encodeTable.maxSize
    dsimp only
    split at h2
    · rename_i hlt
      rw [if_pos hlt]
      simp only [List.length_nil] at h1
      omega
    · rename_i hlt
      rw [if_neg hlt]
      simp only [List.length_nil] at h2
      omega
  · simp

/-- The size updates at the start of a block bring the decoder's table to the encoder's. -/
theorem encodeSizeUpdates_spec {x : Exchange} (h : x.InStep) :
    ∃ td, Sync x.enc.encodeTable td ∧ ∀ (rest : Bytes) (fuel : Nat),
      (x.enc.encodeSizeUpdates ++ rest).length ≤ fuel → ∃ fuel', rest.length ≤ fuel' ∧
        readBlock x.dec.decodeTableLimit fuel (x.enc.encodeSizeUpdates ++ rest)
            { table := x.dec.decodeTable } =
          readBlock x.dec.decodeTableLimit fuel' rest { table := td } := by
  have hmaxLt : x.enc.encodeTable.maxSize < 2 ^ 63 + 31 :=
    Nat.lt_of_le_of_lt h.maxSize_le h.limit_lt
  have hlen := length_encodeSizeUpdates_le x.enc
  unfold encodeSizeUpdates at hlen ⊢
  cases hd : x.enc.encodeTableDirty with
  -- nothing is announced, and the tables agree already
  | false =>
    obtain ⟨h1, h2, -⟩ := h.clean hd
    refine ⟨x.dec.decodeTable, ⟨h.encOk, h.decOk, h1, h2, ?_⟩, fun rest fuel hfuel => ?_⟩
    · rw [h1]
      exact h.plain
    · exact ⟨fuel, by simpa using hfuel, by simp⟩
  | true =>
    obtain ⟨h1, h2⟩ := h.dirty hd
    simp only [hd, if_true] at hlen ⊢
    -- the encoder's table has been cut to the smallest size in between
    have htotal : total HeaderField.size x.enc.encodeTable.entryTable ≤ x.enc.encodeMinSize := by
      rw [h2]
      exact total_evictTo_le _ _
    have hplain : ∀ e ∈ x.enc.encodeTable.entryTable, e.sensitivity = false := by
      intro e he
      rw [h2] at he
      exact h.plain e ((evictTo_suffix _ _).subset he)
    by_cases hmin : x.enc.encodeMinSize < x.enc.encodeTable.maxSize
    · -- two updates: the smallest size, then the current one
      simp only [if_pos hmin] at hlen ⊢
      have hw1 := writes_sizeUpdate [] x.enc.encodeMinSize (by omega)
      have hw2 := writes_sizeUpdate (encodeTableSizeUpdate [] x.enc.encodeMinSize) _ hmaxLt
      obtain ⟨bs2, hout, hne2, hstep2⟩ :=
        readBlock_writes x.dec.decodeTableLimit hw2 (by omega)
      rw [hout, List.length_append] at hlen
      obtain ⟨bs1, hout1, hne1, hstep1⟩ :=
        readBlock_writes x.dec.decodeTableLimit hw1 (by omega)
      have hok := HpackTable.ok_setMaxSize h.decOk x.enc.encodeMinSize
      refine ⟨(x.dec.decodeTable.setMaxSize x.enc.encodeMinSize).setMaxSize
        x.enc.encodeTable.maxSize, ⟨h.encOk, HpackTable.ok_setMaxSize hok _, ?_, ?_, hplain⟩,
        fun rest fuel hfuel => ?_⟩
      · rw [HpackTable.entryTable_setMaxSize hok, HpackTable.entryTable_setMaxSize h.decOk, ← h2,
          evictTo_of_le (by omega)]
      · rw [HpackTable.maxSize_setMaxSize hok]
      · have hpos1 := List.length_pos_iff.2 hne1
        have hpos2 := List.length_pos_iff.2 hne2
        rw [hout, hout1, List.nil_append] at hfuel ⊢
        simp only [List.length_append] at hfuel
        obtain ⟨fuel, rfl⟩ : ∃ m, fuel = m + 1 + 1 := ⟨fuel - 2, by omega⟩
        refine ⟨fuel, by omega, ?_⟩
        rw [List.append_assoc,
          hstep1 _ _ _ _ (apply_sizeUpdate (by have := h.maxSize_le; omega)),
          hstep2 _ _ _ _ (apply_sizeUpdate h.maxSize_le)]
    · -- one update: the smallest size is the current one
      simp only [if_neg hmin] at hlen ⊢
      have hw := writes_sizeUpdate [] _ hmaxLt
      obtain ⟨bs, hout, hne, hstep⟩ :=
        readBlock_writes x.dec.decodeTableLimit hw (by omega)
      have heq : x.enc.encodeTable.maxSize = x.enc.encodeMinSize := by omega
      refine ⟨x.dec.decodeTable.setMaxSize x.enc.encodeTable.maxSize,
        ⟨h.encOk, HpackTable.ok_setMaxSize h.decOk _, ?_, ?_, hplain⟩, fun rest fuel hfuel => ?_⟩
      · rw [HpackTable.entryTable_setMaxSize h.decOk, heq, ← h2]
      · rw [HpackTable.maxSize_setMaxSize h.decOk]
      · have hpos := List.length_pos_iff.2 hne
        rw [hout, List.nil_append] at hfuel ⊢
        rw [List.length_append] at hfuel
        obtain ⟨fuel, rfl⟩ : ∃ m, fuel = m + 1 := ⟨fuel - 1, by omega⟩
        exact ⟨fuel, by omega, hstep _ _ _ _ (apply_sizeUpdate h.maxSize_le)⟩

/-- A transfer returns the fields, and both tables hold the same entries afterwards. -/
theorem InStep.transfer {x : Exchange} (h : x.InStep) {headers : List HeaderField}
    (hlen : (x.enc.encode headers).1.length < 2 ^ 31) :
    ∃ x', x.step (.transfer headers) = .ok (x', some headers) ∧ x'.InStep ∧
      x'.enc.encodeTable.entryTable = x'.dec.decodeTable.entryTable := by
  have hmaxLt : x.enc.encodeTable.maxSize < 2 ^ 63 + 31 :=
    Nat.lt_of_le_of_lt h.maxSize_le h.limit_lt
  have hblock : (x.enc.encode headers).1 =
      (headers.foldl encodeHeader (x.enc.encodeSizeUpdates, x.enc.encodeTable)).1 := rfl
  -- the size updates first, then one field after the other
  obtain ⟨td, hsync, hupdates⟩ := encodeSizeUpdates_spec h
  obtain ⟨bs, hbs, hlimit, hread⟩ := foldl_encodeHeader_spec x.dec.decodeTableLimit headers
    x.enc.encodeTable td x.enc.encodeSizeUpdates { table := td } hsync hmaxLt rfl
    (by rw [← hblock]; omega)
  obtain ⟨fuel', hfuel', hstart⟩ := hupdates bs (x.enc.encode headers).1.length (by
    rw [hblock, hbs])
  obtain ⟨td', hdec, hsync'⟩ := hread fuel' hfuel'
  rw [hdec] at hstart
  have hdecode : decodeBlock x.dec.decodeTableLimit x.dec.decodeTable (x.enc.encode headers).1 =
      (td', some headers) := by
    rw [decodeBlock]
    rw [← hbs, ← hblock] at hstart
    exact hstart
  have henc : (x.enc.encode headers).2.encodeTable =
      (headers.foldl encodeHeader (x.enc.encodeSizeUpdates, x.enc.encodeTable)).2 := rfl
  refine ⟨⟨(x.enc.encode headers).2, { x.dec with decodeTable := td' }⟩, ?_, ?_, ?_⟩
  · have hshort : (x.enc.encode headers).1.length < 2 ^ 32 := by omega
    have hd := decode_eq x.dec hshort
    rw [hdecode] at hd
    simp only [Exchange.step, hd, ok_bind]
    rfl
  -- a block has been written, so nothing is left to be announced
  · refine ⟨?_, hsync'.decOk, ?_, ?_, h.limit_lt, fun _ => ⟨?_, ?_, ?_⟩, ?_⟩
    · rw [henc]
      exact hsync'.encOk
    · rw [← hsync'.entries]
      exact hsync'.plain
    · rw [henc, hlimit]
      exact h.maxSize_le
    · rw [henc]
      exact hsync'.entries
    · rw [henc]
      exact hsync'.maxSize
    · show (if x.enc.encodeTableDirty then 2 ^ 64 - 1 else x.enc.encodeMinSize) = 2 ^ 64 - 1
      cases hd : x.enc.encodeTableDirty with
      | true => rfl
      | false => exact (h.clean hd).2.2
    · intro hd
      cases hd
  · rw [henc]
    exact hsync'.entries

/-- Every allowed operation succeeds and keeps the two sides in step. -/
theorem InStep.step {x : Exchange} (h : x.InStep) {op : Op} (hop : x.Allowed (2 ^ 63 + 31) op)
    {x' : Exchange} {out : Option (List HeaderField)} (hs : x.step op = .ok (x', out)) :
    x'.InStep := by
  cases op with
  | renegotiate limit =>
    cases hs
    exact h.renegotiate hop
  | setEncodeTableSize size =>
    cases hs
    exact h.setEncodeTableSize hop
  | transfer headers =>
    obtain ⟨x'', h1, h2, -⟩ := h.transfer hop
    rw [hs] at h1
    cases h1
    exact h2

/-- Both sides are in step after every run of allowed operations. -/
theorem inStep_of_runs {tr : List (Machine.Entry Exchange Op (Option (List HeaderField)))}
    {x : Exchange} (hrun : Machine.Runs step {} tr x)
    (hops : ∀ e ∈ tr, e.pre.Allowed (2 ^ 63 + 31) e.input) : x.InStep :=
  hrun.invariant_of (I := fun _ x => x.InStep)
    (C := fun e => e.pre.Allowed (2 ^ 63 + 31) e.input) inStep_init
    (fun _ _ _ _ _ _ h hop hs => h.step hop hs) hops

/-- The round trip over a whole connection: after any run of allowed operations with renegotiated
limits below 2^63 + 31, a transfer returns exactly the encoded fields and leaves the same entries in
both dynamic tables. -/
theorem transfer_lossless {tr : List (Machine.Entry Exchange Op (Option (List HeaderField)))}
    {x : Exchange} (hrun : Machine.Runs step {} tr x)
    (hops : ∀ e ∈ tr, e.pre.Allowed (2 ^ 63 + 31) e.input) (headers : List HeaderField)
    (hblock : (x.enc.encode headers).1.length < 2 ^ 31) :
    ∃ x', x.step (.transfer headers) = .ok (x', some headers) ∧
      x'.enc.encodeTable.entryTable = x'.dec.decodeTable.entryTable := by
  obtain ⟨x', h1, -, h2⟩ := (inStep_of_runs hrun hops).transfer hblock
  exact ⟨x', h1, h2⟩

/-- Two size changes and a transfer that needs both of them announced. -/
theorem transfer_lossless_after_shrink :
    ∃ x', Exchange.step ⟨(({} : Hpack).setEncodeTableSize 64).setEncodeTableSize 0,
        ({} : Hpack).setDecodeTableLimit 64⟩ (.transfer [⟨ascii "a", ascii "b", true⟩]) =
          .ok (x', some [⟨ascii "a", ascii "b", true⟩]) ∧
      x'.enc.encodeTable.entryTable = x'.dec.decodeTable.entryTable :=
  transfer_lossless (.snoc (i := .setEncodeTableSize 0) (o := none)
      (.snoc (i := .renegotiate 64) (o := none) .nil rfl) rfl)
    (by
      intro e he
      simp only [List.nil_append, List.singleton_append, List.mem_cons, List.not_mem_nil,
        or_false] at he
      rcases he with rfl | rfl
      · show 64 < 2 ^ 63 + 31
        decide
      · show 0 ≤ 64
        decide) _ (by decide +kernel)

/-- A limit of 2^63 + 31 is renegotiated but its size update has ten continuation bytes, one more
than the decoder reads. -/
theorem not_lossless_at_limit :
    ¬ ∀ (tr : List (Machine.Entry Exchange Op (Option (List HeaderField)))) (x : Exchange),
      Machine.Runs step {} tr x → (∀ e ∈ tr, e.pre.Allowed (2 ^ 64) e.input) →
      ∀ headers, (x.enc.encode headers).1.length < 2 ^ 31 →
      ∃ x', x.step (.transfer headers) = .ok (x', some headers) ∧
        x'.enc.encodeTable.entryTable = x'.dec.decodeTable.entryTable := by
  intro h
  obtain ⟨x', hx', -⟩ := h _ _ (Machine.Runs.single (i := .renegotiate (2 ^ 63 + 31)) (o := none)
    rfl) (by
      intro e he
      rw [List.mem_singleton] at he
      subst he
      show 2 ^ 63 + 31 < 2 ^ 64
      decide) [] (by decide +kernel)
  have hnone : (Exchange.step ⟨({} : Hpack).setEncodeTableSize (2 ^ 63 + 31),
      ({} : Hpack).setDecodeTableLimit (2 ^ 63 + 31)⟩ (.transfer [])).toOption.map Prod.snd =
        some none := by
    decide +kernel
  rw [show Exchange.step _ _ = _ from hx'] at hnone
  cases hnone

end Exchange

end Chttp2.Hpack
