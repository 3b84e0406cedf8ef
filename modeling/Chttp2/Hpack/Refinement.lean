import Chttp2.Hpack.Reference
import Chttp2.Lib.Reader

/-!
# The decoder refines the reference decoder

The readers of the grammar take off exactly the wire forms (`reads_representation`). A table of the
source abstracts to a table of the reference (`Abstracts`), and a representation acts on both in the
same way (`Follows.step_of_apply`, `Follows.apply_of_step`). By induction over the block, what the
decoder accepts is what the reference accepts, with the same fields and the same table
(`decode_refines`).
-/

set_option autoImplicit false

namespace Chttp2.Hpack.Reference

open EvictingFifo Reader

/-! ## Readers of wire forms -/

theorem not_continues_nil {value : Nat} : ¬ Continues [] value := by
  rintro ⟨⟩

theorem not_isInteger_nil {width value : Nat} : ¬ IsInteger width [] value := by
  rintro ⟨⟩

/-- The loop adds the continuation value at its shift, which stops it after nine bytes. -/
theorem readVIntRest_iff (fuel : Nat) : ∀ (bs : Bytes) (value shift v : Nat) (rest : Bytes),
    shift + 7 * fuel = 63 → (readVIntRest fuel bs value shift = some (v, rest) ↔
      ∃ part w, bs = part ++ rest ∧ Continues part w ∧ part.length ≤ fuel ∧
        v = value + w * 2 ^ shift) := by
  induction fuel with
  | zero =>
    intro bs value shift v rest _
    refine iff_of_false (by simp [readVIntRest]) ?_
    rintro ⟨part, w, -, hc, hlen, -⟩
    obtain rfl := List.length_eq_zero_iff.1 (Nat.le_zero.1 hlen)
    exact not_continues_nil hc
  | succ fuel ih =>
    intro bs value shift v rest hshift
    cases bs with
    | nil =>
      refine iff_of_false (by simp [readVIntRest]) ?_
      rintro ⟨part, w, hnil, hc, -, -⟩
      obtain ⟨rfl, -⟩ := List.append_eq_nil_iff.1 hnil.symm
      exact not_continues_nil hc
    | cons b bs =>
      have hb256 := b.toNat_lt
      rw [readVIntRest]
      by_cases hb : b.toNat < 128
      · rw [if_pos hb, Option.some.injEq, Prod.mk.injEq, Nat.mod_eq_of_lt hb]
        constructor
        · rintro ⟨rfl, rfl⟩
          exact ⟨[b], b.toNat, rfl, .last hb, by simp, rfl⟩
        · rintro ⟨part, w, heq, hc, -, rfl⟩
          cases hc with
          | last _ =>
            obtain ⟨rfl, rfl⟩ := List.cons.inj heq
            exact ⟨rfl, rfl⟩
          | more h128 _ =>
            obtain ⟨rfl, -⟩ := List.cons.inj heq
            omega
      · have hnext : (if shift + 7 ≥ 63 then none
            else readVIntRest fuel bs (value + b.toNat % 128 * 2 ^ shift) (shift + 7)) =
            readVIntRest fuel bs (value + b.toNat % 128 * 2 ^ shift) (shift + 7) := by
          split
          · obtain rfl : fuel = 0 := by omega
            rfl
          · rfl
        -- the value of the byte and of the bytes after it, at their shifts
        have hvalue : ∀ w, value + (b.toNat - 128 + 128 * w) * 2 ^ shift =
            value + b.toNat % 128 * 2 ^ shift + w * 2 ^ (shift + 7) := by
          intro w
          have hmod : b.toNat % 128 = b.toNat - 128 := by omega
          rw [hmod, Nat.pow_add]
          ring
        rw [if_neg hb, hnext, ih _ _ _ _ _ (by omega)]
        constructor
        · rintro ⟨part, w, rfl, hc, hlen, rfl⟩
          exact ⟨b :: part, b.toNat - 128 + 128 * w, rfl, .more (by omega) hc,
            by rw [List.length_cons]; omega, (hvalue w).symm⟩
        · rintro ⟨part, w, heq, hc, hlen, rfl⟩
          cases hc with
          | last hlt =>
            obtain ⟨rfl, -⟩ := List.cons.inj heq
            exact absurd hlt hb
          | more _ hc =>
            obtain ⟨rfl, rfl⟩ := List.cons.inj heq
            rw [List.length_cons] at hlen
            exact ⟨_, _, rfl, hc, by omega, hvalue _⟩

theorem reads_integer (width : Nat) : Reads (readVInt width) (IsInteger width) := by
  intro bs v rest
  cases bs with
  | nil =>
    refine iff_of_false (by simp [readVInt]) ?_
    rintro ⟨part, hnil, hp⟩
    obtain ⟨rfl, -⟩ := List.append_eq_nil_iff.1 hnil.symm
    exact not_isInteger_nil hp
  | cons b bs =>
    have hmod : b.toNat % 2 ^ width < 2 ^ width := Nat.mod_lt _ (by positivity)
    rw [readVInt]
    by_cases hb : b.toNat % 2 ^ width < 2 ^ width - 1
    · rw [if_pos hb, Option.some.injEq, Prod.mk.injEq]
      constructor
      · rintro ⟨rfl, rfl⟩
        exact ⟨[b], rfl, .short hb⟩
      · rintro ⟨part, heq, hp⟩
        cases hp with
        | short _ =>
          obtain ⟨rfl, rfl⟩ := List.cons.inj heq
          exact ⟨rfl, rfl⟩
        | long hones _ _ =>
          obtain ⟨rfl, -⟩ := List.cons.inj heq
          omega
    · have hones : b.toNat % 2 ^ width = 2 ^ width - 1 := by omega
      rw [if_neg hb, readVIntRest_iff 9 _ _ _ _ _ rfl, hones]
      simp only [Nat.pow_zero, Nat.mul_one]
      constructor
      · rintro ⟨part, w, rfl, hc, hlen, rfl⟩
        exact ⟨b :: part, rfl, .long hones hc hlen⟩
      · rintro ⟨part, heq, hp⟩
        cases hp with
        | short hlt =>
          obtain ⟨rfl, -⟩ := List.cons.inj heq
          exact absurd hlt hb
        | long _ hc hlen =>
          obtain ⟨rfl, rfl⟩ := List.cons.inj heq
          exact ⟨_, _, rfl, hc, hlen, rfl⟩

/-- The first byte decides between two readers. -/
def leadAtLeast (n : Nat) (b : Option UInt8) : Prop := n ≤ (b.getD 0).toNat

instance (n : Nat) : DecidablePred (leadAtLeast n) :=
  fun b => inferInstanceAs (Decidable (n ≤ (b.getD 0).toNat))

theorem leadAtLeast_iff {n : Nat} (part : Bytes) : leadAtLeast n part.head? ↔ n ≤ lead part := by
  cases part <;> rfl

/-- A part starts with the first byte of its integer. -/
theorem lead_append {width i : Nat} {bs : Bytes} (h : IsInteger width bs i) (more : Bytes) :
    lead (bs ++ more) = lead bs := by
  cases h <;> rfl

/-- A length and then as many bytes, from which `f` makes a string. -/
def HasPayload (f : Bytes → Option Bytes) : Bytes → Bytes → Prop :=
  Then (IsInteger 7) fun length part str => part.length = length ∧ f part = some str

theorem huffmanDecoded_iff {data str : Bytes} :
    huffmanDecoded data = some str ↔ Huffman.Accepts (BitString.bytesBits data) str := by
  obtain ⟨r, hr, h⟩ := Huffman.decode_spec data
  rw [huffmanDecoded, hr]
  exact h str

theorem isString_iff (part str : Bytes) :
    (if leadAtLeast 128 part.head? then HasPayload huffmanDecoded part str
      else HasPayload some part str) ↔ IsString part str := by
  constructor
  · intro h
    split at h
    · rename_i hlead
      obtain ⟨length, bs, payload, rfl, hint, rfl, hdec⟩ := h
      rw [leadAtLeast_iff, lead_append hint] at hlead
      exact .huffman hlead hint (huffmanDecoded_iff.1 hdec)
    · rename_i hlead
      obtain ⟨length, bs, payload, rfl, hint, rfl, hdec⟩ := h
      rw [leadAtLeast_iff, lead_append hint] at hlead
      cases hdec
      exact .raw (Nat.lt_of_not_le hlead) hint
  · intro h
    cases h with
    | raw hlead hint =>
      rw [if_neg (by rw [leadAtLeast_iff, lead_append hint]; omega)]
      exact ⟨_, _, _, rfl, hint, rfl, rfl⟩
    | huffman hlead hint hacc =>
      rw [if_pos (by rw [leadAtLeast_iff, lead_append hint]; omega)]
      exact ⟨_, _, _, rfl, hint, rfl, huffmanDecoded_iff.2 hacc⟩

theorem not_then_integer_nil {γ : Type} {width : Nat} {next : Nat → Bytes → γ → Prop} {c : γ} :
    ¬ Then (IsInteger width) next [] c := by
  rintro ⟨i, first, second, hnil, hint, -⟩
  obtain ⟨rfl, -⟩ := List.append_eq_nil_iff.1 hnil.symm
  exact not_isInteger_nil hint

theorem reads_string : Reads readString IsString := by
  have hpayload : ∀ f : Bytes → Option Bytes, Reads (fun bs => (readVInt 7 bs).bind fun p =>
      if p.2.length < p.1 then none
      else (f (p.2.take p.1)).map fun str => (str, p.2.drop p.1)) (HasPayload f) :=
    fun f => (reads_integer 7).bind fun length => reads_take length f
  have hread : readString = fun bs => if leadAtLeast 128 bs.head? then
      (readVInt 7 bs).bind fun p => if p.2.length < p.1 then none
        else (huffmanDecoded (p.2.take p.1)).map fun str => (str, p.2.drop p.1)
      else (readVInt 7 bs).bind fun p => if p.2.length < p.1 then none
        else (some (p.2.take p.1)).map fun str => (str, p.2.drop p.1) := by
    funext bs
    have hlead : (bs.headD 0).toNat ≥ 128 ↔ leadAtLeast 128 bs.head? := (leadAtLeast_iff bs).symm
    rw [readString]
    cases readVInt 7 bs with
    | none => simp
    | some p => simp only [hlead, Option.bind_some]; split <;> split <;> rfl
  rw [hread]
  exact ((hpayload huffmanDecoded).choose (leadAtLeast 128) (hpayload some)
    (fun _ => not_then_integer_nil) (fun _ => not_then_integer_nil)).congr isString_iff

theorem reads_name (index : Nat) : Reads (readName index) (IsName index) := by
  by_cases h0 : index = 0
  · have hread : readName index =
        fun bs => (readString bs).map fun p => (NameRef.literal p.1, p.2) := by
      funext bs
      rw [readName, if_pos h0]
    rw [hread]
    refine (reads_string.map NameRef.literal).congr fun part name => ?_
    constructor
    · rintro ⟨str, hstr, rfl⟩
      rw [h0]
      exact .literal hstr
    · intro h
      cases h with
      | index hne => exact absurd h0 hne
      | literal hstr => exact ⟨_, hstr, rfl⟩
  · have hread : readName index = fun bs => some (NameRef.index index, bs) := by
      funext bs
      rw [readName, if_neg h0]
    rw [hread]
    refine (reads_pure (NameRef.index index)).congr fun part name => ?_
    constructor
    · rintro ⟨rfl, rfl⟩
      exact .index h0
    · intro h
      cases h with
      | index _ => exact ⟨rfl, rfl⟩
      | literal _ => exact absurd rfl h0

/-- The form of a literal field, the pattern of its first byte aside. -/
def IsLiteral (mode : Indexing) : Bytes → Representation → Prop :=
  Then (IsInteger (indexWidth mode)) fun i => Then (IsName i) fun name part r =>
    ∃ value, IsString part value ∧ Representation.literal mode name value = r

theorem reads_literal (mode : Indexing) :
    Reads (readLiteral mode (indexWidth mode)) (IsLiteral mode) :=
  (reads_integer _).bind fun i => (reads_name i).bind fun name =>
    reads_string.map (Representation.literal mode name)

/-- The part is a literal field with the pattern of its mode. -/
theorem encodes_of_isLiteral {m : Indexing} {part : Bytes} {r : Representation}
    (hpattern : HasPattern m (lead part)) (h : IsLiteral m part r) : Encodes part r := by
  obtain ⟨i, bs, more, rfl, hint, name, names, values, rfl, hname, value, hvalue, rfl⟩ := h
  rw [lead_append hint] at hpattern
  exact .literal hpattern hint hname hvalue

theorem isLiteral_of_encodes {mode : Indexing} {part : Bytes} {name : NameRef} {value : Bytes}
    (h : Encodes part (.literal mode name value)) :
    HasPattern mode (lead part) ∧ IsLiteral mode part (.literal mode name value) := by
  cases h with
  | literal hpattern hint hname hvalue =>
    rw [lead_append hint]
    exact ⟨hpattern, _, _, _, rfl, hint, _, _, _, rfl, hname, _, hvalue, rfl⟩

/-- The forms by their first byte, in the order in which the decoder tries them. -/
def FormByLead (part : Bytes) (r : Representation) : Prop :=
  if leadAtLeast 128 part.head? then ∃ i, IsInteger 7 part i ∧ Representation.indexed i = r
  else if leadAtLeast 64 part.head? then IsLiteral .incremental part r
  else if leadAtLeast 32 part.head? then
    ∃ size, IsInteger 5 part size ∧ Representation.sizeUpdate size = r
  else if leadAtLeast 16 part.head? then IsLiteral .never part r
  else IsLiteral .without part r

theorem formByLead_iff (part : Bytes) (r : Representation) :
    FormByLead part r ↔ Encodes part r := by
  simp only [FormByLead, leadAtLeast_iff]
  constructor
  · intro h
    split at h
    · rename_i h7
      obtain ⟨i, hint, rfl⟩ := h
      exact .indexed h7 hint
    split at h
    · rename_i h7 h6
      exact encodes_of_isLiteral (m := .incremental) ⟨h6, Nat.lt_of_not_le h7⟩ h
    split at h
    · rename_i h7 h6 h5
      obtain ⟨size, hint, rfl⟩ := h
      exact .sizeUpdate h5 (Nat.lt_of_not_le h6) hint
    split at h
    · rename_i h7 h6 h5 h4
      exact encodes_of_isLiteral (m := .never) ⟨h4, Nat.lt_of_not_le h5⟩ h
    · rename_i h7 h6 h5 h4
      exact encodes_of_isLiteral (m := .without) (Nat.lt_of_not_le h4) h
  · intro h
    -- the pattern of the representation fixes the branch
    cases r with
    | indexed i =>
      cases h with
      | indexed h7 hint =>
        rw [if_pos h7]
        exact ⟨i, hint, rfl⟩
    | sizeUpdate size =>
      cases h with
      | sizeUpdate h5 h6 hint =>
        rw [if_neg (by omega), if_neg (by omega), if_pos h5]
        exact ⟨size, hint, rfl⟩
    | literal mode name value =>
      obtain ⟨hpattern, hlit⟩ := isLiteral_of_encodes h
      cases mode with
      | incremental =>
        obtain ⟨h6, h7⟩ := hpattern
        rw [if_neg (by omega), if_pos h6]
        exact hlit
      | without =>
        change lead part < 16 at hpattern
        rw [if_neg (by omega), if_neg (by omega), if_neg (by omega), if_neg (by omega)]
        exact hlit
      | never =>
        obtain ⟨h4, h5⟩ := hpattern
        rw [if_neg (by omega), if_neg (by omega), if_neg (by omega), if_pos h4]
        exact hlit

/-- The grammar's reader takes off exactly the representations. -/
theorem reads_representation : Reads readRepresentation Encodes := by
  have hread : readRepresentation = fun bs =>
      if leadAtLeast 128 bs.head? then
        (readVInt 7 bs).map fun p => (Representation.indexed p.1, p.2)
      else (fun bs => if leadAtLeast 64 bs.head? then readLiteral .incremental 6 bs
      else (fun bs => if leadAtLeast 32 bs.head? then
        (readVInt 5 bs).map fun p => (Representation.sizeUpdate p.1, p.2)
      else (fun bs => if leadAtLeast 16 bs.head? then readLiteral .never 4 bs
      else readLiteral .without 4 bs) bs) bs) bs := by
    funext bs
    have hlead : ∀ n, n ≤ (bs.headD 0).toNat ↔ leadAtLeast n bs.head? :=
      fun n => (leadAtLeast_iff bs).symm
    simp only [readRepresentation, ge_iff_le, hlead]
  have hne : ∀ (mode : Indexing) r, ¬ IsLiteral mode [] r := fun _ _ => not_then_integer_nil
  have hint : ∀ (width : Nat) (f : Nat → Representation) r,
      ¬ ∃ i, IsInteger width [] i ∧ f i = r := by
    rintro width f r ⟨i, h, -⟩
    exact not_isInteger_nil h
  have h4 := (reads_literal .never).choose (leadAtLeast 16) (reads_literal .without)
    (hne _) (hne _)
  have h5 := ((reads_integer 5).map Representation.sizeUpdate).choose (leadAtLeast 32) h4
    (hint _ _) (hne _)
  have h6 := (reads_literal .incremental).choose (leadAtLeast 64) h5 (hne _) (hne .without)
  have h7 := ((reads_integer 7).map Representation.indexed).choose (leadAtLeast 128) h6
    (hint _ _) (hne .without)
  rw [hread]
  exact h7.congr formByLead_iff

/-! ## The two tables -/

/-- The table of the source, seen from its newest entry. -/
structure Abstracts (t : HpackTable) (r : Table) : Prop where
  ok : t.Ok
  entries : r.entries = t.entryTable.reverse
  maxSize : r.maxSize = t.maxSize

/-- The reference table of a table that meets its invariant. -/
def ofTable {t : HpackTable} (h : t.Ok) : Table :=
  ⟨t.entryTable.reverse, t.maxSize, by rw [total_reverse, ← h.bytes]; exact h.fits⟩

theorem abstracts_ofTable {t : HpackTable} (h : t.Ok) : Abstracts t (ofTable h) := ⟨h, rfl, rfl⟩

theorem Abstracts.eq_ofTable {t : HpackTable} {r : Table} (h : Abstracts t r) : ofTable h.ok = r :=
  Table.ext h.entries.symm h.maxSize.symm

section Tables

variable {t : HpackTable} {r : Table}

/-- Both index the same address space. -/
theorem Abstracts.lookup (h : Abstracts t r) (i : Nat) : r.lookup i = t.at? i := by
  have hlen := length_staticEntryTable
  rw [Table.lookup, HpackTable.at?, h.entries]
  by_cases h0 : i = 0
  · rw [if_pos h0, if_pos h0]
  rw [if_neg h0, if_neg h0]
  by_cases hstatic : i ≤ staticEntryTable.length
  · rw [if_pos hstatic, List.getElem?_append_left (by omega)]
  rw [if_neg hstatic, List.getElem?_append_right (by omega)]
  dsimp only
  by_cases hin : i - staticEntryTable.length > t.entryTable.length
  · rw [if_pos (Or.inr hin), List.getElem?_eq_none]
    rw [List.length_reverse]
    omega
  · rw [if_neg (by omega), List.getElem?_reverse (by omega)]
    congr 1
    omega

theorem Abstracts.insert (h : Abstracts t r) (header : HeaderField) :
    Abstracts (t.insert header) (r.insert header) where
  ok := HpackTable.ok_insert h.ok header
  entries := by
    have hcons : header :: r.entries = (t.entryTable ++ [header]).reverse := by
      rw [h.entries, List.reverse_append]
      rfl
    rw [HpackTable.entryTable_insert h.ok, Table.entries_insert, hcons, newestWithin_reverse,
      h.maxSize]
  maxSize := by rw [HpackTable.maxSize_insert h.ok, Table.maxSize_insert, h.maxSize]

theorem Abstracts.resize (h : Abstracts t r) (size : Nat) :
    Abstracts (t.setMaxSize size) (r.resize size) where
  ok := HpackTable.ok_setMaxSize h.ok size
  entries := by
    rw [HpackTable.entryTable_setMaxSize h.ok, Table.entries_resize, h.entries,
      newestWithin_reverse]
  maxSize := by rw [HpackTable.maxSize_setMaxSize h.ok, Table.maxSize_resize]

end Tables

/-! ## One representation -/

/-- The decoder and the reference have come equally far. -/
structure Follows (b : Block) (d : Progress) : Prop where
  table : Abstracts b.table d.table
  fresh : d.fresh = b.firstField
  fields : d.fields = b.headers

section Steps

variable {limit : Nat} {b b' : Block} {d d' : Progress} {r : Representation}

theorem Follows.push (h : Follows b d) (header : HeaderField) {t : HpackTable} {r : Table}
    (ht : Abstracts t r) : Follows (b.push header t) (d.push header r) :=
  ⟨ht, rfl, congrArg (· ++ [header]) h.fields⟩

theorem Follows.names_iff (h : Follows b d) (ref : NameRef) (name : Bytes) :
    Names d.table ref name ↔ b.nameOf ref = some name := by
  cases ref with
  | index i =>
    rw [Block.nameOf, Option.map_eq_some_iff, ← h.table.lookup]
    constructor
    · rintro ⟨hi⟩
      exact ⟨_, hi, rfl⟩
    · rintro ⟨header, hi, rfl⟩
      exact .index hi
  | literal n =>
    rw [Block.nameOf, Option.some.injEq]
    constructor
    · rintro ⟨⟩
      rfl
    · rintro rfl
      exact .literal n

/-- What the decoder does with a representation, the reference does too. -/
theorem Follows.step_of_apply (h : Follows b d) (happly : b.apply limit r = some b') :
    ∃ d', Step limit d r d' ∧ Follows b' d' := by
  cases r with
  | indexed i =>
    obtain ⟨header, hi, rfl⟩ := Option.map_eq_some_iff.1 happly
    rw [← h.table.lookup] at hi
    exact ⟨_, .indexed hi, h.push header h.table⟩
  | literal mode ref value =>
    obtain ⟨name, hname, rfl⟩ := Option.map_eq_some_iff.1 happly
    rw [← h.names_iff] at hname
    cases mode with
    | incremental => exact ⟨_, .incremental hname, h.push _ (h.table.insert _)⟩
    | without => exact ⟨_, .without hname, h.push _ h.table⟩
    | never => exact ⟨_, .never hname, h.push _ h.table⟩
  | sizeUpdate size =>
    rw [Block.apply] at happly
    split at happly
    · rename_i hcond
      rw [Bool.and_eq_true, decide_eq_true_eq] at hcond
      cases happly
      exact ⟨_, .sizeUpdate (h.fresh.trans hcond.1) hcond.2, h.table.resize size, h.fresh,
        h.fields⟩
    · cases happly

/-- What the reference does with a representation, the decoder does too. -/
theorem Follows.apply_of_step (h : Follows b d) (hstep : Step limit d r d') :
    ∃ b', b.apply limit r = some b' ∧ Follows b' d' := by
  cases hstep with
  | indexed hi =>
    rw [h.table.lookup] at hi
    exact ⟨_, congrArg (Option.map _) hi, h.push _ h.table⟩
  | incremental hname =>
    rw [h.names_iff] at hname
    exact ⟨_, congrArg (Option.map _) hname, h.push _ (h.table.insert _)⟩
  | without hname =>
    rw [h.names_iff] at hname
    exact ⟨_, congrArg (Option.map _) hname, h.push _ h.table⟩
  | never hname =>
    rw [h.names_iff] at hname
    exact ⟨_, congrArg (Option.map _) hname, h.push _ h.table⟩
  | sizeUpdate hfresh hsize =>
    refine ⟨_, if_pos ?_, h.table.resize _, h.fresh, h.fields⟩
    rw [Bool.and_eq_true, decide_eq_true_eq]
    exact ⟨h.fresh.symm.trans hfresh, hsize⟩

/-- The reference leaves no choice. -/
theorem Follows.step_unique (h : Follows b d) {d'' : Progress} (hstep : Step limit d r d')
    (hstep' : Step limit d r d'') : d' = d'' := by
  have huniq : ∀ {b' : Block} {d₁ d₂ : Progress}, Follows b' d₁ → Follows b' d₂ → d₁ = d₂ := by
    intro b' d₁ d₂ h₁ h₂
    exact Progress.ext (h₁.table.eq_ofTable.symm.trans h₂.table.eq_ofTable)
      (h₁.fresh.trans h₂.fresh.symm) (h₁.fields.trans h₂.fields.symm)
  obtain ⟨b₁, hb₁, h₁⟩ := h.apply_of_step hstep
  obtain ⟨b₂, hb₂, h₂⟩ := h.apply_of_step hstep'
  rw [hb₁, Option.some.injEq] at hb₂
  subst hb₂
  exact huniq h₁ h₂

/-! ## A whole block -/

theorem not_encodes_nil : ¬ Encodes [] r := by
  intro h
  have : readRepresentation ([] ++ []) = some (r, []) := (reads_representation _ _ _).2 ⟨_, rfl, h⟩
  cases this

theorem decodes_nil_iff : Decodes limit d [] d' ↔ d' = d := by
  constructor
  · intro h
    generalize hbs : ([] : Bytes) = bs at h
    cases h with
    | nil => rfl
    | cons henc _ _ =>
      obtain ⟨rfl, -⟩ := List.append_eq_nil_iff.1 hbs.symm
      exact absurd henc not_encodes_nil
  · rintro rfl
    exact .nil d'

/-- A block that is not empty starts with the representation that the grammar reads. -/
theorem decodes_iff {bs : Bytes} (hne : bs ≠ []) : Decodes limit d bs d' ↔
    ∃ r rest d₁, readRepresentation bs = some (r, rest) ∧ Step limit d r d₁ ∧
      Decodes limit d₁ rest d' := by
  constructor
  · intro h
    cases h with
    | nil => exact absurd rfl hne
    | cons henc hstep hrest =>
      exact ⟨_, _, _, (reads_representation _ _ _).2 ⟨_, rfl, henc⟩, hstep, hrest⟩
  · rintro ⟨r, rest, d₁, hread, hstep, hrest⟩
    obtain ⟨part, rfl, henc⟩ := (reads_representation _ _ _).1 hread
    exact .cons henc hstep hrest

theorem Names.unique {t : Table} {ref : NameRef} {name name' : Bytes} (h : Names t ref name)
    (h' : Names t ref name') : name = name' := by
  cases h with
  | index hi =>
    cases h' with
    | index hi' =>
      rw [hi, Option.some.injEq] at hi'
      rw [hi']
  | literal => cases h'; rfl

/-- A representation has one effect, whatever the table is. -/
theorem Step.unique {d₁ d₂ : Progress} (h₁ : Step limit d r d₁) (h₂ : Step limit d r d₂) :
    d₁ = d₂ := by
  cases h₁ with
  | indexed hi =>
    cases h₂ with
    | indexed hi' =>
      rw [hi, Option.some.injEq] at hi'
      rw [hi']
  | incremental hn => cases h₂ with | incremental hn' => rw [hn.unique hn']
  | without hn => cases h₂ with | without hn' => rw [hn.unique hn']
  | never hn => cases h₂ with | never hn' => rw [hn.unique hn']
  | sizeUpdate => cases h₂; rfl

theorem Decodes.unique {bs : Bytes} (h : Decodes limit d bs d') {d'' : Progress} :
    Decodes limit d bs d'' → d' = d'' := by
  induction h with
  | nil d => exact fun h' => (decodes_nil_iff.1 h').symm
  | @cons d d₁ d' part rest r henc hstep _ ih =>
    intro h'
    have hne : part ++ rest ≠ [] := by
      intro hnil
      obtain ⟨rfl, -⟩ := List.append_eq_nil_iff.1 hnil
      exact not_encodes_nil henc
    -- both ways read the same representation first
    obtain ⟨r', rest', d₂, hread, hstep', hrest⟩ := (decodes_iff hne).1 h'
    have hread' : readRepresentation (part ++ rest) = some (r, rest) :=
      (reads_representation _ _ _).2 ⟨part, rfl, henc⟩
    rw [hread, Option.some.injEq, Prod.mk.injEq] at hread'
    obtain ⟨rfl, rfl⟩ := hread'
    obtain rfl := hstep.unique hstep'
    exact ih hrest

/-- The reference decoder accepts a block with one list of fields and one table. -/
theorem Accepts.unique {t t₁ t₂ : Table} {block : Bytes} {fields₁ fields₂ : List HeaderField}
    (h₁ : Accepts limit t block fields₁ t₁) (h₂ : Accepts limit t block fields₂ t₂) :
    fields₁ = fields₂ ∧ t₁ = t₂ := by
  obtain ⟨_, h₁⟩ := h₁
  obtain ⟨_, h₂⟩ := h₂
  have heq := h₁.unique h₂
  exact ⟨congrArg Progress.fields heq, congrArg Progress.table heq⟩

/-- The rest of a block after one representation is shorter. -/
theorem length_lt_of_readRepresentation {bs rest : Bytes}
    (h : readRepresentation bs = some (r, rest)) : rest.length < bs.length := by
  obtain ⟨part, rfl, henc⟩ := (reads_representation _ _ _).1 h
  cases part with
  | nil => exact absurd henc not_encodes_nil
  | cons b part =>
    rw [List.length_append, List.length_cons]
    omega

/-- The decoder either accepts the block, as the reference does and in its only way, or rejects it
as the reference does. In both cases the table meets its invariant. -/
theorem readBlock_refines (fuel : Nat) : ∀ (bs : Bytes) (b : Block) (d : Progress), Follows b d →
    bs.length ≤ fuel →
    (∃ b' d', readBlock limit fuel bs b = (b'.table, some b'.headers) ∧ Follows b' d' ∧
      ∀ d'', Decodes limit d bs d'' ↔ d'' = d') ∨
    (∃ t : HpackTable, readBlock limit fuel bs b = (t, none) ∧ t.Ok ∧
      ∀ d'', ¬ Decodes limit d bs d'') := by
  induction fuel with
  | zero =>
    intro bs b d h hlen
    obtain rfl := List.length_eq_zero_iff.1 (Nat.le_zero.1 hlen)
    exact Or.inl ⟨b, d, rfl, h, fun _ => decodes_nil_iff⟩
  | succ fuel ih =>
    intro bs b d h hlen
    rw [readBlock]
    by_cases hne : bs = []
    · subst hne
      exact Or.inl ⟨b, d, if_pos rfl, h, fun _ => decodes_nil_iff⟩
    rw [if_neg hne]
    cases hread : readRepresentation bs with
    | none =>
      refine Or.inr ⟨b.table, rfl, h.table.ok, fun d'' hd => ?_⟩
      obtain ⟨r, rest, d₁, hsome, -, -⟩ := (decodes_iff hne).1 hd
      rw [hread] at hsome
      cases hsome
    | some p =>
      obtain ⟨r, rest⟩ := p
      dsimp only
      cases happly : b.apply limit r with
      | none =>
        refine Or.inr ⟨b.table, rfl, h.table.ok, fun d'' hd => ?_⟩
        obtain ⟨r', rest', d₁, hsome, hstep, -⟩ := (decodes_iff hne).1 hd
        rw [hread, Option.some.injEq, Prod.mk.injEq] at hsome
        obtain ⟨rfl, rfl⟩ := hsome
        obtain ⟨b', hb', -⟩ := h.apply_of_step hstep
        rw [happly] at hb'
        cases hb'
      | some b₁ =>
        obtain ⟨d₁, hstep, hfollows⟩ := h.step_of_apply happly
        have hshort := length_lt_of_readRepresentation hread
        -- the block decodes as its rest does after the one possible step
        have hrest : ∀ d'', Decodes limit d bs d'' ↔ Decodes limit d₁ rest d'' := by
          intro d''
          rw [decodes_iff hne]
          constructor
          · rintro ⟨r', rest', d₂, hsome, hstep', hdec⟩
            rw [hread, Option.some.injEq, Prod.mk.injEq] at hsome
            obtain ⟨rfl, rfl⟩ := hsome
            rw [h.step_unique hstep hstep']
            exact hdec
          · intro hdec
            exact ⟨r, rest, d₁, hread, hstep, hdec⟩
        simp only [hrest]
        exact ih rest b₁ d₁ hfollows (by omega)

end Steps

/-- The decoder's effect on its table and its result, against the reference. -/
theorem decodeBlock_refines (limit : Nat) {t : HpackTable} (h : t.Ok) (data : Bytes) :
    ∃ ht : (decodeBlock limit t data).1.Ok, ∀ fields r,
      Accepts limit (ofTable h) data fields r ↔
        (decodeBlock limit t data).2 = some fields ∧ ofTable ht = r := by
  have hstart : Follows { table := t } ⟨ofTable h, true, []⟩ := ⟨abstracts_ofTable h, rfl, rfl⟩
  rw [decodeBlock]
  rcases readBlock_refines data.length data _ _ hstart (le_refl _) with
    ⟨b, d, hblock, hfollows, hdec⟩ | ⟨t', hblock, ht', hdec⟩
  · rw [hblock]
    refine ⟨hfollows.table.ok, fun fields r => ?_⟩
    simp only [Accepts, hdec]
    constructor
    · rintro ⟨fresh, rfl⟩
      exact ⟨congrArg some hfollows.fields.symm, hfollows.table.eq_ofTable⟩
    · rintro ⟨hfields, rfl⟩
      cases hfields
      exact ⟨d.fresh, Progress.ext hfollows.table.eq_ofTable rfl hfollows.fields.symm⟩
  · rw [hblock]
    refine ⟨ht', fun fields r => iff_of_false ?_ ?_⟩
    · rintro ⟨fresh, hd⟩
      exact hdec _ hd
    · rintro ⟨hnone, -⟩
      cases hnone

/-! ## Every state of the decoder -/

/-- The states of an `Hpack` object. A span holds less than 2^32 bytes. -/
inductive Reachable : Hpack → Prop where
  /-- The initial state, to which `reset` returns. -/
  | init : Reachable {}
  | setDecodeTableLimit {h : Hpack} (limit : Nat) : Reachable h →
      Reachable (h.setDecodeTableLimit limit)
  | setEncodeTableSize {h : Hpack} (size : Nat) : Reachable h →
      Reachable (h.setEncodeTableSize size)
  | encode {h : Hpack} (headers : List HeaderField) : Reachable h → Reachable (h.encode headers).2
  | decode {h h' : Hpack} {data : Bytes} {fields : Option (List HeaderField)} : Reachable h →
      data.length < 2 ^ 32 → h.decode data = .ok (h', fields) → Reachable h'

theorem Reachable.decodeTable_ok {h : Hpack} (hreach : Reachable h) : h.decodeTable.Ok := by
  induction hreach with
  | init => exact HpackTable.ok_empty
  | setDecodeTableLimit limit _ ih => exact HpackTable.ok_setMaxSize ih limit
  | setEncodeTableSize _ _ ih => exact ih
  | encode _ _ ih => exact ih
  | @decode h h' data fields _ hlen hdec ih =>
    rw [decode_eq h hlen] at hdec
    cases hdec
    exact (decodeBlock_refines _ ih data).1

/-- In every state and on every byte string, the decoder returns. It accepts the block if and only
if the reference does, and then with the fields and the table of the reference. -/
theorem decode_refines {h : Hpack} (hreach : Reachable h) {data : Bytes}
    (hlen : data.length < 2 ^ 32) : ∃ (t : HpackTable) (ht : t.Ok) (out : Option (List HeaderField)),
      h.decode data = .ok ({ h with decodeTable := t }, out) ∧ ∀ fields r,
        Accepts h.decodeTableLimit (ofTable hreach.decodeTable_ok) data fields r ↔
          out = some fields ∧ ofTable ht = r := by
  obtain ⟨ht, hiff⟩ := decodeBlock_refines h.decodeTableLimit hreach.decodeTable_ok data
  exact ⟨_, ht, _, decode_eq h hlen, hiff⟩

/-- A block with a size update, a literal with incremental indexing and a reference to its entry. -/
theorem decode_refines_of_indexed : ∃ (t : HpackTable) (ht : t.Ok)
    (out : Option (List HeaderField)),
      ({} : Hpack).decode [0x3f, 0x21, 0x40, 1, 97, 1, 98, 0xbe] =
        .ok ({ ({} : Hpack) with decodeTable := t }, out) ∧ ∀ fields r,
        Accepts 4096 (ofTable HpackTable.ok_empty) [0x3f, 0x21, 0x40, 1, 97, 1, 98, 0xbe] fields r ↔
          out = some fields ∧ ofTable ht = r :=
  decode_refines .init (by decide)

end Chttp2.Hpack.Reference
