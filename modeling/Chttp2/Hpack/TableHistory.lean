import Chttp2.Hpack.Table

/-!
# Tables reached by insertions and size changes

The table is a queue in the sense of `EvictingFifo`: `insert` pushes an entry, `setMaxSize` sets the
limit (`apply_spec`). So after any series of changes the entries are the longest suffix of the
inserted fields that was within every maximum size so far, the byte count is their total, and `find`
agrees with `at?` in both directions (`afterChanges_correct`).

`find_exact` and `find_name` say that an index which `find` returns is right. The converse, that
`find` misses nothing, comes from `exists_latest`: a name or a pair that a live entry has is in the
lookup map, with the number of the latest such entry.
-/

set_option autoImplicit false

namespace Chttp2

namespace HpackTable

open EvictingFifo LatestIndex

/-- One call of `insert` or `setMaxSize`. -/
def apply (t : HpackTable) : Change HeaderField → HpackTable
  | .push header => t.insert header
  | .setLimit size => t.setMaxSize size

/-- The table after a series of calls on an empty one. -/
def afterChanges (changes : List (Change HeaderField)) : HpackTable :=
  changes.foldl apply {}

section Changes

variable {t : HpackTable}

/-- A call acts on the entries and on the size as a change of the queue. -/
theorem apply_spec (h : t.Ok) (c : Change HeaderField) :
    (t.apply c).Ok ∧ (t.apply c).maxSize = limitAfter t.maxSize [c] ∧
      (t.apply c).entryTable = change HeaderField.size t.maxSize t.entryTable c := by
  cases c with
  | push header => exact ⟨ok_insert h header, maxSize_insert h header, entryTable_insert h header⟩
  | setLimit size =>
    exact ⟨ok_setMaxSize h size, maxSize_setMaxSize h size, entryTable_setMaxSize h size⟩

theorem foldl_apply_spec (changes : List (Change HeaderField)) : ∀ t : HpackTable, t.Ok →
    (changes.foldl apply t).Ok ∧
      (changes.foldl apply t).maxSize = limitAfter t.maxSize changes ∧
      (changes.foldl apply t).entryTable =
        records HeaderField.size t.maxSize changes t.entryTable := by
  induction changes with
  | nil =>
    intro t h
    exact ⟨h, rfl, rfl⟩
  | cons c changes ih =>
    intro t h
    obtain ⟨hok, hsize, hentries⟩ := apply_spec h c
    obtain ⟨hok', hsize', hentries'⟩ := ih (t.apply c) hok
    refine ⟨hok', ?_, ?_⟩
    · rw [List.foldl_cons, hsize', hsize, ← limitAfter_append, List.singleton_append]
    · rw [List.foldl_cons, hentries', hsize, hentries, records]

end Changes

/-! ## Lookup misses nothing -/

/-- The fields that an index of the address space stands for. -/
def addressed (t : HpackTable) : List HeaderField := staticEntryTable ++ t.entryTable

section Lookup

variable {t : HpackTable}

theorem id2Index_of_latest {κ : Type} {f : HeaderField → κ} {k : κ} {id : Nat}
    (hid : Latest f t.entryTable (t.nextId - t.entryTable.length) k id) :
    ∃ i, t.id2Index id = some i ∧ i ≠ 0 := by
  obtain ⟨e, -, -, hle, -⟩ := hid.getElem?
  refine ⟨staticEntryTable.length + (t.nextId - id), ?_, ?_⟩
  · rw [id2Index]
    exact if_neg (by omega)
  · rw [length_staticEntryTable]
    omega

theorem findPair_isSome (h : t.Ok) {header : HeaderField} (hs : header.sensitivity = false)
    (hm : ∃ e ∈ t.addressed, e.name = header.name ∧ e.value = header.value) :
    ∃ i, t.findPair header = some i := by
  obtain ⟨e, he, hname, hvalue⟩ := hm
  rw [findPair, hs, if_neg Bool.false_ne_true]
  cases hstatic : staticNameValueTable.lookup (header.name, header.value) with
  | some i => exact ⟨i, rfl⟩
  | none =>
    rcases List.mem_append.1 he with he | he
    · refine absurd hstatic ?_
      rw [← hname, ← hvalue]
      exact (static_tables_agree.2.2.2 e he).2.1
    · obtain ⟨id, hid⟩ := exists_latest (f := HeaderField.pair)
        (t.nextId - t.entryTable.length) (k := header.pair)
        ⟨e, he, by rw [HeaderField.pair, HeaderField.pair, hname, hvalue]⟩
      obtain ⟨i, hi, -⟩ := id2Index_of_latest hid
      refine ⟨i, ?_⟩
      show (t.nameValueTable.lookup header.pair).bind t.id2Index = some i
      rw [(h.pairs _ _).2 hid]
      exact hi

theorem find_true_of_mem (h : t.Ok) {header : HeaderField} (hs : header.sensitivity = false)
    (hm : ∃ e ∈ t.addressed, e.name = header.name ∧ e.value = header.value) :
    (t.find header).1 = true := by
  obtain ⟨i, hi⟩ := findPair_isSome h hs hm
  rw [find, hi]

/-- Index zero is the answer only for a name that no addressed field has. -/
theorem find_ne_zero_of_mem (h : t.Ok) {header : HeaderField}
    (hm : ∃ e ∈ t.addressed, e.name = header.name) (hf : (t.find header).1 = false) :
    (t.find header).2 ≠ 0 := by
  obtain ⟨e, he, hname⟩ := hm
  revert hf
  rw [find]
  cases hpair : t.findPair header with
  | some i =>
    intro hf
    cases hf
  | none =>
    intro _
    cases hstatic : staticNameTable.lookup header.name with
    | some i => exact (staticNameTable_lookup hstatic).1.ne'
    | none =>
      rcases List.mem_append.1 he with he | he
      · refine absurd hstatic ?_
        rw [← hname]
        exact (static_tables_agree.2.2.2 e he).1
      · obtain ⟨id, hid⟩ := exists_latest (f := HeaderField.name)
          (t.nextId - t.entryTable.length) (k := header.name) ⟨e, he, hname⟩
        obtain ⟨i, hi, hne⟩ := id2Index_of_latest hid
        have hbind : (t.nameTable.lookup header.name).bind t.id2Index = some i := by
          rw [(h.names _ _).2 hid]
          exact hi
        rw [hbind]
        exact hne

theorem mem_addressed_of_at? {i : Nat} {e : HeaderField} (h : t.at? i = some e) :
    e ∈ t.addressed := by
  unfold at? at h
  split at h
  · cases h
  · split at h
    · exact List.mem_append_left _ (List.mem_of_getElem? h)
    · dsimp only at h
      split at h
      · cases h
      · exact List.mem_append_right _ (List.mem_of_getElem? h)

end Lookup

/-- `find` agrees with `at?` on a field. -/
structure FindAgrees (t : HpackTable) (header : HeaderField) : Prop where
  /-- A match of name and value is reported exactly where there is one to report. -/
  matched : (t.find header).1 = true ↔ header.sensitivity = false ∧
    ∃ e ∈ t.addressed, e.name = header.name ∧ e.value = header.value
  at_matched : (t.find header).1 = true → ∃ e, t.at? (t.find header).2 = some e ∧
    e.name = header.name ∧ e.value = header.value
  /-- Without a match the index is zero exactly for the names that occur nowhere. -/
  unnamed : (t.find header).1 = false →
    ((t.find header).2 = 0 ↔ ∀ e ∈ t.addressed, e.name ≠ header.name)
  at_named : (t.find header).1 = false → (t.find header).2 ≠ 0 →
    ∃ e, t.at? (t.find header).2 = some e ∧ e.name = header.name

theorem Ok.findAgrees {t : HpackTable} (h : t.Ok) (header : HeaderField) :
    t.FindAgrees header where
  matched := by
    refine ⟨fun hm => ?_, fun hm => find_true_of_mem h hm.1 hm.2⟩
    obtain ⟨hs, e, he, hname, hvalue, -⟩ := find_exact h (Prod.ext hm rfl)
    exact ⟨hs, e, mem_addressed_of_at? he, hname, hvalue⟩
  at_matched hm := by
    obtain ⟨-, e, he, hname, hvalue, -⟩ := find_exact h (Prod.ext hm rfl)
    exact ⟨e, he, hname, hvalue⟩
  unnamed hf := by
    constructor
    · intro h0 e he hname
      exact find_ne_zero_of_mem h ⟨e, he, hname⟩ hf h0
    · intro hnone
      rcases find_name h (Prod.ext hf rfl) with h0 | ⟨e, he, hname⟩
      · exact h0
      · exact absurd hname (hnone e (mem_addressed_of_at? he))
  at_named hf h0 := (find_name h (Prod.ext hf rfl)).resolve_left h0

/-- What holds of a table after any series of calls on an empty one. -/
structure Correct (t : HpackTable) (changes : List (Change HeaderField)) : Prop where
  maxSize : t.maxSize = limitAfter initMaxTableSize changes
  bytes : t.dynamicBytes =
    (t.entryTable.map fun e => e.name.length + e.value.length + 32).sum
  fits : t.dynamicBytes ≤ t.maxSize
  /-- The entries are the longest suffix of the inserted fields within every size limit so far. -/
  suffix : ∃ n, t.entryTable = (pushed changes).drop n ∧
    IsLeast {n | WithinLimits HeaderField.size initMaxTableSize changes n} n
  oversized : ∀ header : HeaderField, t.maxSize < header.size →
    (t.insert header).entryTable = []
  find : ∀ header, t.FindAgrees header

/-- Every table reached from an empty one by `insert` and `setMaxSize` keeps its byte count and its
limit, holds the longest suffix of what was inserted that the limits allowed, and answers `find` in
agreement with `at?`. -/
theorem afterChanges_correct (changes : List (Change HeaderField)) :
    (afterChanges changes).Correct changes := by
  obtain ⟨hok, hsize, hentries⟩ := foldl_apply_spec changes {} ok_empty
  refine ⟨hsize, hok.bytes, hok.fits, ?_, fun header hlt => ?_, hok.findAgrees⟩
  · obtain ⟨n, heq, hleast⟩ := @records_eq_drop _ HeaderField.size initMaxTableSize changes
    exact ⟨n, hentries.trans heq, hleast⟩
  · exact (entryTable_insert hok header).trans (evictTo_concat_of_lt hlt _)

end HpackTable

end Chttp2
