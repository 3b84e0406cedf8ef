import Chttp2.Hpack.StaticTable
import Chttp2.Lib.EvictingFifo

/-!
# The HPACK table

`HpackTable` of `table.cpp`: the dynamic table in insertion order, its two lookup maps from a key to
the monotonic id of the latest entry with that key, and the index address space over the static and
the dynamic table. Ids and sizes are natural numbers; the counters of the source have 64 bits.

`HpackTable.Ok` is the invariant of the table. `setMaxSize` and `insert` keep it and act on the
entries by eviction of the oldest ones (`entryTable_setMaxSize`, `entryTable_insert`), and under it
`find` returns indices at which `at?` finds the field (`find_exact`, `find_name`).
-/

set_option autoImplicit false

namespace Chttp2

/-- `INIT_MAX_TABLE_SIZE`. -/
def initMaxTableSize : Nat := 4096

/-- `entryTable` holds the dynamic entries, oldest first. -/
structure HpackTable where
  nameTable : LatestIndex Bytes := .empty
  nameValueTable : LatestIndex (Bytes × Bytes) := .empty
  entryTable : List HeaderField := []
  maxSize : Nat := initMaxTableSize
  nextId : Nat := 1
  dynamicBytes : Nat := 0
  deriving DecidableEq

/-- The key of `nameValueTable`. -/
def HeaderField.pair (h : HeaderField) : Bytes × Bytes := (h.name, h.value)

namespace HpackTable

open EvictingFifo LatestIndex

/-- `none` stands for `false`: the entry has been evicted. -/
def id2Index (t : HpackTable) (id : Nat) : Option Nat :=
  let oldestId := t.nextId - t.entryTable.length
  if id < oldestId then none
  else some (staticEntryTable.length + (t.nextId - id))

/-- The lookup of name and value, which `find` skips for a sensitive field. -/
def findPair (t : HpackTable) (header : HeaderField) : Option Nat :=
  if header.sensitivity then none
  else
    match staticNameValueTable.lookup (header.name, header.value) with
    | some index => some index
    | none => (t.nameValueTable.lookup header.pair).bind t.id2Index

/-- `find`: whether name and value match, and the index. -/
def find (t : HpackTable) (header : HeaderField) : Bool × Nat :=
  match t.findPair header with
  | some index => (true, index)
  | none =>
    match staticNameTable.lookup header.name with
    | some index => (false, index)
    | none =>
      match (t.nameTable.lookup header.name).bind t.id2Index with
      | some index => (false, index)
      | none => (false, 0)

/-- One round of the loop of `evict`, for the oldest entry. -/
def evictOne (t : HpackTable) (header : HeaderField) (id : Nat) : HpackTable :=
  { t with
    dynamicBytes := t.dynamicBytes - header.size
    nameTable := t.nameTable.dropOldest HeaderField.name header id
    nameValueTable := t.nameValueTable.dropOldest HeaderField.pair header id }

/-- The loop of `evict`: the entries from the one with the number `id` on. -/
def evictLoop : List HeaderField → Nat → HpackTable → HpackTable
  | [], _, t => { t with entryTable := [] }
  | header :: rest, id, t =>
    if t.dynamicBytes > t.maxSize then evictLoop rest (id + 1) (t.evictOne header id)
    else { t with entryTable := header :: rest }

/-- `evict`: the oldest entries go until the table fits. -/
def evict (t : HpackTable) : HpackTable :=
  evictLoop t.entryTable (t.nextId - t.entryTable.length) t

/-- `setMaxSize`. -/
def setMaxSize (t : HpackTable) (size : Nat) : HpackTable := { t with maxSize := size }.evict

/-- An entry at the end of the table, with its places in the two indexes. -/
def addEntry (t : HpackTable) (header : HeaderField) : HpackTable :=
  { t with
    nameTable := t.nameTable.push HeaderField.name header t.nextId
    nameValueTable := t.nameValueTable.push HeaderField.pair header t.nextId
    entryTable := t.entryTable ++ [header]
    nextId := t.nextId + 1 }

/-- `insert`: the entry is added first and may be evicted at once. -/
def insert (t : HpackTable) (header : HeaderField) : HpackTable :=
  let t := t.addEntry header
  { t with dynamicBytes := t.dynamicBytes + header.size }.evict

/-- `at`; `none` stands for `false`. -/
def at? (t : HpackTable) (index : Nat) : Option HeaderField :=
  if index = 0 then none
  else if index ≤ staticEntryTable.length then staticEntryTable[index - 1]?
  else
    let dynamicIdx := index - staticEntryTable.length
    if dynamicIdx = 0 ∨ dynamicIdx > t.entryTable.length then none
    else t.entryTable[t.entryTable.length - dynamicIdx]?

/-! ## The invariant -/

/-- The lookup maps and the byte count agree with the entries. -/
structure Indexed (t : HpackTable) : Prop where
  bytes : t.dynamicBytes = total HeaderField.size t.entryTable
  nextId : t.entryTable.length < t.nextId
  names : Tracks HeaderField.name t.nameTable t.entryTable (t.nextId - t.entryTable.length)
  pairs : Tracks HeaderField.pair t.nameValueTable t.entryTable (t.nextId - t.entryTable.length)

/-- The invariant of the table between operations. -/
structure Ok (t : HpackTable) : Prop extends Indexed t where
  fits : t.dynamicBytes ≤ t.maxSize

theorem ok_empty : ({} : HpackTable).Ok where
  bytes := rfl
  nextId := by decide
  names := tracks_empty _
  pairs := tracks_empty _
  fits := by decide

theorem evictLoop_spec (l : List HeaderField) : ∀ (t : HpackTable) (id : Nat),
    t.entryTable = l → t.Indexed → id = t.nextId - l.length →
    (evictLoop l id t).Ok ∧ (evictLoop l id t).entryTable = evictTo HeaderField.size t.maxSize l ∧
      (evictLoop l id t).maxSize = t.maxSize := by
  induction l with
  | nil =>
    intro t id hl h _
    have h0 : t.dynamicBytes = 0 := by rw [h.bytes, hl]; rfl
    have ht : { t with entryTable := [] } = t := by rw [← hl]
    rw [evictLoop, ht]
    exact ⟨⟨h, by omega⟩, hl, rfl⟩
  | cons header rest ih =>
    intro t id hl h hid
    obtain ⟨h1, h2, h3, h4⟩ := h
    rw [hl] at h1 h2 h3 h4
    rw [evictLoop, evictTo, ← h1]
    simp only [List.length_cons] at h2 h3 h4 hid
    split
    · have hsub : t.nextId - rest.length = t.nextId - (rest.length + 1) + 1 := by omega
      have key := ih { t.evictOne header id with entryTable := rest } (id + 1) rfl
        ⟨?_, ?_, ?_, ?_⟩ ?_
      · -- the loop does not read the entries of the table it carries
        have hirr : ∀ (l : List HeaderField) (id : Nat) (t : HpackTable) (es : List HeaderField),
            evictLoop l id { t with entryTable := es } = evictLoop l id t := by
          intro l
          induction l with
          | nil => intro id t es; rfl
          | cons x xs ih =>
            intro id t es
            rw [evictLoop, evictLoop]
            dsimp only
            split
            · exact ih (id + 1) (t.evictOne x id) es
            · rfl
        rw [hirr] at key
        exact key
      · show t.dynamicBytes - header.size = total HeaderField.size rest
        rw [h1, total_cons]
        omega
      · show rest.length < t.nextId
        omega
      · show Tracks _ (t.nameTable.dropOldest HeaderField.name header id) rest
          (t.nextId - rest.length)
        rw [hsub, hid]
        exact h3.dropOldest
      · show Tracks _ (t.nameValueTable.dropOldest HeaderField.pair header id) rest
          (t.nextId - rest.length)
        rw [hsub, hid]
        exact h4.dropOldest
      · show id + 1 = t.nextId - rest.length
        omega
    · have ht : { t with entryTable := header :: rest } = t := by rw [← hl]
      rw [ht]
      refine ⟨⟨⟨by rw [h1, hl], by rw [hl]; exact h2, by rw [hl]; exact h3, by rw [hl]; exact h4⟩,
        by omega⟩, hl, rfl⟩

theorem evict_spec {t : HpackTable} (h : t.Indexed) :
    t.evict.Ok ∧ t.evict.entryTable = evictTo HeaderField.size t.maxSize t.entryTable ∧
      t.evict.maxSize = t.maxSize :=
  evictLoop_spec t.entryTable t _ rfl h rfl

section Operations

variable {t : HpackTable}

theorem ok_setMaxSize (h : t.Ok) (size : Nat) : (t.setMaxSize size).Ok :=
  (evict_spec (t := { t with maxSize := size }) ⟨h.bytes, h.nextId, h.names, h.pairs⟩).1

theorem entryTable_setMaxSize (h : t.Ok) (size : Nat) :
    (t.setMaxSize size).entryTable = evictTo HeaderField.size size t.entryTable :=
  (evict_spec (t := { t with maxSize := size }) ⟨h.bytes, h.nextId, h.names, h.pairs⟩).2.1

theorem maxSize_setMaxSize (h : t.Ok) (size : Nat) : (t.setMaxSize size).maxSize = size :=
  (evict_spec (t := { t with maxSize := size }) ⟨h.bytes, h.nextId, h.names, h.pairs⟩).2.2

theorem insert_spec (h : t.Ok) (header : HeaderField) :
    (t.insert header).Ok ∧ (t.insert header).entryTable =
      evictTo HeaderField.size t.maxSize (t.entryTable ++ [header]) ∧
      (t.insert header).maxSize = t.maxSize := by
  have hlt := h.nextId
  have hbase : t.nextId + 1 - (t.entryTable.length + 1) = t.nextId - t.entryTable.length := by omega
  have hid : t.nextId = t.nextId - t.entryTable.length + t.entryTable.length := by omega
  refine evict_spec (t := { t.addEntry header with
    dynamicBytes := t.dynamicBytes + header.size }) ⟨?_, ?_, ?_, ?_⟩
  · show t.dynamicBytes + header.size = total HeaderField.size (t.entryTable ++ [header])
    rw [h.bytes]
    simp
  · show (t.entryTable ++ [header]).length < t.nextId + 1
    simp
    omega
  · show Tracks _ (t.nameTable.push HeaderField.name header t.nextId) (t.entryTable ++ [header])
      (t.nextId + 1 - (t.entryTable ++ [header]).length)
    rw [List.length_append, List.length_singleton, hbase]
    have := h.names.push header
    rwa [← hid] at this
  · show Tracks _ (t.nameValueTable.push HeaderField.pair header t.nextId)
      (t.entryTable ++ [header]) (t.nextId + 1 - (t.entryTable ++ [header]).length)
    rw [List.length_append, List.length_singleton, hbase]
    have := h.pairs.push header
    rwa [← hid] at this

theorem ok_insert (h : t.Ok) (header : HeaderField) : (t.insert header).Ok :=
  (insert_spec h header).1

theorem entryTable_insert (h : t.Ok) (header : HeaderField) : (t.insert header).entryTable =
    evictTo HeaderField.size t.maxSize (t.entryTable ++ [header]) :=
  (insert_spec h header).2.1

theorem maxSize_insert (h : t.Ok) (header : HeaderField) :
    (t.insert header).maxSize = t.maxSize :=
  (insert_spec h header).2.2

/-- Every entry takes at least 32 bytes of the table. -/
theorem length_entryTable_le (h : t.Ok) : 32 * t.entryTable.length ≤ t.maxSize := by
  have hle : ∀ l : List HeaderField, 32 * l.length ≤ total HeaderField.size l := by
    intro l
    induction l with
    | nil => exact Nat.le_refl 0
    | cons a l ih =>
      rw [total_cons, List.length_cons, HeaderField.size]
      omega
  have := hle t.entryTable
  have := h.bytes
  have := h.fits
  omega

/-! ## Lookup -/

theorem at?_bounds {i : Nat} {e : HeaderField} (h : t.at? i = some e) :
    0 < i ∧ i ≤ 61 + t.entryTable.length := by
  unfold at? at h
  rw [length_staticEntryTable] at h
  split at h
  · cases h
  · split at h
    · exact ⟨by omega, by omega⟩
    · dsimp only at h
      split at h
      · cases h
      · exact ⟨by omega, by omega⟩

/-- The address space depends on the dynamic entries alone. -/
theorem at?_congr {u : HpackTable} (h : t.entryTable = u.entryTable) (i : Nat) :
    t.at? i = u.at? i := by
  unfold at?
  rw [h]

theorem at?_static {i : Nat} (h0 : 0 < i) {e : HeaderField}
    (h : staticEntryTable[i - 1]? = some e) : t.at? i = some e := by
  have hlt := (List.getElem?_eq_some_iff.1 h).1
  rw [at?, if_neg (by omega), if_pos (by omega), h]

/-- The index of a live id points at the entry with that id. -/
theorem at?_of_id2Index (hok : t.Ok) {κ : Type} {f : HeaderField → κ} {k : κ} {id i : Nat}
    (h : Latest f t.entryTable (t.nextId - t.entryTable.length) k id)
    (hi : t.id2Index id = some i) : ∃ e, t.at? i = some e ∧ f e = k ∧ e ∈ t.entryTable := by
  obtain ⟨e, he, hk, h1, h2⟩ := h.getElem?
  have hlt := hok.nextId
  rw [id2Index] at hi
  rw [if_neg (by omega)] at hi
  cases hi
  refine ⟨e, ?_, hk, List.mem_of_getElem? he⟩
  rw [at?, if_neg (by omega), if_neg (by omega)]
  dsimp only
  rw [if_neg (by omega), ← he]
  congr 1
  omega

/-- An exact match: the index holds the name and the value of the field. -/
theorem find_exact (hok : t.Ok) {header : HeaderField} {i : Nat}
    (h : t.find header = (true, i)) :
    header.sensitivity = false ∧ ∃ e, t.at? i = some e ∧ e.name = header.name ∧
      e.value = header.value ∧ (e ∈ t.entryTable ∨ e.sensitivity = false) := by
  have hpair : t.findPair header = some i := by
    unfold find at h
    split at h
    · rename_i j hj
      cases h
      exact hj
    · split at h
      · cases h
      · split at h <;> cases h
  unfold findPair at hpair
  split at hpair
  · cases hpair
  · rename_i hs
    refine ⟨by simpa using hs, ?_⟩
    split at hpair
    · rename_i j hj
      cases hpair
      obtain ⟨h0, he⟩ := staticNameValueTable_lookup hj
      exact ⟨_, at?_static h0 he, rfl, rfl, Or.inr rfl⟩
    · obtain ⟨id, hid, hidx⟩ := Option.bind_eq_some_iff.1 hpair
      obtain ⟨e, he, hk, hm⟩ := at?_of_id2Index hok ((hok.pairs _ _).1 hid) hidx
      have hk' : e.name = header.name ∧ e.value = header.value := by
        simpa [HeaderField.pair] using hk
      exact ⟨e, he, hk'.1, hk'.2, Or.inl hm⟩

/-- No exact match: the index is zero or holds the name of the field. -/
theorem find_name (hok : t.Ok) {header : HeaderField} {i : Nat}
    (h : t.find header = (false, i)) : i = 0 ∨ ∃ e, t.at? i = some e ∧ e.name = header.name := by
  unfold find at h
  split at h
  · cases h
  · split at h
    · rename_i j hj
      cases h
      obtain ⟨h0, e, he, hn⟩ := staticNameTable_lookup hj
      exact Or.inr ⟨e, at?_static h0 he, hn⟩
    · split at h
      · rename_i j hj
        cases h
        obtain ⟨id, hid, hidx⟩ := Option.bind_eq_some_iff.1 hj
        obtain ⟨e, he, hk, -⟩ := at?_of_id2Index hok ((hok.names _ _).1 hid) hidx
        exact Or.inr ⟨e, he, hk⟩
      · cases h
        exact Or.inl rfl

end Operations

end HpackTable

end Chttp2
