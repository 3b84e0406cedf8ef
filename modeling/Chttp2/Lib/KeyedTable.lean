import Mathlib.Algebra.BigOperators.Group.List.Basic
import Mathlib.Algebra.Order.Monoid.Canonical.Defs
import Mathlib.Data.List.Basic
import Mathlib.Data.List.Nodup
import Mathlib.Data.List.Perm.Basic

/-!
# Tables of records keyed by one of their fields

A `KeyedTable key` is a finite table whose entries are records and whose key is read off the
record by `key`; no two entries share a key. The entries stand in iteration order. Replacing and
erasing an entry keep that order, and an insertion may reorder the whole table (`Reorder`), which
is the guarantee of a hash table whose insertions rehash.

The lookup of a key after each operation is given by `find?_set`, `find?_erase` and
`find?_insert`; `mem_iff_find?` identifies membership with lookup. `total` adds up a measure of the
entries.
-/

set_option autoImplicit false

/-- A table of records of type `α` with pairwise distinct keys, in iteration order. -/
structure KeyedTable {κ : Type*} {α : Type*} (key : α → κ) where
  entries : List α
  nodup : (entries.map key).Nodup

/-- A reordering of lists: what a rehash may do to the iteration order. -/
structure Reorder (α : Type*) where
  order : List α → List α
  perm : ∀ l, (order l).Perm l

/-- The reordering that keeps every list as it is. -/
def Reorder.id (α : Type*) : Reorder α := ⟨fun l => l, fun l => List.Perm.refl l⟩

namespace KeyedTable

variable {κ : Type*} {α : Type*} {key : α → κ}

@[ext] theorem ext {t u : KeyedTable key} (h : t.entries = u.entries) : t = u := by
  cases t
  cases u
  simp only at h
  subst h
  rfl

instance [DecidableEq α] : DecidableEq (KeyedTable key) := fun t u =>
  decidable_of_iff (t.entries = u.entries) ⟨ext, fun h => h ▸ rfl⟩

/-- The table without entries. -/
def empty : KeyedTable key := ⟨[], List.nodup_nil⟩

/-- The keys in iteration order. -/
def keys (t : KeyedTable key) : List κ := t.entries.map key

/-- The number of entries. -/
def size (t : KeyedTable key) : Nat := t.entries.length

@[simp] theorem entries_empty : (empty : KeyedTable key).entries = [] := rfl

@[simp] theorem keys_empty : (empty : KeyedTable key).keys = [] := rfl

@[simp] theorem size_empty : (empty : KeyedTable key).size = 0 := rfl

theorem eq_empty_of_keys {t : KeyedTable key} (h : t.keys = []) : t = empty :=
  ext (List.map_eq_nil_iff.1 h)

theorem nodup_keys (t : KeyedTable key) : t.keys.Nodup := t.nodup

theorem mem_keys {t : KeyedTable key} {k : κ} : k ∈ t.keys ↔ ∃ a ∈ t.entries, key a = k := by
  simp [keys]

theorem key_mem_keys {t : KeyedTable key} {a : α} (h : a ∈ t.entries) : key a ∈ t.keys :=
  mem_keys.2 ⟨a, h, rfl⟩

/-- Entries with equal keys are equal. -/
theorem eq_of_key_eq {t : KeyedTable key} {a b : α} (ha : a ∈ t.entries) (hb : b ∈ t.entries)
    (h : key a = key b) : a = b :=
  List.inj_on_of_nodup_map t.nodup ha hb h

/-- The entries whose keys are in a set. -/
def restrict (t : KeyedTable key) (S : κ → Prop) [DecidablePred S] : KeyedTable key where
  entries := t.entries.filter fun a => S (key a)
  nodup := (List.filter_sublist.map key).nodup t.nodup

theorem mem_restrict {S : κ → Prop} [DecidablePred S] {t : KeyedTable key} {a : α} :
    a ∈ (t.restrict S).entries ↔ a ∈ t.entries ∧ S (key a) := by
  simp [restrict]

theorem keys_restrict (t : KeyedTable key) (S : κ → Prop) [DecidablePred S] :
    (t.restrict S).keys = t.keys.filter fun k => S k := by
  unfold keys restrict
  rw [List.filter_map]
  rfl

theorem restrict_restrict (t : KeyedTable key) (S : κ → Prop) [DecidablePred S] :
    (t.restrict S).restrict S = t.restrict S :=
  ext (List.filter_filter.trans (List.filter_congr fun _ _ => Bool.and_self _))

/-- Replace every record by one with the same key. -/
def map (t : KeyedTable key) (f : α → α) (hf : ∀ a, key (f a) = key a) : KeyedTable key where
  entries := t.entries.map f
  nodup := by
    have hkeys : (t.entries.map f).map key = t.entries.map key := by
      rw [List.map_map]
      exact List.map_congr_left fun a _ => hf a
    rw [hkeys]
    exact t.nodup

variable [DecidableEq κ]

/-- The entry with key `k`. -/
def find? (t : KeyedTable key) (k : κ) : Option α := t.entries.find? fun a => key a = k

/-- Remove the entry with key `k`. -/
def erase (t : KeyedTable key) (k : κ) : KeyedTable key where
  entries := t.entries.filter fun a => key a ≠ k
  nodup := (List.filter_sublist.map key).nodup t.nodup

/-- Overwrite the entry that has the key of `a`; a table without such an entry is unchanged. -/
def set (t : KeyedTable key) (a : α) : KeyedTable key where
  entries := t.entries.map fun b => if key b = key a then a else b
  nodup := by
    have h : (t.entries.map fun b => if key b = key a then a else b).map key =
        t.entries.map key := by
      rw [List.map_map]
      refine List.map_congr_left fun b _ => ?_
      by_cases hb : key b = key a <;> simp [hb]
    rw [h]
    exact t.nodup

/-- Insert `a`, replacing an entry with the same key; the iteration order afterwards is whatever
the reordering makes of it. -/
def insert (t : KeyedTable key) (σ : Reorder α) (a : α) : KeyedTable key where
  entries := σ.order (a :: (t.erase (key a)).entries)
  nodup := by
    refine (((σ.perm _).map key).nodup_iff).2 ?_
    rw [List.map_cons, List.nodup_cons]
    refine ⟨?_, (t.erase (key a)).nodup⟩
    simp [erase]

theorem find?_eq_some_iff {t : KeyedTable key} {k : κ} {a : α} :
    t.find? k = some a ↔ a ∈ t.entries ∧ key a = k := by
  constructor
  · intro h
    exact ⟨List.mem_of_find?_eq_some h, by simpa using List.find?_some h⟩
  · rintro ⟨ha, rfl⟩
    cases h : t.find? (key a) with
    | none =>
      have := List.find?_eq_none.1 h a ha
      simp at this
    | some b =>
      have hb : key b = key a := by simpa using List.find?_some h
      rw [eq_of_key_eq (List.mem_of_find?_eq_some h) ha hb]

theorem mem_iff_find? {t : KeyedTable key} {a : α} :
    a ∈ t.entries ↔ t.find? (key a) = some a := by
  rw [find?_eq_some_iff]
  simp

theorem mem_of_find? {t : KeyedTable key} {k : κ} {a : α} (h : t.find? k = some a) :
    a ∈ t.entries :=
  (find?_eq_some_iff.1 h).1

theorem key_of_find? {t : KeyedTable key} {k : κ} {a : α} (h : t.find? k = some a) :
    key a = k :=
  (find?_eq_some_iff.1 h).2

theorem find?_eq_none_iff {t : KeyedTable key} {k : κ} : t.find? k = none ↔ k ∉ t.keys := by
  rw [mem_keys, find?, List.find?_eq_none]
  simp

theorem mem_keys_iff_find? {t : KeyedTable key} {k : κ} :
    k ∈ t.keys ↔ ∃ a, t.find? k = some a := by
  rw [mem_keys]
  constructor
  · rintro ⟨a, ha, hk⟩
    exact ⟨a, find?_eq_some_iff.2 ⟨ha, hk⟩⟩
  · rintro ⟨a, ha⟩
    exact ⟨a, find?_eq_some_iff.1 ha⟩

theorem mem_keys_of_find? {t : KeyedTable key} {k : κ} {a : α} (h : t.find? k = some a) :
    k ∈ t.keys :=
  mem_keys_iff_find?.2 ⟨a, h⟩

@[simp] theorem find?_empty (k : κ) : (empty : KeyedTable key).find? k = none := rfl

/-- Tables with the same lookups have the same entries. -/
theorem perm_of_find? {t u : KeyedTable key} (h : ∀ k, t.find? k = u.find? k) :
    t.entries.Perm u.entries := by
  refine (List.perm_ext_iff_of_nodup (List.Nodup.of_map key t.nodup)
    (List.Nodup.of_map key u.nodup)).2 fun a => ?_
  rw [mem_iff_find?, mem_iff_find?, h]

/-- The entries are what the keys find, in iteration order. -/
theorem entries_eq_filterMap (t : KeyedTable key) : t.entries = t.keys.filterMap t.find? := by
  have hfind : ∀ a ∈ t.entries, (t.find? ∘ key) a = some a := fun a ha => mem_iff_find?.1 ha
  rw [keys, List.filterMap_map, List.filterMap_congr hfind, List.filterMap_some]

/-- A table that finds the image of what another one finds, in the same iteration order. -/
theorem entries_eq_map {t u : KeyedTable key} {f : α → α} (hkeys : t.keys = u.keys)
    (hfind : ∀ k ∈ u.keys, t.find? k = (u.find? k).map f) : t.entries = u.entries.map f := by
  rw [t.entries_eq_filterMap, u.entries_eq_filterMap, hkeys, List.filterMap_congr hfind,
    List.map_filterMap]

/-! ## Erasing -/

theorem mem_erase {t : KeyedTable key} {k : κ} {a : α} :
    a ∈ (t.erase k).entries ↔ a ∈ t.entries ∧ key a ≠ k := by
  simp [erase]

@[simp] theorem keys_erase (t : KeyedTable key) (k : κ) :
    (t.erase k).keys = t.keys.filter fun j => j ≠ k := by
  simp only [keys, erase, List.filter_map]
  rfl

theorem find?_erase_self (t : KeyedTable key) (k : κ) : (t.erase k).find? k = none := by
  rw [find?_eq_none_iff]
  simp

theorem find?_erase_ne (t : KeyedTable key) {k j : κ} (h : j ≠ k) :
    (t.erase k).find? j = t.find? j := by
  apply Option.ext
  intro a
  rw [find?_eq_some_iff, find?_eq_some_iff, mem_erase]
  constructor
  · rintro ⟨⟨ha, -⟩, hj⟩
    exact ⟨ha, hj⟩
  · rintro ⟨ha, rfl⟩
    exact ⟨⟨ha, h⟩, rfl⟩

/-- Erasing an absent key changes nothing. -/
theorem erase_of_not_mem {t : KeyedTable key} {k : κ} (h : k ∉ t.keys) : t.erase k = t := by
  apply ext
  simp only [erase, List.filter_eq_self]
  intro a ha
  have : key a ≠ k := fun hk => h (mem_keys.2 ⟨a, ha, hk⟩)
  simpa using this

/-- The entry of a key and the entries of the other keys. -/
theorem perm_erase {t : KeyedTable key} {k : κ} {a : α} (h : t.find? k = some a) :
    t.entries.Perm (a :: (t.erase k).entries) := by
  have hkey := key_of_find? h
  have hnot : a ∉ (t.erase k).entries := fun ha => (mem_erase.1 ha).2 hkey
  have hnodup := List.nodup_cons.2 ⟨hnot, List.Nodup.of_map key (t.erase k).nodup⟩
  refine (List.perm_ext_iff_of_nodup (List.Nodup.of_map key t.nodup) hnodup).2 fun b => ?_
  rw [List.mem_cons, mem_erase]
  constructor
  · intro hb
    by_cases hbk : key b = k
    · exact Or.inl (eq_of_key_eq hb (mem_of_find? h) (hbk.trans hkey.symm))
    · exact Or.inr ⟨hb, hbk⟩
  · rintro (rfl | ⟨hb, -⟩)
    · exact mem_of_find? h
    · exact hb

/-! ## Overwriting -/

@[simp] theorem keys_set (t : KeyedTable key) (a : α) : (t.set a).keys = t.keys := by
  simp only [keys, set, List.map_map]
  refine List.map_congr_left fun b _ => ?_
  by_cases hb : key b = key a <;> simp [hb]

@[simp] theorem size_set (t : KeyedTable key) (a : α) : (t.set a).size = t.size := by
  simp [size, set]

theorem mem_set {t : KeyedTable key} {a b : α} :
    b ∈ (t.set a).entries ↔ (b = a ∧ key a ∈ t.keys) ∨ (b ∈ t.entries ∧ key b ≠ key a) := by
  simp only [set, List.mem_map, mem_keys]
  constructor
  · rintro ⟨c, hc, rfl⟩
    by_cases h : key c = key a
    · rw [if_pos h]
      exact Or.inl ⟨rfl, c, hc, h⟩
    · rw [if_neg h]
      exact Or.inr ⟨hc, h⟩
  · rintro (⟨rfl, c, hc, h⟩ | ⟨hb, h⟩)
    · exact ⟨c, hc, if_pos h⟩
    · exact ⟨b, hb, if_neg h⟩

theorem find?_set_ne (t : KeyedTable key) {a : α} {k : κ} (h : k ≠ key a) :
    (t.set a).find? k = t.find? k := by
  apply Option.ext
  intro b
  rw [find?_eq_some_iff, find?_eq_some_iff, mem_set]
  constructor
  · rintro ⟨⟨rfl, -⟩ | ⟨hb, -⟩, hk⟩
    · exact absurd hk.symm h
    · exact ⟨hb, hk⟩
  · rintro ⟨hb, rfl⟩
    exact ⟨Or.inr ⟨hb, h⟩, rfl⟩

theorem find?_set_self {t : KeyedTable key} {a : α} (h : key a ∈ t.keys) :
    (t.set a).find? (key a) = some a := by
  rw [find?_eq_some_iff, mem_set]
  exact ⟨Or.inl ⟨rfl, h⟩, rfl⟩

/-- Lookup after overwriting an entry that is in the table. -/
theorem find?_set {t : KeyedTable key} {a : α} (h : key a ∈ t.keys) (k : κ) :
    (t.set a).find? k = if k = key a then some a else t.find? k := by
  by_cases hk : k = key a
  · subst hk
    rw [if_pos rfl, find?_set_self h]
  · rw [if_neg hk, find?_set_ne t hk]

/-- Lookup after the record of a present key has been replaced. -/
theorem find?_set_of_find? {t : KeyedTable key} {a b : α} {k : κ} (h : t.find? k = some a)
    (hb : key b = k) (j : κ) : (t.set b).find? j = if j = k then some b else t.find? j := by
  subst hb
  exact find?_set (mem_keys_of_find? h) j

theorem set_set (t : KeyedTable key) {a b : α} (h : key a = key b) : (t.set a).set b = t.set b := by
  apply ext
  simp only [set, List.map_map]
  refine List.map_congr_left fun c _ => ?_
  by_cases hc : key c = key b <;> simp [hc, h]

theorem erase_set (t : KeyedTable key) (a : α) : (t.set a).erase (key a) = t.erase (key a) := by
  apply ext
  simp only [set, erase]
  induction t.entries with
  | nil => rfl
  | cons b bs ih =>
    by_cases hb : key b = key a
    · simpa [hb] using ih
    · simpa [hb] using ih

/-! ## Erasing a list of keys -/

/-- Remove the entries with the keys of a list, one after the other. -/
def eraseAll (t : KeyedTable key) (ks : List κ) : KeyedTable key := ks.foldl erase t

@[simp] theorem eraseAll_nil (t : KeyedTable key) : t.eraseAll [] = t := rfl

theorem eraseAll_cons (t : KeyedTable key) (k : κ) (ks : List κ) :
    t.eraseAll (k :: ks) = (t.erase k).eraseAll ks := rfl

theorem mem_eraseAll {ks : List κ} {a : α} : ∀ {t : KeyedTable key},
    a ∈ (t.eraseAll ks).entries ↔ a ∈ t.entries ∧ key a ∉ ks := by
  induction ks with
  | nil =>
    intro t
    simp
  | cons k ks ih =>
    intro t
    rw [eraseAll_cons, ih, mem_erase, List.mem_cons, not_or, and_assoc]

theorem keys_erase_subset (t : KeyedTable key) (k : κ) : (t.erase k).keys ⊆ t.keys := by
  rw [keys_erase]
  exact List.filter_subset_self _

theorem mem_keys_eraseAll {t : KeyedTable key} {ks : List κ} {k : κ} :
    k ∈ (t.eraseAll ks).keys ↔ k ∈ t.keys ∧ k ∉ ks := by
  simp only [mem_keys, mem_eraseAll]
  constructor
  · rintro ⟨a, ⟨ha, hk⟩, rfl⟩
    exact ⟨⟨a, ha, rfl⟩, hk⟩
  · rintro ⟨⟨a, ha, rfl⟩, hk⟩
    exact ⟨a, ⟨ha, hk⟩, rfl⟩

/-- Erasing every key leaves nothing. -/
theorem eraseAll_keys (t : KeyedTable key) : t.eraseAll t.keys = empty := by
  apply ext
  rw [entries_empty, List.eq_nil_iff_forall_not_mem]
  intro a ha
  rw [mem_eraseAll] at ha
  exact ha.2 (key_mem_keys ha.1)

/-! ## Restricting to some keys -/

section Restrict

variable {S : κ → Prop} [DecidablePred S]

theorem find?_restrict (t : KeyedTable key) (k : κ) :
    (t.restrict S).find? k = if S k then t.find? k else none := by
  split
  · rename_i hk
    cases hfind : t.find? k with
    | none =>
      rw [find?_eq_none_iff] at hfind ⊢
      rw [keys_restrict]
      exact fun hmem => hfind (List.mem_filter.1 hmem).1
    | some a =>
      obtain ⟨hmem, hkey⟩ := find?_eq_some_iff.1 hfind
      exact find?_eq_some_iff.2 ⟨mem_restrict.2 ⟨hmem, hkey.symm ▸ hk⟩, hkey⟩
  · rename_i hk
    rw [find?_eq_none_iff, keys_restrict]
    exact fun hmem => hk (by simpa using (List.mem_filter.1 hmem).2)

theorem restrict_set (t : KeyedTable key) (a : α) : (t.set a).restrict S = (t.restrict S).set a := by
  ext1
  show (t.entries.map _).filter _ = (t.entries.filter _).map _
  rw [List.filter_map]
  congr 1
  refine List.filter_congr fun b _ => ?_
  by_cases hb : key b = key a
  · simp [hb]
  · simp [hb]

theorem restrict_erase (t : KeyedTable key) (k : κ) :
    (t.erase k).restrict S = (t.restrict S).erase k := by
  ext1
  show (t.entries.filter _).filter _ = (t.entries.filter _).filter _
  rw [List.filter_filter, List.filter_filter]
  exact List.filter_congr fun b _ => Bool.and_comm _ _

/-- Erasing the other keys one after the other. -/
theorem eraseAll_filter (t : KeyedTable key) :
    t.eraseAll (t.keys.filter fun k => ¬ S k) = t.restrict S := by
  have hfilter : ∀ (ks : List κ) (t : KeyedTable key),
      (t.eraseAll ks).entries = t.entries.filter fun a => key a ∉ ks := by
    intro ks
    induction ks with
    | nil => simp
    | cons k ks ih =>
      intro t
      rw [eraseAll_cons, ih, erase, List.filter_filter]
      refine List.filter_congr fun b _ => ?_
      simp [not_or, Bool.and_comm]
  ext1
  rw [hfilter]
  refine List.filter_congr fun b hb => ?_
  have hkey : key b ∈ t.keys := key_mem_keys hb
  simp [hkey]

end Restrict

/-! ## Inserting -/

theorem mem_insert {t : KeyedTable key} {σ : Reorder α} {a b : α} :
    b ∈ (t.insert σ a).entries ↔ b = a ∨ (b ∈ t.entries ∧ key b ≠ key a) := by
  simp only [insert, (σ.perm _).mem_iff, List.mem_cons, mem_erase]

theorem perm_insert (t : KeyedTable key) (σ : Reorder α) (a : α) :
    (t.insert σ a).entries.Perm (a :: (t.erase (key a)).entries) := σ.perm _

/-- The first entry has no other one to be reordered with. -/
theorem insert_empty (σ τ : Reorder α) (a : α) :
    (empty : KeyedTable key).insert σ a = empty.insert τ a := by
  have hone : ∀ σ : Reorder α, ((empty : KeyedTable key).insert σ a).entries = [a] :=
    fun σ => List.perm_singleton.1 (perm_insert empty σ a)
  exact ext ((hone σ).trans (hone τ).symm)

theorem find?_insert (t : KeyedTable key) (σ : Reorder α) (a : α) (k : κ) :
    (t.insert σ a).find? k = if k = key a then some a else t.find? k := by
  apply Option.ext
  intro b
  rw [find?_eq_some_iff, mem_insert]
  by_cases hk : k = key a
  · rw [if_pos hk]
    constructor
    · rintro ⟨rfl | ⟨-, hne⟩, hb⟩
      · rfl
      · exact absurd (hb.trans hk) hne
    · intro h
      cases h
      exact ⟨Or.inl rfl, hk.symm⟩
  · rw [if_neg hk, find?_eq_some_iff]
    constructor
    · rintro ⟨rfl | ⟨hb, -⟩, hkey⟩
      · exact absurd hkey.symm hk
      · exact ⟨hb, hkey⟩
    · rintro ⟨hb, rfl⟩
      exact ⟨Or.inr ⟨hb, hk⟩, rfl⟩

theorem mem_keys_insert {t : KeyedTable key} {σ : Reorder α} {a : α} {k : κ} :
    k ∈ (t.insert σ a).keys ↔ k = key a ∨ k ∈ t.keys := by
  rw [mem_keys_iff_find?, mem_keys_iff_find?, find?_insert]
  by_cases hk : k = key a <;> simp [hk]

/-! ## Totals -/

section Total

variable {M : Type*} [AddCommMonoid M] (f : α → M)

/-- The total of a measure over the entries. -/
def total (t : KeyedTable key) : M := (t.entries.map f).sum

variable {t : KeyedTable key} {k : κ} {a b : α}

theorem total_erase (h : t.find? k = some a) : f a + (t.erase k).total f = t.total f :=
  ((perm_erase h).map f).sum_eq.symm

theorem total_set (h : t.find? (key b) = some a) : f a + (t.set b).total f = f b + t.total f := by
  have hset := total_erase f (find?_set_self (a := b) (mem_keys_of_find? h))
  rw [erase_set] at hset
  rw [← hset, ← total_erase f h, add_left_comm]

/-- A new entry adds its share, and an entry of its key takes its own away. -/
theorem total_insert (t : KeyedTable key) (σ : Reorder α) (a : α) :
    (t.insert σ a).total f = f a + (t.erase (key a)).total f :=
  ((perm_insert t σ a).map f).sum_eq

variable [PartialOrder M] [CanonicallyOrderedAdd M]

theorem total_erase_le (t : KeyedTable key) (k : κ) : (t.erase k).total f ≤ t.total f := by
  by_cases hk : k ∈ t.keys
  · obtain ⟨a, ha⟩ := mem_keys_iff_find?.1 hk
    exact le_add_self.trans_eq (total_erase f ha)
  · rw [erase_of_not_mem hk]

end Total

end KeyedTable
