import Chttp2.Lib.KeyedTable
import Mathlib.Algebra.BigOperators.Group.List.Basic
import Mathlib.Algebra.GroupWithZero.Nat
import Mathlib.Data.List.Induction
import Mathlib.Order.Bounds.Basic

/-!
# Queues that evict their oldest records

`evictTo size limit l` drops records from the front of `l` until the total size is within the
limit. Evictions compose (`evictTo_evictTo`), so a sequence of limits acts like the smallest one.
Seen from the newest record, what is left is the longest run that fits (`newestWithin_reverse`).
Over a series of pushes and limits the records are the longest suffix of all pushed ones that was
within every limit on the way (`records_eq_drop`).

A `LatestIndex` maps a key to the sequence number of the latest record with that key. It is kept up
to date when a record is pushed at the back and when the oldest one is dropped, and `Tracks` says
that it agrees with the queue (`Tracks.push`, `Tracks.dropOldest`).
-/

set_option autoImplicit false

/-! ## Eviction -/

namespace EvictingFifo

variable {α : Type*} (size : α → Nat)

/-- The total size of the records. -/
def total (l : List α) : Nat := (l.map size).sum

@[simp] theorem total_nil : total size [] = 0 := rfl

@[simp] theorem total_cons (a : α) (l : List α) : total size (a :: l) = size a + total size l := by
  simp [total]

@[simp] theorem total_append (l m : List α) :
    total size (l ++ m) = total size l + total size m := by
  simp [total]

/-- Drop the oldest records until the total is at most `limit`. -/
def evictTo (limit : Nat) : List α → List α
  | [] => []
  | a :: l => if total size (a :: l) > limit then evictTo limit l else a :: l

variable {size}

theorem evictTo_of_le {limit : Nat} {l : List α} (h : total size l ≤ limit) :
    evictTo size limit l = l := by
  cases l with
  | nil => rfl
  | cons a l => rw [evictTo, if_neg (by omega)]

theorem total_evictTo_le (limit : Nat) (l : List α) :
    total size (evictTo size limit l) ≤ limit := by
  induction l with
  | nil => exact Nat.zero_le _
  | cons a l ih =>
    rw [evictTo]
    split
    · exact ih
    · omega

/-- A smaller limit after a larger one acts alone. -/
theorem evictTo_evictTo {m n : Nat} (h : m ≤ n) (l : List α) :
    evictTo size m (evictTo size n l) = evictTo size m l := by
  induction l with
  | nil => rfl
  | cons a l ih =>
    rw [evictTo]
    split
    · rw [ih, evictTo, if_pos (by omega)]
    · rfl

/-- A larger limit after a smaller one does nothing. -/
theorem evictTo_evictTo_of_le {m n : Nat} (h : n ≤ m) (l : List α) :
    evictTo size m (evictTo size n l) = evictTo size n l :=
  evictTo_of_le (Nat.le_trans (total_evictTo_le n l) h)

theorem evictTo_suffix (limit : Nat) (l : List α) : evictTo size limit l <:+ l := by
  induction l with
  | nil => exact List.suffix_refl _
  | cons a l ih =>
    rw [evictTo]
    split
    · exact ih.trans (List.suffix_cons _ _)
    · exact List.suffix_refl _

theorem total_reverse (l : List α) : total size l.reverse = total size l := by
  induction l with
  | nil => rfl
  | cons a l ih =>
    rw [List.reverse_cons, total_append, ih, total_cons, total_cons, total_nil]
    omega

/-! ## The newest records -/

variable (size) in
/-- The longest run of newest records within the limit, where `l` starts with the newest. -/
def newestWithin (limit : Nat) : List α → List α
  | [] => []
  | a :: l => if size a ≤ limit then a :: newestWithin (limit - size a) l else []

theorem total_newestWithin_le (l : List α) : ∀ limit : Nat,
    total size (newestWithin size limit l) ≤ limit := by
  induction l with
  | nil =>
    intro limit
    exact Nat.zero_le _
  | cons a l ih =>
    intro limit
    rw [newestWithin]
    split
    · have := ih (limit - size a)
      rw [total_cons]
      omega
    · exact Nat.zero_le _

/-- The oldest record counts only where all records fit. -/
theorem newestWithin_concat (a : α) (l : List α) : ∀ limit : Nat,
    newestWithin size limit (l ++ [a]) =
      if total size (l ++ [a]) ≤ limit then l ++ [a] else newestWithin size limit l := by
  induction l with
  | nil =>
    intro limit
    simp [newestWithin]
  | cons b l ih =>
    intro limit
    rw [List.cons_append, newestWithin, newestWithin, ih, total_cons]
    by_cases hb : size b ≤ limit
    · rw [if_pos hb, if_pos hb]
      by_cases hall : total size (l ++ [a]) ≤ limit - size b
      · rw [if_pos hall, if_pos (by omega)]
      · rw [if_neg hall, if_neg (by omega)]
    · rw [if_neg hb, if_neg hb, if_neg (by omega)]

theorem newestWithin_reverse (limit : Nat) (l : List α) :
    newestWithin size limit l.reverse = (evictTo size limit l).reverse := by
  induction l with
  | nil => rfl
  | cons a l ih =>
    have htotal : total size (l.reverse ++ [a]) = total size (a :: l) := by
      rw [← List.reverse_cons, total_reverse]
    rw [List.reverse_cons, newestWithin_concat, htotal, evictTo]
    by_cases hall : total size (a :: l) ≤ limit
    · rw [if_pos hall, if_neg (by omega), List.reverse_cons]
    · rw [if_neg hall, if_pos (by omega), ih]

/-! ## Series of changes -/

/-- Eviction drops the fewest records that have to go. -/
theorem evictTo_eq_drop (limit : Nat) (l : List α) :
    ∃ k, evictTo size limit l = l.drop k ∧
      IsLeast {n | total size (l.drop n) ≤ limit} k := by
  induction l with
  | nil => exact ⟨0, rfl, by simp, fun _ _ => Nat.zero_le _⟩
  | cons a l ih =>
    rw [evictTo]
    split
    · rename_i hgt
      obtain ⟨k, heq, hfits, hleast⟩ := ih
      refine ⟨k + 1, heq, hfits, fun n hn => ?_⟩
      cases n with
      | zero => exact absurd hn (by simpa using hgt)
      | succ n => exact Nat.succ_le_succ (hleast hn)
    · rename_i hle
      exact ⟨0, rfl, by simpa using hle, fun _ _ => Nat.zero_le _⟩

theorem total_drop_le {m n : Nat} (h : m ≤ n) (l : List α) :
    total size (l.drop n) ≤ total size (l.drop m) := by
  obtain ⟨d, rfl⟩ := Nat.exists_eq_add_of_le h
  have hsplit := List.take_append_drop d (l.drop m)
  rw [List.drop_drop] at hsplit
  calc total size (l.drop (m + d))
      ≤ total size ((l.drop m).take d) + total size (l.drop (m + d)) := Nat.le_add_left _ _
    _ = total size (l.drop m) := by rw [← total_append, hsplit]

/-- A record larger than the limit leaves nothing behind. -/
theorem evictTo_concat_of_lt {limit : Nat} {a : α} (h : limit < size a) (l : List α) :
    evictTo size limit (l ++ [a]) = [] := by
  induction l with
  | nil => simp [evictTo, h]
  | cons b l ih =>
    rw [List.cons_append, evictTo, if_pos, ih]
    rw [total_cons, total_append, total_cons]
    omega

/-- A change of a queue: a record is pushed at the back, or there is a new limit. -/
inductive Change (α : Type*) where
  | push (a : α)
  | setLimit (limit : Nat)

/-- The records that a series of changes pushes. -/
def pushed : List (Change α) → List α
  | [] => []
  | .push a :: changes => a :: pushed changes
  | .setLimit _ :: changes => pushed changes

/-- The limit after a series of changes that starts at `limit`. -/
def limitAfter (limit : Nat) : List (Change α) → Nat
  | [] => limit
  | .push _ :: changes => limitAfter limit changes
  | .setLimit new :: changes => limitAfter new changes

variable (size) in
/-- The records after one change, evicted to the limit that holds from then on. -/
def change (limit : Nat) (records : List α) : Change α → List α
  | .push a => evictTo size limit (records ++ [a])
  | .setLimit new => evictTo size new records

variable (size) in
/-- The records after a series of changes that starts with `limit` and the records `l`. -/
def records (limit : Nat) : List (Change α) → List α → List α
  | [], l => l
  | c :: changes, l => records (limitAfter limit [c]) changes (change size limit l c)

variable (size) in
/-- After each change on the way, what the suffix without the first `n` pushed records held by then
was within the limit of that moment. -/
def WithinLimits (limit : Nat) (changes : List (Change α)) (n : Nat) : Prop :=
  ∀ before, before <+: changes →
    total size ((pushed before).drop n) ≤ limitAfter limit before

theorem pushed_append (cs ds : List (Change α)) : pushed (cs ++ ds) = pushed cs ++ pushed ds := by
  induction cs with
  | nil => rfl
  | cons c cs ih =>
    cases c with
    | push a => rw [List.cons_append, pushed, pushed, ih, List.cons_append]
    | setLimit m => rw [List.cons_append, pushed, pushed, ih]

theorem limitAfter_append (cs ds : List (Change α)) : ∀ limit : Nat,
    limitAfter limit (cs ++ ds) = limitAfter (limitAfter limit cs) ds := by
  induction cs with
  | nil =>
    intro limit
    rfl
  | cons c cs ih =>
    intro limit
    cases c with
    | push a => exact ih limit
    | setLimit m => exact ih m

theorem records_concat (cs : List (Change α)) (c : Change α) : ∀ (limit : Nat) (l : List α),
    records size limit (cs ++ [c]) l =
      change size (limitAfter limit cs) (records size limit cs l) c := by
  induction cs with
  | nil =>
    intro limit l
    rfl
  | cons d cs ih =>
    intro limit l
    cases d with
    | push a => exact ih limit _
    | setLimit m => exact ih m _

/-- A change evicts to its limit what the records and the newly pushed ones are together. -/
theorem change_eq_evictTo (limit : Nat) (l : List α) (c : Change α) :
    change size limit l c = evictTo size (limitAfter limit [c]) (l ++ pushed [c]) := by
  cases c with
  | push a => rfl
  | setLimit m => rw [change, pushed, pushed, List.append_nil]; rfl

theorem withinLimits_concat {limit n : Nat} {cs : List (Change α)} {c : Change α} :
    WithinLimits size limit (cs ++ [c]) n ↔ WithinLimits size limit cs n ∧
      total size ((pushed (cs ++ [c])).drop n) ≤ limitAfter limit (cs ++ [c]) := by
  constructor
  · intro h
    exact ⟨fun before hb => h before (hb.trans (List.prefix_append _ _)),
      h _ (List.prefix_refl _)⟩
  · rintro ⟨h, hlast⟩ before hb
    rcases List.prefix_concat_iff.1 hb with rfl | hb
    · exact hlast
    · exact h before hb

theorem WithinLimits.mono {limit m n : Nat} {cs : List (Change α)}
    (h : WithinLimits size limit cs m) (hmn : m ≤ n) : WithinLimits size limit cs n :=
  fun before hb => Nat.le_trans (total_drop_le hmn _) (h before hb)

/-- The records are the longest suffix of all pushed ones that was within every limit so far. -/
theorem records_eq_drop (limit : Nat) (cs : List (Change α)) :
    ∃ n, records size limit cs [] = (pushed cs).drop n ∧
      IsLeast {n | WithinLimits size limit cs n} n := by
  induction cs using List.reverseRecOn with
  | nil =>
    refine ⟨0, rfl, fun before hb => ?_, fun _ _ => Nat.zero_le _⟩
    rw [List.prefix_nil.1 hb]
    exact Nat.zero_le _
  | append_singleton cs c ih =>
    obtain ⟨n, heq, hwithin, hleast⟩ := ih
    have hlen : n ≤ (pushed cs).length := by
      refine hleast fun before hb => ?_
      obtain ⟨after, rfl⟩ := hb
      rw [pushed_append, List.length_append, List.drop_of_length_le (by omega)]
      exact Nat.zero_le _
    have hdrop : (pushed cs).drop n ++ pushed [c] = (pushed (cs ++ [c])).drop n := by
      rw [pushed_append, List.drop_append_of_le_length hlen]
    obtain ⟨k, hk, hfits, hkleast⟩ :=
      @evictTo_eq_drop _ size (limitAfter limit (cs ++ [c])) ((pushed (cs ++ [c])).drop n)
    refine ⟨n + k, ?_, withinLimits_concat.2 ⟨hwithin.mono (Nat.le_add_right _ _), ?_⟩, ?_⟩
    · rw [records_concat, change_eq_evictTo, heq, hdrop, ← limitAfter_append, hk, List.drop_drop]
    · rw [← List.drop_drop]
      exact hfits
    · intro m hm
      obtain ⟨hm, hlast⟩ := withinLimits_concat.1 hm
      -- the suffix was already cut before the last change, and the last eviction is minimal
      obtain ⟨d, rfl⟩ := Nat.exists_eq_add_of_le (hleast hm)
      have hd : total size (((pushed (cs ++ [c])).drop n).drop d) ≤
          limitAfter limit (cs ++ [c]) := by
        rw [List.drop_drop]
        exact hlast
      exact Nat.add_le_add_left (hkleast hd) n

end EvictingFifo

/-! ## The latest record of a key -/

/-- Sequence numbers by key. -/
abbrev LatestIndex (κ : Type*) := KeyedTable (Prod.fst : κ × Nat → κ)

namespace LatestIndex

variable {κ : Type*} {α : Type*} [DecidableEq κ] (f : α → κ)

/-- The sequence number that a key was recorded with last. -/
def lookup (m : LatestIndex κ) (k : κ) : Option Nat := (m.find? k).map Prod.snd

/-- Record that `a` got the sequence number `id`. -/
def push (m : LatestIndex κ) (a : α) (id : Nat) : LatestIndex κ :=
  m.insert (Reorder.id _) (f a, id)

/-- Forget `a`, which had the sequence number `id`, unless a later record has its key. -/
def dropOldest (m : LatestIndex κ) (a : α) (id : Nat) : LatestIndex κ :=
  if m.lookup (f a) = some id then m.erase (f a) else m

/-- The latest record of `l` with the key `k` has the number `id`, where the records are numbered
from `base` on. -/
def Latest (l : List α) (base : Nat) (k : κ) (id : Nat) : Prop :=
  ∃ pre a post, l = pre ++ a :: post ∧ f a = k ∧ (∀ x ∈ post, f x ≠ k) ∧ id = base + pre.length

/-- The index agrees with the records of `l`, numbered from `base` on. -/
def Tracks (m : LatestIndex κ) (l : List α) (base : Nat) : Prop :=
  ∀ k id, m.lookup k = some id ↔ Latest f l base k id

variable {f}

omit [DecidableEq κ] in
theorem Latest.getElem? {l : List α} {base id : Nat} {k : κ} (h : Latest f l base k id) :
    ∃ a, l[id - base]? = some a ∧ f a = k ∧ base ≤ id ∧ id < base + l.length := by
  obtain ⟨pre, a, post, rfl, ha, -, rfl⟩ := h
  refine ⟨a, by simp, ha, by omega, by simp⟩

omit [DecidableEq κ] in
theorem latest_concat {l : List α} {base id : Nat} {k : κ} {a : α} :
    Latest f (l ++ [a]) base k id ↔
      (f a = k ∧ id = base + l.length) ∨ (f a ≠ k ∧ Latest f l base k id) := by
  constructor
  · rintro ⟨pre, b, post, hl, hb, hpost, rfl⟩
    rcases List.eq_nil_or_concat post with rfl | ⟨post', c, rfl⟩
    · obtain ⟨rfl, hab⟩ := List.append_inj' hl rfl
      cases hab
      exact Or.inl ⟨hb, rfl⟩
    · rw [List.concat_eq_append, ← List.cons_append, ← List.append_assoc] at hl
      obtain ⟨rfl, hac⟩ := List.append_inj' hl rfl
      cases hac
      refine Or.inr ⟨hpost a (by simp), pre, b, post', rfl, hb, fun x hx => hpost x ?_, rfl⟩
      simp [hx]
  · rintro (⟨rfl, rfl⟩ | ⟨hne, pre, b, post, rfl, hb, hpost, rfl⟩)
    · exact ⟨l, a, [], rfl, rfl, by simp, rfl⟩
    · refine ⟨pre, b, post ++ [a], by simp, hb, ?_, rfl⟩
      intro x hx
      rcases List.mem_append.1 hx with hx | hx
      · exact hpost x hx
      · rw [List.mem_singleton] at hx
        subst hx
        exact hne

/-- The records with a key have a latest one. -/
theorem exists_latest {l : List α} (base : Nat) {k : κ} (h : ∃ a ∈ l, f a = k) :
    ∃ id, Latest f l base k id := by
  induction l using List.reverseRecOn with
  | nil =>
    obtain ⟨a, ha, -⟩ := h
    cases ha
  | append_singleton l b ih =>
    by_cases hb : f b = k
    · exact ⟨base + l.length, latest_concat.2 (Or.inl ⟨hb, rfl⟩)⟩
    · obtain ⟨a, ha, hk⟩ := h
      rcases List.mem_append.1 ha with ha | ha
      · obtain ⟨id, hid⟩ := ih ⟨a, ha, hk⟩
        exact ⟨id, latest_concat.2 (Or.inr ⟨hb, hid⟩)⟩
      · rw [List.mem_singleton] at ha
        exact absurd (ha ▸ hk) hb

omit [DecidableEq κ] in
theorem latest_tail {l : List α} {base id : Nat} {k : κ} {a : α} :
    Latest f l (base + 1) k id ↔ Latest f (a :: l) base k id ∧ id ≠ base := by
  constructor
  · rintro ⟨pre, b, post, rfl, hb, hpost, rfl⟩
    exact ⟨⟨a :: pre, b, post, rfl, hb, hpost, by simp; omega⟩, by omega⟩
  · rintro ⟨⟨pre, b, post, hl, hb, hpost, rfl⟩, hne⟩
    cases pre with
    | nil => simp at hne
    | cons c pre =>
      rw [List.cons_append, List.cons.injEq] at hl
      exact ⟨pre, b, post, hl.2, hb, hpost, by simp; omega⟩

omit [DecidableEq κ] in
/-- Only the oldest record has the first number. -/
theorem Latest.key_of_base {l : List α} {base : Nat} {k : κ} {a : α}
    (h : Latest f (a :: l) base k base) : f a = k := by
  obtain ⟨pre, b, post, hl, hb, -, hid⟩ := h
  obtain rfl : pre = [] := List.length_eq_zero_iff.1 (by omega)
  cases hl
  exact hb

theorem tracks_empty (base : Nat) : Tracks f (KeyedTable.empty : LatestIndex κ) [] base := by
  intro k id
  simp [lookup, Latest]

theorem Tracks.push {m : LatestIndex κ} {l : List α} {base : Nat} (h : Tracks f m l base) (a : α) :
    Tracks f (m.push f a (base + l.length)) (l ++ [a]) base := by
  intro k id
  rw [latest_concat, ← h k id, lookup, LatestIndex.push, KeyedTable.find?_insert]
  by_cases hk : k = f a
  · subst hk
    simp [eq_comm]
  · have : f a ≠ k := fun he => hk he.symm
    simp [hk, this, lookup]

theorem Tracks.dropOldest {m : LatestIndex κ} {l : List α} {base : Nat} {a : α}
    (h : Tracks f m (a :: l) base) : Tracks f (m.dropOldest f a base) l (base + 1) := by
  intro k id
  rw [latest_tail (a := a), ← h k id]
  unfold LatestIndex.dropOldest
  by_cases hbase : m.lookup (f a) = some base
  · rw [if_pos hbase]
    by_cases hk : k = f a
    · subst hk
      simp only [lookup] at hbase ⊢
      rw [KeyedTable.find?_erase_self, hbase]
      simp [eq_comm]
    · rw [lookup, KeyedTable.find?_erase_ne m hk]
      constructor
      · intro hid
        refine ⟨hid, ?_⟩
        rintro rfl
        exact hk ((h k id).1 hid).key_of_base.symm
      · exact And.left
  · rw [if_neg hbase]
    constructor
    · intro hid
      refine ⟨hid, ?_⟩
      rintro rfl
      have := ((h k id).1 hid).key_of_base
      subst this
      exact hbase hid
    · exact And.left

end LatestIndex
