import Chttp2.Lib.KeyedTable
import Chttp2.Lib.Machine
import Chttp2.Lib.PriorityQueue
import Mathlib.Data.Nat.Basic

/-!
# The timers of the reactor

`Reactor` schedules a handler once, cancels it lazily by a flag, and hands over the handlers that are
due. Each operation holds the mutex of the reactor and is one step here; the clock readings that it
takes are arguments. Times are nanoseconds since the start of the clock.

A timer is live if it is in the heap and not flagged. Purging cancelled timers from the top of the
heap keeps the live ones (`purge_spec`), and the loop of `fireDueTimers` takes the live ones that are
due, and no others, in the order of their due times (`fireLoop_spec`). Over a run the live timers are
those that have been scheduled and neither fired nor cancelled (`Tracked.live`), from which
`timers_fire_exactly` follows.
-/

set_option autoImplicit false

namespace Chttp2

/-- `Reactor::TimerItem`; a handler is a value of the type `η`. -/
structure TimerItem (η : Type) where
  due : Nat
  id : Nat
  handler : η
  deriving DecidableEq, Repr

/-- The members of `Reactor` that its timers use. `timerFd` says whether the timer of the platform is
set up, and `timerSpec` is the time it is set to, with 0 for none. -/
structure Reactor (η : Type) where
  running : Bool := true
  timerFd : Bool := true
  timerSpec : Nat := 0
  timers : List (TimerItem η) := []
  canceledTimers : KeyedTable (Prod.fst : Nat × Bool → Nat) := .empty
  nextTimerId : Nat := 1

namespace Reactor

variable {η : Type}

/-- The order of `TimerItemCompare`, which makes the earliest timer the top of the heap. -/
abbrev TimerHeap (η : Type) := HeapRule (TimerItem.due : TimerItem η → Nat)

/-- The timer is in `canceledTimers` with the flag set. -/
def isCanceled (r : Reactor η) (id : Nat) : Bool :=
  match r.canceledTimers.find? id with
  | some it => it.2
  | none => false

/-- The top of the heap is popped and leaves `canceledTimers`. -/
def drop (r : Reactor η) (top : TimerItem η) (rest : List (TimerItem η)) : Reactor η :=
  { r with timers := rest, canceledTimers := r.canceledTimers.erase top.id }

/-- The loop of `armNextTimerLocked`. Every round pops a timer, so as many rounds as there are timers
suffice. -/
def purge (heap : TimerHeap η) : Nat → Reactor η → Reactor η
  | 0, r => r
  | fuel + 1, r =>
    match heap.pop r.timers with
    | none => r
    | some (top, rest) => if r.isCanceled top.id then purge heap fuel (r.drop top rest) else r

/-- `armNextTimerLocked` at the time `now`: the timer is set to the due time of the top, a millisecond
ahead at least. -/
def armNextTimerLocked (heap : TimerHeap η) (now : Nat) (r : Reactor η) : Reactor η :=
  if !r.timerFd then r
  else
    let r := purge heap r.timers.length r
    match heap.pop r.timers with
    | none => { r with timerSpec := 0 }
    | some (top, _) => { r with timerSpec := max (top.due - now) 1000000 }

/-- The due time of a timer that is scheduled at the time `now`. -/
def dueTime (now : Nat) (timeoutMs : Int) : Nat := now + (max timeoutMs 0).toNat * 1000000

/-- `scheduleOnce`; an empty handler is `none`, and the id 0 stands for a failure. -/
def scheduleOnce (heap : TimerHeap η) (now armNow : Nat) (timeoutMs : Int) (handler : Option η)
    (r : Reactor η) : Reactor η × Nat :=
  match handler with
  | none => (r, 0)
  | some handler =>
    let timerId := r.nextTimerId
    let r := { r with nextTimerId := r.nextTimerId + 1 }
    if !r.running then (r, 0)
    else
      let item : TimerItem η := { due := dueTime now timeoutMs, id := timerId, handler }
      (armNextTimerLocked heap armNow { r with
        timers := heap.push r.timers item
        canceledTimers := r.canceledTimers.insert (.id _) (timerId, false) }, timerId)

/-- `cancelTimer`; it returns whether the timer is still known. -/
def cancelTimer (heap : TimerHeap η) (timerId armNow : Nat) (r : Reactor η) : Reactor η × Bool :=
  match r.canceledTimers.find? timerId with
  | none => (r, false)
  | some _ =>
    (armNextTimerLocked heap armNow
      { r with canceledTimers := r.canceledTimers.set (timerId, true) }, true)

/-- The loop of `fireDueTimers`, with the timers whose handlers it has collected. -/
def fireLoop (heap : TimerHeap η) (now : Nat) :
    Nat → Reactor η → List (TimerItem η) → Reactor η × List (TimerItem η)
  | 0, r, dueHandlers => (r, dueHandlers)
  | fuel + 1, r, dueHandlers =>
    match heap.pop r.timers with
    | none => (r, dueHandlers)
    | some (top, rest) =>
      if r.isCanceled top.id then fireLoop heap now fuel (r.drop top rest) dueHandlers
      else if top.due > now then (r, dueHandlers)
      else fireLoop heap now fuel (r.drop top rest) (dueHandlers ++ [top])

/-- `fireDueTimers`: the timers whose handlers run, in the order in which they run. -/
def fireDueTimers (heap : TimerHeap η) (now armNow : Nat) (r : Reactor η) :
    Reactor η × List (TimerItem η) :=
  let (r, dueHandlers) := fireLoop heap now r.timers.length r []
  (armNextTimerLocked heap armNow r, dueHandlers)

/-- The operations on the timers, each with the clock readings it takes. -/
inductive Op (η : Type) where
  | scheduleOnce (now armNow : Nat) (timeoutMs : Int) (handler : Option η)
  | cancelTimer (timerId armNow : Nat)
  | fireDueTimers (now armNow : Nat)

/-- What an operation returns or, for `fireDueTimers`, runs. -/
inductive Answer (η : Type) where
  | scheduled (timerId : Nat)
  | canceled (found : Bool)
  | fired (timers : List (TimerItem η))

/-- An operation and its answer. -/
def apply (heap : TimerHeap η) (r : Reactor η) : Op η → Except Empty (Reactor η × Answer η)
  | .scheduleOnce now armNow timeoutMs handler =>
    let (r, timerId) := scheduleOnce heap now armNow timeoutMs handler r
    .ok (r, .scheduled timerId)
  | .cancelTimer timerId armNow =>
    let (r, found) := cancelTimer heap timerId armNow r
    .ok (r, .canceled found)
  | .fireDueTimers now armNow =>
    let (r, timers) := fireDueTimers heap now armNow r
    .ok (r, .fired timers)

/-! ## The heap and the flags -/

/-- The flags belong to the timers in the heap, and every id has been given out. -/
structure Ok (r : Reactor η) : Prop where
  keys : r.canceledTimers.keys.Perm (r.timers.map TimerItem.id)
  ids : ∀ t ∈ r.timers, t.id < r.nextTimerId

/-- The timer is in the heap and has not been cancelled. -/
def Live (r : Reactor η) (t : TimerItem η) : Prop :=
  t ∈ r.timers ∧ r.isCanceled t.id = false

section Heap

variable {heap : TimerHeap η} {r : Reactor η} {t top : TimerItem η} {rest : List (TimerItem η)}

theorem Ok.nodup (h : r.Ok) : (r.timers.map TimerItem.id).Nodup :=
  h.keys.nodup_iff.1 r.canceledTimers.nodup_keys

/-- Timers in the heap are told apart by their ids. -/
theorem Ok.eq_of_id {u : TimerItem η} (h : r.Ok) (ht : t ∈ r.timers) (hu : u ∈ r.timers)
    (hid : t.id = u.id) : t = u :=
  List.inj_on_of_nodup_map h.nodup ht hu hid

theorem Ok.id_ne_of_pop (h : r.Ok) (hpop : heap.pop r.timers = some (top, rest))
    (ht : t ∈ rest) : t.id ≠ top.id := by
  have hnodup := ((heap.pop_perm _ _ _ hpop).map TimerItem.id).nodup_iff.1 h.nodup
  rw [List.map_cons, List.nodup_cons] at hnodup
  intro hid
  exact hnodup.1 (hid ▸ List.mem_map_of_mem ht)

theorem isCanceled_drop {id : Nat} (h : id ≠ top.id) :
    (r.drop top rest).isCanceled id = r.isCanceled id := by
  rw [isCanceled, isCanceled, drop, KeyedTable.find?_erase_ne _ h]

/-- Popping the top keeps the flags and the heap in step. -/
theorem Ok.drop (h : r.Ok) (hpop : heap.pop r.timers = some (top, rest)) :
    (r.drop top rest).Ok where
  keys := by
    have hperm := h.keys.trans ((heap.pop_perm _ _ _ hpop).map TimerItem.id)
    have hnot : ∀ id ∈ rest.map TimerItem.id, id ≠ top.id := by
      intro id hid
      obtain ⟨t, ht, rfl⟩ := List.mem_map.1 hid
      exact h.id_ne_of_pop hpop ht
    have hfilter := hperm.filter fun id => decide (id ≠ top.id)
    rw [List.map_cons, List.filter_cons_of_neg (by simp),
      List.filter_eq_self.2 fun id hid => decide_eq_true (hnot id hid)] at hfilter
    rw [Reactor.drop, KeyedTable.keys_erase]
    exact hfilter
  ids t ht := h.ids t ((heap.mem_iff_of_pop hpop).2 (Or.inr ht))

/-- Popping the top leaves the other live timers. -/
theorem live_drop (h : r.Ok) (hpop : heap.pop r.timers = some (top, rest)) :
    (r.drop top rest).Live t ↔ r.Live t ∧ t ≠ top := by
  constructor
  · rintro ⟨ht, hflag⟩
    have hid := h.id_ne_of_pop hpop ht
    rw [isCanceled_drop hid] at hflag
    exact ⟨⟨(heap.mem_iff_of_pop hpop).2 (Or.inr ht), hflag⟩, fun heq => hid (heq ▸ rfl)⟩
  · rintro ⟨⟨ht, hflag⟩, hne⟩
    have hrest := ((heap.mem_iff_of_pop hpop).1 ht).resolve_left hne
    exact ⟨hrest, by rw [isCanceled_drop (h.id_ne_of_pop hpop hrest)]; exact hflag⟩

/-- A timer that has been popped is not in the heap any more. -/
theorem not_live_of_canceled (hflag : r.isCanceled top.id = true) : ¬ r.Live top := by
  rintro ⟨-, hlive⟩
  rw [hflag] at hlive
  cases hlive

end Heap

/-! ## Purging -/

section Purge

variable (heap : TimerHeap η) {r : Reactor η}

/-- What purging leaves as it is. -/
structure Purged (r r' : Reactor η) : Prop where
  ok : r'.Ok
  nextTimerId : r'.nextTimerId = r.nextTimerId
  running : r'.running = r.running
  live : ∀ t, r'.Live t ↔ r.Live t

theorem Purged.refl (h : r.Ok) : Purged r r := ⟨h, rfl, rfl, fun _ => Iff.rfl⟩

/-- Cancelled timers at the top of the heap are not live. -/
theorem purge_spec (fuel : Nat) : ∀ r : Reactor η, r.Ok → Purged r (purge heap fuel r) := by
  induction fuel with
  | zero => exact fun r h => .refl h
  | succ fuel ih =>
    intro r h
    rw [purge]
    split
    · exact .refl h
    · rename_i top rest hpop
      split
      · rename_i hflag
        obtain ⟨hok, hnext, hrun, hlive⟩ := ih _ (h.drop hpop)
        refine ⟨hok, hnext, hrun, fun t => ?_⟩
        rw [hlive, live_drop h hpop]
        refine ⟨And.left, fun ht => ⟨ht, ?_⟩⟩
        rintro rfl
        exact not_live_of_canceled hflag ht
      · exact .refl h

theorem armNextTimerLocked_spec (h : r.Ok) (now : Nat) :
    Purged r (armNextTimerLocked heap now r) := by
  rw [armNextTimerLocked]
  split
  · exact .refl h
  · obtain ⟨hok, hnext, hrun, hlive⟩ := purge_spec heap r.timers.length r h
    dsimp only
    split <;> exact ⟨⟨hok.keys, hok.ids⟩, hnext, hrun, hlive⟩

end Purge

/-! ## Firing -/

section Fire

variable (heap : TimerHeap η) {r : Reactor η} {now : Nat}

/-- The timers `fired` are the live ones of `r` that are due, in the order of their due times, and
`r'` is left with the others. -/
structure Fires (now : Nat) (r r' : Reactor η) (fired : List (TimerItem η)) : Prop where
  ok : r'.Ok
  nextTimerId : r'.nextTimerId = r.nextTimerId
  running : r'.running = r.running
  mem : ∀ t, t ∈ fired ↔ r.Live t ∧ t.due ≤ now
  sorted : fired.Pairwise fun t u => t.due ≤ u.due
  nodup : fired.Nodup
  live : ∀ t, r'.Live t ↔ r.Live t ∧ now < t.due

/-- Nothing is due if the top of the heap is not. -/
theorem Fires.nothing (h : r.Ok) (hlate : ∀ t, r.Live t → now < t.due) : Fires now r r [] where
  ok := h
  nextTimerId := rfl
  running := rfl
  mem t := by
    refine ⟨fun ht => absurd ht List.not_mem_nil, fun ⟨ht, hdue⟩ => ?_⟩
    exact absurd hdue (Nat.not_le.2 (hlate t ht))
  sorted := List.Pairwise.nil
  nodup := List.nodup_nil
  live t := ⟨fun ht => ⟨ht, hlate t ht⟩, And.left⟩

/-- With a round for every timer the loop takes all live timers that are due. -/
theorem fireLoop_spec (fuel : Nat) : ∀ (r : Reactor η) (dueHandlers : List (TimerItem η)), r.Ok →
    r.timers.length ≤ fuel →
    ∃ fired, (fireLoop heap now fuel r dueHandlers).2 = dueHandlers ++ fired ∧
      Fires now r (fireLoop heap now fuel r dueHandlers).1 fired := by
  induction fuel with
  | zero =>
    intro r dueHandlers h hfuel
    refine ⟨[], (List.append_nil _).symm, .nothing h fun t ht => ?_⟩
    have hnil := ht.1
    rw [List.length_eq_zero_iff.1 (Nat.le_zero.1 hfuel)] at hnil
    exact absurd hnil List.not_mem_nil
  | succ fuel ih =>
    intro r dueHandlers h hfuel
    rw [fireLoop]
    split
    · rename_i hpop
      refine ⟨[], (List.append_nil _).symm, .nothing h fun t ht => ?_⟩
      have hnil := ht.1
      rw [heap.eq_nil_of_pop hpop] at hnil
      exact absurd hnil List.not_mem_nil
    -- the top has the least due time of all timers
    rename_i top rest hpop
    have hlen : rest.length ≤ fuel := by
      have := heap.length_of_pop hpop
      omega
    split
    · rename_i hflag
      obtain ⟨fired, hout, hfires⟩ := ih (r.drop top rest) dueHandlers (h.drop hpop) hlen
      -- a cancelled timer is dropped, and the live ones stay
      have hlive : ∀ t, (r.drop top rest).Live t ↔ r.Live t := fun t =>
        (live_drop h hpop).trans ⟨And.left, fun ht => ⟨ht, fun heq =>
          not_live_of_canceled hflag (heq ▸ ht)⟩⟩
      refine ⟨fired, hout, hfires.ok, hfires.nextTimerId, hfires.running, fun t => ?_,
        hfires.sorted, hfires.nodup, fun t => ?_⟩
      · rw [hfires.mem, hlive]
      · rw [hfires.live, hlive]
    rename_i hflag
    have htop : r.Live top :=
      ⟨(heap.mem_iff_of_pop hpop).2 (Or.inl rfl), Bool.not_eq_true _ ▸ hflag⟩
    have hmin : ∀ t, r.Live t → top.due ≤ t.due := fun t ht => heap.pop_le _ _ _ hpop t ht.1
    split
    -- the top is not due yet, so none is
    · rename_i hlate
      exact ⟨[], (List.append_nil _).symm, .nothing h fun t ht =>
        Nat.lt_of_lt_of_le hlate (hmin t ht)⟩
    · rename_i hdue
      obtain ⟨fired, hout, hfires⟩ := ih (r.drop top rest) (dueHandlers ++ [top]) (h.drop hpop) hlen
      refine ⟨top :: fired, by rw [hout, List.append_assoc]; rfl, hfires.ok, hfires.nextTimerId,
        hfires.running, fun t => ?_, ?_, ?_, fun t => ?_⟩
      · rw [List.mem_cons, hfires.mem, live_drop h hpop]
        constructor
        · rintro (rfl | ⟨⟨ht, -⟩, hle⟩)
          · exact ⟨htop, Nat.not_lt.1 hdue⟩
          · exact ⟨ht, hle⟩
        · rintro ⟨ht, hle⟩
          by_cases heq : t = top
          · exact Or.inl heq
          · exact Or.inr ⟨⟨ht, heq⟩, hle⟩
      -- what is popped later is due later
      · refine List.pairwise_cons.2 ⟨fun t ht => ?_, hfires.sorted⟩
        exact hmin t ((live_drop h hpop).1 ((hfires.mem t).1 ht).1).1
      · refine List.nodup_cons.2 ⟨fun hmem => ?_, hfires.nodup⟩
        exact ((live_drop h hpop).1 ((hfires.mem top).1 hmem).1).2 rfl
      · rw [hfires.live, live_drop h hpop]
        constructor
        · rintro ⟨⟨ht, -⟩, hlate⟩
          exact ⟨ht, hlate⟩
        · rintro ⟨ht, hlate⟩
          refine ⟨⟨ht, ?_⟩, hlate⟩
          rintro rfl
          exact hdue hlate

end Fire

/-! ## The operations -/

section Operations

variable (heap : TimerHeap η) {r : Reactor η} (now armNow : Nat)

/-- The timer that `scheduleOnce` adds to the heap. -/
def newTimer (r : Reactor η) (now : Nat) (timeoutMs : Int) (handler : η) : TimerItem η :=
  { due := dueTime now timeoutMs, id := r.nextTimerId, handler }

/-- A running reactor schedules a timer with a new id. -/
theorem scheduleOnce_spec (h : r.Ok) (hrun : r.running = true) (timeoutMs : Int) (handler : η) :
    ∃ r', scheduleOnce heap now armNow timeoutMs (some handler) r = (r', r.nextTimerId) ∧ r'.Ok ∧
      r'.nextTimerId = r.nextTimerId + 1 ∧ r'.running = true ∧
      ∀ t, r'.Live t ↔ r.Live t ∨ t = r.newTimer now timeoutMs handler := by
  let item := r.newTimer now timeoutMs handler
  let pushed : Reactor η := { r with
    nextTimerId := r.nextTimerId + 1
    timers := heap.push r.timers item
    canceledTimers := r.canceledTimers.insert (.id _) (r.nextTimerId, false) }
  -- no timer has the new id, so no entry is overwritten
  have hfresh : r.nextTimerId ∉ r.canceledTimers.keys := by
    intro hmem
    obtain ⟨t, ht, hid⟩ := List.mem_map.1 (h.keys.mem_iff.1 hmem)
    exact absurd (h.ids t ht) (by omega)
  have hflag : ∀ id, pushed.isCanceled id = if id = r.nextTimerId then false else
      r.isCanceled id := by
    intro id
    rw [isCanceled, KeyedTable.find?_insert]
    by_cases hid : id = r.nextTimerId
    · rw [if_pos hid, if_pos hid]
    · rw [if_neg hid, if_neg hid, isCanceled]
  have hok : pushed.Ok := by
    refine ⟨?_, fun t ht => ?_⟩
    · have hperm := (KeyedTable.perm_insert r.canceledTimers (.id _)
        (r.nextTimerId, false)).map Prod.fst
      rw [KeyedTable.erase_of_not_mem hfresh] at hperm
      exact hperm.trans ((h.keys.cons _).trans
        ((heap.push_perm r.timers item).map TimerItem.id).symm)
    · rcases heap.mem_push.1 ht with rfl | ht
      · exact Nat.lt_succ_self _
      · exact Nat.lt_succ_of_lt (h.ids t ht)
  have hlive : ∀ t, pushed.Live t ↔ r.Live t ∨ t = item := by
    intro t
    rw [Live, hflag]
    constructor
    · rintro ⟨ht, hnot⟩
      rcases heap.mem_push.1 ht with rfl | ht
      · exact Or.inr rfl
      · rw [if_neg (Nat.ne_of_lt (h.ids t ht))] at hnot
        exact Or.inl ⟨ht, hnot⟩
    · rintro (⟨ht, hnot⟩ | rfl)
      · exact ⟨heap.mem_push.2 (Or.inr ht), by rw [if_neg (Nat.ne_of_lt (h.ids t ht))]; exact hnot⟩
      · exact ⟨heap.mem_push.2 (Or.inl rfl), if_pos rfl⟩
  obtain ⟨hok', hnext, hrun', hlive'⟩ := armNextTimerLocked_spec heap hok armNow
  refine ⟨_, ?_, hok', hnext, hrun'.trans hrun, fun t => (hlive' t).trans (hlive t)⟩
  rw [scheduleOnce]
  dsimp only
  rw [if_neg (by simp [hrun])]
  rfl

/-- Cancelling finds exactly the timers in the heap, and takes a live one out of the live timers. -/
theorem cancelTimer_spec (h : r.Ok) (timerId : Nat) :
    ∃ r' found, cancelTimer heap timerId armNow r = (r', found) ∧ r'.Ok ∧
      r'.nextTimerId = r.nextTimerId ∧ r'.running = r.running ∧
      (found = true → timerId < r.nextTimerId) ∧
      ∀ t, r'.Live t ↔ r.Live t ∧ (found = true → t.id ≠ timerId) := by
  rw [cancelTimer]
  cases hfind : r.canceledTimers.find? timerId with
  | none =>
    exact ⟨r, false, rfl, h, rfl, rfl, fun hf => Bool.noConfusion hf,
      fun t => ⟨fun ht => ⟨ht, fun hf => Bool.noConfusion hf⟩, And.left⟩⟩
  | some it =>
    have hkey : timerId ∈ r.canceledTimers.keys := KeyedTable.mem_keys_of_find? hfind
    let flagged : Reactor η := { r with
      canceledTimers := r.canceledTimers.set (timerId, true) }
    have hok : flagged.Ok := by
      refine ⟨?_, h.ids⟩
      show (r.canceledTimers.set (timerId, true)).keys.Perm _
      rw [KeyedTable.keys_set]
      exact h.keys
    have hflag : ∀ id, flagged.isCanceled id = if id = timerId then true else r.isCanceled id := by
      intro id
      rw [isCanceled, KeyedTable.find?_set (a := (timerId, true)) hkey]
      by_cases hid : id = timerId
      · rw [if_pos hid, if_pos hid]
      · rw [if_neg hid, if_neg hid, isCanceled]
    obtain ⟨hok', hnext, hrun, hlive⟩ := armNextTimerLocked_spec heap hok armNow
    refine ⟨_, true, rfl, hok', hnext, hrun, fun _ => ?_, fun t => (hlive t).trans ?_⟩
    · obtain ⟨t, ht, rfl⟩ := List.mem_map.1 (h.keys.mem_iff.1 hkey)
      exact h.ids t ht
    · rw [Live, hflag, Live]
      by_cases hid : t.id = timerId
      · rw [if_pos hid]
        exact ⟨fun hf => Bool.noConfusion hf.2, fun hf => absurd hid (hf.2 rfl)⟩
      · rw [if_neg hid]
        exact ⟨fun ht => ⟨ht, fun _ => hid⟩, And.left⟩

theorem fireDueTimers_spec (h : r.Ok) :
    ∃ r' fired, fireDueTimers heap now armNow r = (r', fired) ∧ Fires now r r' fired := by
  obtain ⟨fired, hout, hfires⟩ :=
    fireLoop_spec heap r.timers.length r [] h (Nat.le_refl _)
  obtain ⟨hok, hnext, hrun, hlive⟩ := armNextTimerLocked_spec heap hfires.ok armNow
  refine ⟨_, fired, ?_, hok, hnext.trans hfires.nextTimerId, hrun.trans hfires.running, hfires.mem,
    hfires.sorted, hfires.nodup, fun t => (hlive t).trans (hfires.live t)⟩
  exact Prod.ext rfl hout

end Operations

/-! ## Runs -/

/-- What happened in one operation on the timers. -/
abbrev Entry (η : Type) := Machine.Entry (Reactor η) (Op η) (Answer η)

/-- The timer that an operation has scheduled. -/
def scheduledBy (e : Entry η) : List (TimerItem η) :=
  match e.input, e.output with
  | .scheduleOnce now _ timeoutMs (some handler), .scheduled timerId =>
    if timerId = 0 then [] else [{ due := dueTime now timeoutMs, id := timerId, handler }]
  | _, _ => []

/-- The id for which an operation has returned that it cancelled its timer. -/
def canceledBy (e : Entry η) : List Nat :=
  match e.input, e.output with
  | .cancelTimer timerId _, .canceled true => [timerId]
  | _, _ => []

/-- The timers whose handlers an operation has run. -/
def firedBy (e : Entry η) : List (TimerItem η) :=
  match e.output with
  | .fired timers => timers
  | _ => []

/-- The timers that a trace schedules. -/
def scheduled (tr : List (Entry η)) : List (TimerItem η) := tr.flatMap scheduledBy

/-- The ids that a trace cancels. -/
def canceled (tr : List (Entry η)) : List Nat := tr.flatMap canceledBy

/-- The timers that a trace hands to their handlers. -/
def fired (tr : List (Entry η)) : List (TimerItem η) := tr.flatMap firedBy

/-- The state of the timers after a trace. -/
structure Tracked (tr : List (Entry η)) (r : Reactor η) : Prop where
  ok : r.Ok
  pos : 0 < r.nextTimerId
  scheduledIds : ∀ t ∈ scheduled tr, t.id < r.nextTimerId
  canceledIds : ∀ id ∈ canceled tr, id < r.nextTimerId
  firedIds : ∀ t ∈ fired tr, t.id < r.nextTimerId
  /-- The live timers are those that have been scheduled and neither fired nor cancelled. -/
  live : ∀ t, r.Live t ↔ t ∈ scheduled tr ∧ t.id ∉ (fired tr).map TimerItem.id ∧ t.id ∉ canceled tr
  unique : ((scheduled tr).map TimerItem.id).Nodup
  once : ((fired tr).map TimerItem.id).Nodup

section Runs

variable {heap : TimerHeap η} {tr : List (Entry η)} {r r' : Reactor η} {e : Entry η}

theorem scheduled_snoc : scheduled (tr ++ [e]) = scheduled tr ++ scheduledBy e := by
  rw [scheduled, List.flatMap_append, List.flatMap_singleton, ← scheduled]

theorem canceled_snoc : canceled (tr ++ [e]) = canceled tr ++ canceledBy e := by
  rw [canceled, List.flatMap_append, List.flatMap_singleton, ← canceled]

theorem fired_snoc : fired (tr ++ [e]) = fired tr ++ firedBy e := by
  rw [fired, List.flatMap_append, List.flatMap_singleton, ← fired]

/-- An operation that reports nothing. -/
theorem Tracked.silent (h : Tracked tr r) (hscheduled : scheduledBy e = [])
    (hcanceled : canceledBy e = []) (hfired : firedBy e = []) (hok : r'.Ok)
    (hnext : r.nextTimerId ≤ r'.nextTimerId) (hlive : ∀ t, r'.Live t ↔ r.Live t) :
    Tracked (tr ++ [e]) r' := by
  have h1 : scheduled (tr ++ [e]) = scheduled tr := by rw [scheduled_snoc, hscheduled, List.append_nil]
  have h2 : canceled (tr ++ [e]) = canceled tr := by rw [canceled_snoc, hcanceled, List.append_nil]
  have h3 : fired (tr ++ [e]) = fired tr := by rw [fired_snoc, hfired, List.append_nil]
  refine ⟨hok, Nat.lt_of_lt_of_le h.pos hnext, ?_, ?_, ?_, fun t => ?_, ?_, ?_⟩
  · rw [h1]
    exact fun t ht => Nat.lt_of_lt_of_le (h.scheduledIds t ht) hnext
  · rw [h2]
    exact fun id hid => Nat.lt_of_lt_of_le (h.canceledIds id hid) hnext
  · rw [h3]
    exact fun t ht => Nat.lt_of_lt_of_le (h.firedIds t ht) hnext
  · rw [h1, h2, h3, hlive]
    exact h.live t
  · rw [h1]
    exact h.unique
  · rw [h3]
    exact h.once

/-- A new timer is live, as its id is new. -/
theorem Tracked.scheduleOnce (h : Tracked tr r) {t : TimerItem η} (hscheduled : scheduledBy e = [t])
    (hcanceled : canceledBy e = []) (hfired : firedBy e = []) (hid : t.id = r.nextTimerId)
    (hok : r'.Ok) (hnext : r'.nextTimerId = r.nextTimerId + 1)
    (hlive : ∀ u, r'.Live u ↔ r.Live u ∨ u = t) : Tracked (tr ++ [e]) r' := by
  have h1 : scheduled (tr ++ [e]) = scheduled tr ++ [t] := by rw [scheduled_snoc, hscheduled]
  have h2 : canceled (tr ++ [e]) = canceled tr := by rw [canceled_snoc, hcanceled, List.append_nil]
  have h3 : fired (tr ++ [e]) = fired tr := by rw [fired_snoc, hfired, List.append_nil]
  -- all ids of the past are below the new one
  have hunfired : t.id ∉ (fired tr).map TimerItem.id := by
    intro hmem
    obtain ⟨u, hu, heq⟩ := List.mem_map.1 hmem
    have := h.firedIds u hu
    omega
  have huncanceled : t.id ∉ canceled tr := fun hmem => by
    have := h.canceledIds _ hmem
    omega
  refine ⟨hok, by omega, fun u hu => ?_, fun id hmem => ?_, fun u hu => ?_, fun u => ?_, ?_, ?_⟩
  · rw [h1] at hu
    rcases List.mem_append.1 hu with hu | hu
    · have := h.scheduledIds u hu
      omega
    · rw [List.mem_singleton.1 hu]
      omega
  · rw [h2] at hmem
    have := h.canceledIds id hmem
    omega
  · rw [h3] at hu
    have := h.firedIds u hu
    omega
  · rw [h1, h2, h3, hlive, h.live, List.mem_append, List.mem_singleton]
    constructor
    · rintro (⟨hu, hrest⟩ | rfl)
      · exact ⟨Or.inl hu, hrest⟩
      · exact ⟨Or.inr rfl, hunfired, huncanceled⟩
    · rintro ⟨hu | rfl, hrest⟩
      · exact Or.inl ⟨hu, hrest⟩
      · exact Or.inr rfl
  · rw [h1, List.map_append, List.map_singleton]
    refine List.Nodup.append h.unique (List.nodup_singleton _) ?_
    intro id hmem hsame
    obtain ⟨u, hu, rfl⟩ := List.mem_map.1 hmem
    have := h.scheduledIds u hu
    rw [List.mem_singleton] at hsame
    omega
  · rw [h3]
    exact h.once

theorem Tracked.cancelTimer (h : Tracked tr r) {timerId : Nat} (hscheduled : scheduledBy e = [])
    (hcanceled : canceledBy e = [timerId]) (hfired : firedBy e = []) (hok : r'.Ok)
    (hnext : r'.nextTimerId = r.nextTimerId) (hid : timerId < r.nextTimerId)
    (hlive : ∀ t, r'.Live t ↔ r.Live t ∧ t.id ≠ timerId) : Tracked (tr ++ [e]) r' := by
  have h1 : scheduled (tr ++ [e]) = scheduled tr := by rw [scheduled_snoc, hscheduled, List.append_nil]
  have h2 : canceled (tr ++ [e]) = canceled tr ++ [timerId] := by rw [canceled_snoc, hcanceled]
  have h3 : fired (tr ++ [e]) = fired tr := by rw [fired_snoc, hfired, List.append_nil]
  refine ⟨hok, by rw [hnext]; exact h.pos, ?_, fun id hmem => ?_, ?_, fun t => ?_, ?_, ?_⟩
  · rw [h1, hnext]
    exact h.scheduledIds
  · rw [h2] at hmem
    rw [hnext]
    rcases List.mem_append.1 hmem with hmem | hmem
    · exact h.canceledIds id hmem
    · rw [List.mem_singleton.1 hmem]
      exact hid
  · rw [h3, hnext]
    exact h.firedIds
  · rw [h1, h2, h3, hlive, h.live, List.mem_append, List.mem_singleton, not_or]
    tauto
  · rw [h1]
    exact h.unique
  · rw [h3]
    exact h.once

/-- The timers that fire are not live any more, and have not fired before. -/
theorem Tracked.fireDueTimers (h : Tracked tr r) {now : Nat} {timers : List (TimerItem η)}
    (hscheduled : scheduledBy e = []) (hcanceled : canceledBy e = []) (hfired : firedBy e = timers)
    (hfires : Fires now r r' timers) : Tracked (tr ++ [e]) r' := by
  have h1 : scheduled (tr ++ [e]) = scheduled tr := by rw [scheduled_snoc, hscheduled, List.append_nil]
  have h2 : canceled (tr ++ [e]) = canceled tr := by rw [canceled_snoc, hcanceled, List.append_nil]
  have h3 : fired (tr ++ [e]) = fired tr ++ timers := by rw [fired_snoc, hfired]
  refine ⟨hfires.ok, by rw [hfires.nextTimerId]; exact h.pos, ?_, ?_, fun t ht => ?_, fun t => ?_,
    ?_, ?_⟩
  · rw [h1, hfires.nextTimerId]
    exact h.scheduledIds
  · rw [h2, hfires.nextTimerId]
    exact h.canceledIds
  · rw [h3] at ht
    rw [hfires.nextTimerId]
    rcases List.mem_append.1 ht with ht | ht
    · exact h.firedIds t ht
    · exact h.ok.ids t ((hfires.mem t).1 ht).1.1
  · rw [h1, h2, h3, hfires.live, List.map_append, List.mem_append, not_or]
    constructor
    · rintro ⟨hlive, hlate⟩
      obtain ⟨hs, hf, hc⟩ := (h.live t).1 hlive
      refine ⟨hs, ⟨hf, fun hmem => ?_⟩, hc⟩
      obtain ⟨u, hu, hid⟩ := List.mem_map.1 hmem
      obtain ⟨hulive, hudue⟩ := (hfires.mem u).1 hu
      -- no two timers have one id, and `t` is not due yet
      rw [h.ok.eq_of_id hulive.1 hlive.1 hid] at hudue
      omega
    · rintro ⟨hs, ⟨hf, hnow⟩, hc⟩
      have hlive := (h.live t).2 ⟨hs, hf, hc⟩
      refine ⟨hlive, Nat.lt_of_not_le fun hdue => hnow ?_⟩
      exact List.mem_map_of_mem ((hfires.mem t).2 ⟨hlive, hdue⟩)
  · rw [h1]
    exact h.unique
  · rw [h3, List.map_append]
    refine List.Nodup.append h.once ?_ ?_
    · refine List.Nodup.map_on (fun t ht u hu hid => ?_) hfires.nodup
      exact h.ok.eq_of_id ((hfires.mem t).1 ht).1.1 ((hfires.mem u).1 hu).1.1 hid
    · intro id hbefore hnow
      obtain ⟨t, ht, rfl⟩ := List.mem_map.1 hnow
      exact ((h.live t).1 ((hfires.mem t).1 ht).1).2.1 hbefore

/-- Every operation keeps the account of the timers. -/
theorem Tracked.step (h : Tracked tr r) {op : Op η} {answer : Answer η}
    (hop : apply heap r op = .ok (r', answer)) : Tracked (tr ++ [⟨r, op, answer⟩]) r' := by
  cases op with
  | scheduleOnce now armNow timeoutMs handler =>
    cases handler with
    | none =>
      cases hop
      exact h.silent rfl rfl rfl h.ok (Nat.le_refl _) fun _ => Iff.rfl
    | some handler =>
      cases hrun : r.running with
      | false =>
        -- a reactor that does not run gives out the id and schedules nothing
        have heq : Reactor.scheduleOnce heap now armNow timeoutMs (some handler) r =
            ({ r with nextTimerId := r.nextTimerId + 1 }, 0) := by
          rw [Reactor.scheduleOnce]
          dsimp only
          rw [if_pos (by simp [hrun])]
        rw [apply, heq] at hop
        cases hop
        exact h.silent rfl rfl rfl ⟨h.ok.keys, fun t ht => Nat.lt_succ_of_lt (h.ok.ids t ht)⟩
          (Nat.le_succ _) fun _ => Iff.rfl
      | true =>
        obtain ⟨r₁, heq, hok, hnext, -, hlive⟩ :=
          scheduleOnce_spec heap now armNow h.ok hrun timeoutMs handler
        rw [apply, heq] at hop
        cases hop
        have hne : r.nextTimerId ≠ 0 := Nat.ne_of_gt h.pos
        exact h.scheduleOnce (if_neg hne) rfl rfl rfl hok hnext hlive
  | cancelTimer timerId armNow =>
    obtain ⟨r₁, found, heq, hok, hnext, -, hid, hlive⟩ :=
      cancelTimer_spec heap armNow h.ok timerId
    rw [apply, heq] at hop
    cases hop
    cases found with
    | false =>
      refine h.silent rfl rfl rfl hok (Nat.le_of_eq hnext.symm) fun t => (hlive t).trans ?_
      exact ⟨And.left, fun ht => ⟨ht, fun hf => Bool.noConfusion hf⟩⟩
    | true =>
      refine h.cancelTimer rfl rfl rfl hok hnext (hid rfl) fun t => (hlive t).trans ?_
      exact ⟨fun ht => ⟨ht.1, ht.2 rfl⟩, fun ht => ⟨ht.1, fun _ => ht.2⟩⟩
  | fireDueTimers now armNow =>
    obtain ⟨r₁, timers, heq, hfires⟩ :=
      fireDueTimers_spec heap now armNow h.ok
    rw [apply, heq] at hop
    cases hop
    exact h.fireDueTimers rfl rfl rfl hfires

theorem tracked_init (running ready : Bool) :
    Tracked [] ({ running, timerFd := ready } : Reactor η) where
  ok := ⟨List.Perm.refl _, fun _ ht => absurd ht List.not_mem_nil⟩
  pos := Nat.one_pos
  scheduledIds _ ht := absurd ht List.not_mem_nil
  canceledIds _ ht := absurd ht List.not_mem_nil
  firedIds _ ht := absurd ht List.not_mem_nil
  live _ := ⟨fun ht => absurd ht.1 List.not_mem_nil, fun ht => absurd ht.1 List.not_mem_nil⟩
  unique := List.nodup_nil
  once := List.nodup_nil

theorem tracked_of_runs {running ready : Bool}
    (h : Machine.Runs (apply heap) { running, timerFd := ready } tr r) : Tracked tr r :=
  h.invariant (I := Tracked) (tracked_init running ready) fun _ _ _ _ _ _ ih hop => ih.step hop

/-- What an operation fires is live before it. -/
theorem Tracked.live_of_fired (h : Tracked tr r) {op : Op η} {answer : Answer η}
    (hop : apply heap r op = .ok (r', answer)) {t : TimerItem η}
    (ht : t ∈ firedBy ⟨r, op, answer⟩) : r.Live t := by
  cases op with
  | scheduleOnce now armNow timeoutMs handler =>
    obtain ⟨-, rfl⟩ := Prod.mk.inj (Except.ok.inj hop)
    exact absurd ht List.not_mem_nil
  | cancelTimer timerId armNow =>
    obtain ⟨-, rfl⟩ := Prod.mk.inj (Except.ok.inj hop)
    exact absurd ht List.not_mem_nil
  | fireDueTimers now armNow =>
    obtain ⟨r₁, timers, heq, hfires⟩ := fireDueTimers_spec heap now armNow h.ok
    rw [apply, heq] at hop
    obtain ⟨-, rfl⟩ := Prod.mk.inj (Except.ok.inj hop)
    exact ((hfires.mem t).1 ht).1

/-- Whatever the heap does with timers that are due at the same time, and whatever the clock shows:
a timer fires at most once; a cancelled timer does not fire any more; `fireDueTimers` takes exactly
the timers that have been scheduled, are due, and have neither fired nor been cancelled, by their due
times; and the flags are those of the timers in the heap. -/
theorem timers_fire_exactly (heap : TimerHeap η) (running ready : Bool) {tr : List (Entry η)}
    {r : Reactor η} (h : Machine.Runs (apply heap) { running, timerFd := ready } tr r) :
    ((scheduled tr).map TimerItem.id).Nodup ∧ ((fired tr).map TimerItem.id).Nodup ∧
      (∀ before e after, tr = before ++ e :: after → ∀ id ∈ canceledBy e,
        id ∉ (fired after).map TimerItem.id) ∧
      (∀ before e after, tr = before ++ e :: after → ∀ now armNow,
        e.input = .fireDueTimers now armNow →
          (firedBy e).Pairwise (fun t u => t.due ≤ u.due) ∧
          ∀ t, t ∈ firedBy e ↔ t ∈ scheduled before ∧ t.id ∉ (fired before).map TimerItem.id ∧
            t.id ∉ canceled before ∧ t.due ≤ now) ∧
      r.canceledTimers.keys.Perm (r.timers.map TimerItem.id) := by
  have hall := tracked_of_runs h
  refine ⟨hall.unique, hall.once, ?_, ?_, hall.ok.keys⟩
  · rintro before e after rfl id hid hmem
    obtain ⟨t, hfired, rfl⟩ := List.mem_map.1 hmem
    obtain ⟨e', he', ht⟩ := List.mem_flatMap.1 hfired
    obtain ⟨mid, rest, rfl⟩ := List.append_of_mem he'
    rw [← List.cons_append, ← List.append_assoc] at h
    obtain ⟨hr, r', hop⟩ := h.at_entry
    have hlive := (tracked_of_runs hr).live_of_fired hop ht
    refine (((tracked_of_runs hr).live t).1 hlive).2.2 (List.mem_flatMap.2 ⟨e, ?_, hid⟩)
    simp
  · rintro before e after rfl now armNow hinput
    obtain ⟨hr, r', hop⟩ := h.at_entry
    have hbefore := tracked_of_runs hr
    obtain ⟨r₁, timers, heq, hfires⟩ := fireDueTimers_spec heap now armNow hbefore.ok
    rw [hinput, apply, heq] at hop
    have houtput : .fired timers = e.output := congrArg Prod.snd (Except.ok.inj hop)
    rw [firedBy, ← houtput]
    refine ⟨hfires.sorted, fun t => ?_⟩
    rw [hfires.mem, hbefore.live, and_assoc, and_assoc]

end Runs

/-- Two timers of which one is cancelled; the other one fires. -/
theorem timers_fire_exactly_of_cancelled_timer :
    ∃ tr, ∃ r : Reactor Nat,
      Machine.Runs (apply (.linear TimerItem.due)) { running := true, timerFd := true } tr r ∧
      (fired tr).map TimerItem.handler = [7] ∧
      ((scheduled tr).map TimerItem.id).Nodup ∧ ((fired tr).map TimerItem.id).Nodup ∧
      (∀ before e after, tr = before ++ e :: after → ∀ id ∈ canceledBy e,
        id ∉ (fired after).map TimerItem.id) ∧
      (∀ before e after, tr = before ++ e :: after → ∀ now armNow,
        e.input = .fireDueTimers now armNow →
          (firedBy e).Pairwise (fun t u => t.due ≤ u.due) ∧
          ∀ t, t ∈ firedBy e ↔ t ∈ scheduled before ∧ t.id ∉ (fired before).map TimerItem.id ∧
            t.id ∉ canceled before ∧ t.due ≤ now) ∧
      r.canceledTimers.keys.Perm (r.timers.map TimerItem.id) := by
  have hrun : (Machine.run (apply (.linear TimerItem.due))
      ({ running := true, timerFd := true } : Reactor Nat)
      [.scheduleOnce 0 0 5 (some 7), .scheduleOnce 0 0 9 (some 8), .cancelTimer 2 1,
        .fireDueTimers 20000000 20000000]).map
        (fun x => (fired x.2).map TimerItem.handler) = .ok [7] := by
    decide +kernel
  obtain ⟨r, tr, hr, -, hfired⟩ := Machine.exists_runs_of_map hrun
  exact ⟨tr, r, hr, hfired, timers_fire_exactly (.linear TimerItem.due) true true hr⟩

end Reactor

end Chttp2
