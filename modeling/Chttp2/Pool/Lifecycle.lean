import Chttp2.Pool.Callbacks

/-!
# Starting and stopping the threads

Where the threads of the connection manager are between `startThreadsIfNeeded` and `close`, as an
invariant of the flags and of the numbers of instructions that are left (`Phases`). Requests do not
touch it (`Phases.congr`), and `Phases.exec` is the step rule for instructions. The rule assumes
that `close` has been called only after the threads have been started (`Startup.closing`).
-/

set_option autoImplicit false

namespace Chttp2

namespace Callbacks

open Interleaving

/-! ## Kinds of instructions -/

namespace Instr

/-- An instruction of `startThreadsIfNeeded` behind `callOnce`. -/
def starts : Instr → Bool
  | .startDispatcher | .clearStop | .dispatcherOn | .spawnWorker | .startReactor | .reactorOn
  | .spawnReactor | .startDone _ => true
  | .stopDispatcher caller | .requestStop caller | .joinWorker caller | .dispatcherOff caller
  | .clearTasks caller => caller = .start
  | _ => false

/-- The dispatcher is about to be started. -/
def boots : Instr → Bool
  | .startDispatcher | .clearStop | .dispatcherOn => true
  | _ => false

/-- The instruction that starts the dispatcher's worker. -/
def spawnsWorker : Instr → Bool
  | .spawnWorker => true
  | _ => false

/-- The instruction that starts the reactor's thread. -/
def spawnsReactor : Instr → Bool
  | .spawnReactor => true
  | _ => false

/-- An instruction of `close`. -/
def closing : Instr → Bool
  | .stopReactor | .reactorOff | .joinReactor | .failQueuedRequests | .failAllContexts => true
  | .stopDispatcher caller | .requestStop caller | .joinWorker caller | .dispatcherOff caller
  | .clearTasks caller => caller = .close
  | _ => false

/-- The instruction of `close` that waits for the reactor's thread. -/
def joinsReactor : Instr → Bool
  | .joinReactor => true
  | _ => false

/-- The worker of the dispatcher has been joined. -/
def joined : Instr → Bool
  | .dispatcherOff _ | .clearTasks _ => true
  | _ => false

/-- An instruction of `close` behind the one that turns the reactor off. -/
def late : Instr → Bool
  | .joinReactor | .failQueuedRequests | .failAllContexts => true
  | .stopDispatcher caller | .requestStop caller | .joinWorker caller | .dispatcherOff caller
  | .clearTasks caller => caller = .close
  | _ => false

/-- An instruction of `close` behind the one that turns the dispatcher off. -/
def last : Instr → Bool
  | .failQueuedRequests | .failAllContexts => true
  | .clearTasks caller => caller = .close
  | _ => false

/-- The instructions of `startThreadsIfNeeded` and of `close`. -/
def lifecycle : Instr → Bool
  | .callOnce | .startDispatcher | .clearStop | .dispatcherOn | .spawnWorker | .startReactor
  | .reactorOn | .spawnReactor | .startDone _ | .stopReactor | .reactorOff | .joinReactor
  | .failQueuedRequests | .failAllContexts | .stopDispatcher _ | .requestStop _ | .joinWorker _
  | .dispatcherOff _ | .clearTasks _ => true
  | _ => false

/-- The kinds of instructions that are about starting and stopping. -/
def kinds : List (Instr → Bool) :=
  [starts, boots, spawnsWorker, spawnsReactor, closing, joinsReactor, joined, late, last]

end Instr

section Kinds

variable {p : Instr → Bool}

theorem countP_tryFinish (hp : ∀ r, p (.tryFinish r) = false) (rs : List RequestId) :
    (rs.map Instr.tryFinish).countP p = 0 := by
  rw [List.countP_eq_zero]
  intro i hi
  obtain ⟨r, -, rfl⟩ := List.mem_map.1 hi
  simp [hp]

theorem starts_or_closing (hp : p ∈ Instr.kinds) (i : Instr) (hi : p i = true) :
    i.starts = true ∨ i.closing = true := by
  simp only [Instr.kinds, List.mem_cons, List.not_mem_nil, or_false] at hp
  rcases hp with rfl | rfl | rfl | rfl | rfl | rfl | rfl | rfl | rfl <;> cases i <;>
    simp_all [Instr.starts, Instr.closing, Instr.boots, Instr.spawnsWorker, Instr.spawnsReactor,
      Instr.joinsReactor, Instr.joined, Instr.late, Instr.last] <;> cases ‹Caller› <;> simp

theorem lifecycle_of_kind (hp : p ∈ Instr.kinds) {i : Instr} (hi : p i = true) :
    i.lifecycle = true := by
  rcases starts_or_closing hp i hi with hi | hi <;> cases i <;>
    first
    | rfl
    | cases hi

theorem lifecycle_cases {i : Instr} (hi : i.lifecycle = true) :
    i = .callOnce ∨ i.starts = true ∨ i.closing = true := by
  cases i <;> simp_all [Instr.lifecycle, Instr.starts, Instr.closing] <;> cases ‹Caller› <;> simp

theorem countP_tryFinish_kinds :
    ∀ p ∈ Instr.kinds, ∀ rs : List RequestId, (rs.map Instr.tryFinish).countP p = 0 := by
  intro p hp
  refine countP_tryFinish fun r => ?_
  by_contra hr
  have hlifecycle := lifecycle_of_kind hp (Bool.eq_true_of_not_eq_false hr)
  cases hlifecycle

theorem countP_next (p : Instr → Bool) (caller : Caller) :
    caller.next.countP p =
      if caller = .start then if p (.startDone false) then 1 else 0
      else if p .failQueuedRequests then 1 else 0 := by
  cases caller <;> simp [Caller.next, List.countP_cons]

end Kinds

/-! ## Phases -/

/-- One thread goes through `startThreadsIfNeeded`, and `close` is called only behind it. -/
structure Startup (s : Shared) (n : (Instr → Bool) → Nat) : Prop where
  once : n Instr.starts = if s.startOnce = .active then 1 else 0
  closing : (∀ result, s.startOnce ≠ .done result) → n Instr.closing = 0 ∧ s.swept = false

/-- The worker of the dispatcher exists from its start until it is joined, and as long as the
dispatcher takes tasks. -/
structure Dispatcher (s : Shared) (n : (Instr → Bool) → Nat) : Prop where
  boots : s.startOnce = .fresh ∨ 0 < n Instr.boots →
    s.dispatcherRunning = false ∧ s.stopRequested = false ∧ s.workerAlive = false
  spawns : 0 < n Instr.spawnsWorker →
    s.dispatcherRunning = true ∧ s.stopRequested = false ∧ s.workerAlive = false
  idle : s.workerAlive = false → s.worker = none
  drained : s.workerAlive = false → s.tasks = [] ∨ 0 < n Instr.spawnsWorker
  accepting : s.dispatcherRunning = true → s.stopRequested = false →
    s.workerAlive = true ∨ 0 < n Instr.spawnsWorker
  off : s.dispatcherRunning = false → s.workerAlive = false
  joined : 0 < n Instr.joined → s.workerAlive = false

/-- The reactor that has been turned off is joined, and `close` goes on with the reactor off, and
then with the dispatcher off. -/
structure Shutdown (s : Shared) (n : (Instr → Bool) → Nat) : Prop where
  spawns : 0 < n Instr.spawnsReactor → s.reactorRunning = true
  joins : s.reactorAlive = true → s.reactorRunning = false → 0 < n Instr.joinsReactor
  late : 0 < n Instr.late ∨ s.swept = true → s.reactorRunning = false
  last : 0 < n Instr.last ∨ s.swept = true → s.dispatcherRunning = false

section Exec

variable {choice : Choice} {s s' : Shared} {i : Instr} {new : List Instr} {U : Pool Call Instr}

/-- The instructions for requests leave the threads as they are. -/
theorem exec_request (hexec : exec choice s i = some (s', new)) (hi : i.lifecycle = false) :
    new.countP Instr.lifecycle = 0 ∧
      s' = { s with
        nextRequestId := s'.nextRequestId, requests := s'.requests, contexts := s'.contexts,
        submitQueue := s'.submitQueue, tasks := s'.tasks } ∧
      (s'.tasks = s.tasks ∨ s.dispatcherRunning = true ∧ s.stopRequested = false) := by
  have hlist := countP_tryFinish (p := Instr.lifecycle) fun _ => rfl
  cases i <;> (try cases hi) <;> simp only [exec] at hexec <;> (try split at hexec) <;>
    cases hexec <;> refine ⟨?_, rfl, ?_⟩ <;>
    first
    | rfl
    | exact .inl rfl
    | simp_all [Instr.lifecycle]

/-- While the threads are being started, nothing else is about starting and stopping. -/
theorem Startup.alone (h : Startup s fun p => U.count p + if p i then 1 else 0)
    (hi : i.starts = true) :
    s.startOnce = .active ∧ s.swept = false ∧ ∀ p ∈ Instr.kinds, U.count p = 0 := by
  obtain ⟨honce, hclosing⟩ := h
  rw [if_pos hi] at honce
  -- the instruction counts, so `startOnce` is active and leaves no room for a second one
  have hactive : s.startOnce = .active := by
    by_contra hnot
    rw [if_neg hnot] at honce
    omega
  rw [if_pos hactive] at honce
  obtain ⟨hnone, hswept⟩ := hclosing (by simp [hactive])
  refine ⟨hactive, hswept, fun p hp => ?_⟩
  -- every kind is about starting or about `close`, and of both nothing is left
  have hle := Pool.count_le_add (T := U) (starts_or_closing hp)
  omega

/-- While a call of `close` is under way, nothing is being started. -/
theorem Startup.started (h : Startup s fun p => U.count p + if p i then 1 else 0)
    (hi : i.closing = true) :
    ∃ result, s.startOnce = .done result ∧ U.count Instr.starts = 0 ∧
      U.count Instr.boots = 0 ∧ U.count Instr.spawnsWorker = 0 ∧
      U.count Instr.spawnsReactor = 0 := by
  obtain ⟨honce, hclosing⟩ := h
  -- `close` was called behind the start
  have hdone : ∃ result, s.startOnce = .done result := by
    by_contra hnot
    obtain ⟨hnone, -⟩ := hclosing (by simpa using hnot)
    rw [if_pos hi] at hnone
    omega
  obtain ⟨result, hdone⟩ := hdone
  simp only [hdone, reduceCtorEq, if_false, Nat.add_eq_zero_iff] at honce
  have hboots : U.count Instr.boots ≤ U.count Instr.starts :=
    Pool.count_mono fun i => by cases i <;> simp [Instr.boots, Instr.starts]
  have hworker : U.count Instr.spawnsWorker ≤ U.count Instr.starts :=
    Pool.count_mono fun i => by cases i <;> simp [Instr.spawnsWorker, Instr.starts]
  have hreactor : U.count Instr.spawnsReactor ≤ U.count Instr.starts :=
    Pool.count_mono fun i => by cases i <;> simp [Instr.spawnsReactor, Instr.starts]
  refine ⟨result, hdone, ?_, ?_, ?_, ?_⟩ <;> omega

end Exec

/-- Where the threads are in starting and stopping. -/
structure Phases (s : Shared) (n : (Instr → Bool) → Nat) : Prop where
  startup : Startup s n
  dispatcher : Dispatcher s n
  shutdown : Shutdown s n

section Exec

variable {choice : Choice} {s s' : Shared} {i : Instr} {new : List Instr} {U : Pool Call Instr}

/-! ### The thread that starts the others

Its program is sequential, and nothing else moves (`Startup.alone`): an instruction finds the flags
as the one before it has left them. -/

theorem Startup.exec_starts (h : Startup s fun p => U.count p + if p i then 1 else 0)
    (hexec : exec choice s i = some (s', new)) (hi : i.starts = true) :
    Startup s' fun p => U.count p + new.countP p := by
  obtain ⟨hactive, hswept, hnone⟩ := h.alone hi
  simp only [Instr.kinds, List.forall_mem_cons] at hnone
  cases i <;> (try cases hi) <;> (try cases ‹Caller›) <;> (try cases hi) <;>
    simp only [exec] at hexec <;> (try split at hexec) <;> (try split at hexec) <;>
    cases hexec <;> constructor <;>
    simp [hnone, hactive, hswept, Instr.starts, Instr.closing, Caller.next]

theorem Dispatcher.exec_starts (h : Dispatcher s fun p => U.count p + if p i then 1 else 0)
    (hstart : Startup s fun p => U.count p + if p i then 1 else 0)
    (hexec : exec choice s i = some (s', new)) (hi : i.starts = true) :
    Dispatcher s' fun p => U.count p + new.countP p := by
  obtain ⟨hactive, hswept, hnone⟩ := hstart.alone hi
  clear hstart
  simp only [Instr.kinds, List.forall_mem_cons] at hnone
  obtain ⟨hboots, hspawns, hidle, hdrained, haccepting, hoff, hjoined⟩ := h
  -- a caller in the instruction is `.start`, as the other one is of `close`
  cases i <;> (try cases hi) <;> (try cases ‹Caller›) <;> (try cases hi) <;>
    simp [hnone, hactive, Instr.boots, Instr.spawnsWorker, Instr.joined]
      at hboots hspawns hdrained haccepting hjoined <;>
    simp only [exec] at hexec <;> (try split at hexec) <;> (try split at hexec) <;>
    cases hexec <;> constructor <;>
    (try simp [hnone, hactive, Instr.boots, Instr.spawnsWorker, Instr.joined, Caller.next]) <;>
    first
    | assumption
    | simp_all

theorem Shutdown.exec_starts (h : Shutdown s fun p => U.count p + if p i then 1 else 0)
    (hstart : Startup s fun p => U.count p + if p i then 1 else 0)
    (hexec : exec choice s i = some (s', new)) (hi : i.starts = true) :
    Shutdown s' fun p => U.count p + new.countP p := by
  obtain ⟨hactive, hswept, hnone⟩ := hstart.alone hi
  clear hstart
  simp only [Instr.kinds, List.forall_mem_cons] at hnone
  obtain ⟨hspawns, hjoins, hlate, hlast⟩ := h
  cases i <;> (try cases hi) <;> (try cases ‹Caller›) <;> (try cases hi) <;>
    simp [hnone, Instr.spawnsReactor, Instr.joinsReactor] at hspawns hjoins <;>
    simp only [exec] at hexec <;> (try split at hexec) <;> (try split at hexec) <;>
    cases hexec <;> constructor <;>
    (try simp [hnone, hswept, Instr.spawnsReactor, Instr.joinsReactor, Instr.late, Instr.last,
      Caller.next]) <;>
    assumption

/-! ### A call of `close`

Several calls may be under way. What a call finds is what it has read itself, and what no other call
takes back: the reactor and the dispatcher are only turned off. -/

theorem Startup.exec_closing (h : Startup s fun p => U.count p + if p i then 1 else 0)
    (hexec : exec choice s i = some (s', new)) (hi : i.closing = true) :
    Startup s' fun p => U.count p + new.countP p := by
  obtain ⟨result, hdone, hstarts, -⟩ := h.started hi
  have hlist := countP_tryFinish (p := Instr.starts) fun _ => rfl
  cases i <;> (try cases hi) <;> (try cases ‹Caller›) <;> (try cases hi) <;>
    simp only [exec] at hexec <;> (try split at hexec) <;> cases hexec <;> constructor <;>
    simp [hdone, hstarts, hlist, Instr.starts, Caller.next, -List.countP_map]

theorem Dispatcher.exec_closing (h : Dispatcher s fun p => U.count p + if p i then 1 else 0)
    (hstart : Startup s fun p => U.count p + if p i then 1 else 0)
    (hexec : exec choice s i = some (s', new)) (hi : i.closing = true) :
    Dispatcher s' fun p => U.count p + new.countP p := by
  obtain ⟨result, hdone, -, hnone, hnone', -⟩ := hstart.started hi
  clear hstart
  have hlist := countP_tryFinish_kinds
  simp only [Instr.kinds, List.forall_mem_cons] at hlist
  obtain ⟨hboots, hspawns, hidle, hdrained, haccepting, hoff, hjoined⟩ := h
  cases i <;> (try cases hi) <;> (try cases ‹Caller›) <;> (try cases hi) <;>
    simp [hnone, hnone', hdone, Instr.boots, Instr.spawnsWorker, Instr.joined]
      at hboots hspawns hdrained haccepting hjoined <;>
    simp only [exec] at hexec <;> (try split at hexec) <;> cases hexec <;> constructor <;>
    (try simp [hnone, hnone', hdone, hlist, Instr.boots, Instr.spawnsWorker, Instr.joined,
      Caller.next, -List.countP_map]) <;>
    first
    | assumption
    | simp_all

theorem Shutdown.exec_closing (h : Shutdown s fun p => U.count p + if p i then 1 else 0)
    (hstart : Startup s fun p => U.count p + if p i then 1 else 0)
    (hexec : exec choice s i = some (s', new)) (hi : i.closing = true) :
    Shutdown s' fun p => U.count p + new.countP p := by
  obtain ⟨result, hdone, -, -, -, hnone⟩ := hstart.started hi
  clear hstart
  have hlist := countP_tryFinish_kinds
  simp only [Instr.kinds, List.forall_mem_cons] at hlist
  obtain ⟨hspawns, hjoins, hlate, hlast⟩ := h
  cases i <;> (try cases hi) <;> (try cases ‹Caller›) <;> (try cases hi) <;>
    simp [hnone, Instr.spawnsReactor, Instr.joinsReactor, Instr.late, Instr.last]
      at hspawns hjoins hlate hlast <;>
    simp only [exec] at hexec <;> (try split at hexec) <;> cases hexec <;> constructor <;>
    (try simp [hnone, hlist, Instr.spawnsReactor, Instr.joinsReactor, Instr.late, Instr.last,
      Caller.next, -List.countP_map]) <;>
    first
    | assumption
    | simp_all

end Exec

section Phases

variable {s s' : Shared} {n n' : (Instr → Bool) → Nat}

/-- Requests come and go, and leave tasks to a dispatcher that takes them. -/
theorem Phases.congr (h : Phases s n) (hn : ∀ p ∈ Instr.kinds, n' p = n p)
    (hs : s' = { s with
      nextRequestId := s'.nextRequestId, requests := s'.requests, contexts := s'.contexts,
      submitQueue := s'.submitQueue, tasks := s'.tasks })
    (htasks : s'.tasks = s.tasks ∨ s.dispatcherRunning = true ∧ s.stopRequested = false) :
    Phases s' n' := by
  obtain ⟨⟨honce, hclosing⟩, ⟨hboots, hspawns, hidle, hdrained, haccepting, hoff, hjoined⟩,
    ⟨hreactor, hjoins, hlate, hlast⟩⟩ := h
  simp only [Instr.kinds, List.forall_mem_cons] at hn
  obtain ⟨h1, h2, h3, h4, h5, h6, h7, h8, h9, -⟩ := hn
  rw [hs]
  refine ⟨⟨?_, ?_⟩, ⟨?_, ?_, ?_, ?_, ?_, ?_, ?_⟩, ⟨?_, ?_, ?_, ?_⟩⟩ <;>
    simp only [h1, h2, h3, h4, h5, h6, h7, h8, h9] <;> try assumption
  · intro halive
    rcases htasks with heq | ⟨hrunning, hstop⟩
    · rw [heq]
      exact hdrained halive
    · -- the dispatcher takes tasks although its worker is not alive: it is being started
      exact .inr ((haccepting hrunning hstop).resolve_left (by simp [halive]))

theorem Phases.exec_callOnce {choice : Choice} {new : List Instr} {U : Pool Call Instr}
    (h : Phases s fun p => U.count p + if p .callOnce then 1 else 0)
    (hexec : exec choice s .callOnce = some (s', new)) :
    Phases s' fun p => U.count p + new.countP p := by
  have hnone : ∀ p ∈ Instr.kinds, (if p .callOnce then 1 else 0) = 0 := by
    simp only [Instr.kinds, List.forall_mem_cons]
    exact ⟨rfl, rfl, rfl, rfl, rfl, rfl, rfl, rfl, rfl, List.forall_mem_nil _⟩
  simp only [Callbacks.exec] at hexec
  split at hexec
  · -- the first call: the start begins with everything off
    rename_i hfresh
    cases hexec
    obtain ⟨⟨honce, hclosing⟩, hdispatcher, hshutdown⟩ := h
    have hnotdone : ∀ result, s.startOnce ≠ .done result := by simp [hfresh]
    have hidle : U.count Instr.starts = 0 := by simpa [hfresh, Instr.starts] using honce
    have hoff := hdispatcher.boots (.inl hfresh)
    exact ⟨⟨by simp [hidle, Instr.starts], fun _ => hclosing hnotdone⟩,
      ⟨fun _ => hoff, hdispatcher.spawns, hdispatcher.idle, hdispatcher.drained,
        hdispatcher.accepting, hdispatcher.off, hdispatcher.joined⟩,
      ⟨hshutdown.spawns, hshutdown.joins, hshutdown.late, hshutdown.last⟩⟩
  · -- another thread is inside, and this one waits
    cases hexec
  · cases hexec
    exact h.congr (fun p hp => by simp [hnone p hp]) rfl (.inl rfl)

/-- The step rule of the phases. -/
theorem Phases.exec {choice : Choice} {i : Instr} {new : List Instr} {U : Pool Call Instr}
    (h : Phases s fun p => U.count p + if p i then 1 else 0)
    (hexec : exec choice s i = some (s', new)) :
    Phases s' fun p => U.count p + new.countP p := by
  cases hi : i.lifecycle with
  | true =>
    rcases lifecycle_cases hi with rfl | hstarts | hclosing
    · exact h.exec_callOnce hexec
    · exact ⟨h.startup.exec_starts hexec hstarts,
        h.dispatcher.exec_starts h.startup hexec hstarts,
        h.shutdown.exec_starts h.startup hexec hstarts⟩
    · exact ⟨h.startup.exec_closing hexec hclosing,
        h.dispatcher.exec_closing h.startup hexec hclosing,
        h.shutdown.exec_closing h.startup hexec hclosing⟩
  | false =>
    obtain ⟨hnew, hs, htasks⟩ := exec_request hexec hi
    refine h.congr (fun p hp => ?_) hs htasks
    have hpi : ¬ p i = true := fun hpi => by simp [lifecycle_of_kind hp hpi] at hi
    have hpnew : new.countP p ≤ new.countP Instr.lifecycle :=
      List.countP_mono_left fun j _ hj => lifecycle_of_kind hp hj
    show U.count p + new.countP p = U.count p + if p i then 1 else 0
    rw [if_neg hpi]
    omega

/-- A thread enters `close` behind the start of the threads. -/
theorem Phases.close (h : Phases s n) (hdone : s.startOnce.isDone = true) :
    Phases s fun p => n p + [Instr.stopReactor].countP p := by
  obtain ⟨⟨honce, -⟩, hdispatcher, hshutdown⟩ := h
  have hstarted : ∃ result, s.startOnce = .done result := by
    cases hs : s.startOnce with
    | fresh | active => simp [hs, StartOnce.isDone] at hdone
    | done result => exact ⟨result, rfl⟩
  obtain ⟨result, hdone⟩ := hstarted
  exact ⟨⟨honce, fun hnot => absurd hdone (hnot result)⟩,
    ⟨hdispatcher.boots, hdispatcher.spawns, hdispatcher.idle, hdispatcher.drained,
      hdispatcher.accepting, hdispatcher.off, hdispatcher.joined⟩,
    ⟨hshutdown.spawns, hshutdown.joins, hshutdown.late, hshutdown.last⟩⟩

theorem Phases.reactorEnds (h : Phases s n) : Phases { s with reactorAlive := false } n := by
  obtain ⟨⟨honce, hclosing⟩, hdispatcher, hshutdown⟩ := h
  exact ⟨⟨honce, hclosing⟩,
    ⟨hdispatcher.boots, hdispatcher.spawns, hdispatcher.idle, hdispatcher.drained,
      hdispatcher.accepting, hdispatcher.off, hdispatcher.joined⟩,
    ⟨hshutdown.spawns, nofun, hshutdown.late, hshutdown.last⟩⟩

theorem Phases.workerTakes (h : Phases s n) (halive : s.workerAlive = true) (r : RequestId)
    (tasks : List RequestId) : Phases { s with worker := some r, tasks } n := by
  obtain ⟨⟨honce, hclosing⟩, hdispatcher, hshutdown⟩ := h
  have hdead : s.workerAlive ≠ false := by simp [halive]
  exact ⟨⟨honce, hclosing⟩,
    ⟨hdispatcher.boots, hdispatcher.spawns, fun hnot => absurd hnot hdead,
      fun hnot => absurd hnot hdead, hdispatcher.accepting, hdispatcher.off, hdispatcher.joined⟩,
    ⟨hshutdown.spawns, hshutdown.joins, hshutdown.late, hshutdown.last⟩⟩

theorem Phases.workerRuns (h : Phases s n) (r : RequestId) :
    Phases { s.invokeCompletion r with worker := none } n := by
  obtain ⟨⟨honce, hclosing⟩, hdispatcher, hshutdown⟩ := h
  exact ⟨⟨honce, hclosing⟩,
    ⟨hdispatcher.boots, hdispatcher.spawns, fun _ => rfl, hdispatcher.drained,
      hdispatcher.accepting, hdispatcher.off, hdispatcher.joined⟩,
    ⟨hshutdown.spawns, hshutdown.joins, hshutdown.late, hshutdown.last⟩⟩

/-- The worker ends when it has been asked to and has no tasks. -/
theorem Phases.workerEnds (h : Phases s n) (hworker : s.worker = none)
    (hstop : s.stopRequested = true) (htasks : s.tasks = []) :
    Phases { s with workerAlive := false } n := by
  obtain ⟨⟨honce, hclosing⟩, hdispatcher, hshutdown⟩ := h
  refine ⟨⟨honce, hclosing⟩, ⟨fun hboots => ?_, fun hspawns => ?_, fun _ => hworker,
      fun _ => .inl htasks, fun _ hnot => ?_, fun _ => rfl, fun _ => rfl⟩,
    ⟨hshutdown.spawns, hshutdown.joins, hshutdown.late, hshutdown.last⟩⟩
  · obtain ⟨hoff, hnot, -⟩ := hdispatcher.boots hboots
    exact ⟨hoff, hnot, rfl⟩
  · obtain ⟨hon, hnot, -⟩ := hdispatcher.spawns hspawns
    exact ⟨hon, hnot, rfl⟩
  · simp [hstop] at hnot

/-- The dispatcher that is being stopped has no tasks once its worker has been joined. -/
theorem Phases.tasks_eq_nil {U : Pool Call Instr} {caller : Caller}
    (h : Phases s fun p => U.count p + if p (.clearTasks caller) then 1 else 0) :
    s.tasks = [] := by
  have hnone : U.count Instr.spawnsWorker = 0 := by
    cases caller with
    | start =>
      obtain ⟨-, -, hnone⟩ := h.startup.alone rfl
      exact hnone _ (by simp [Instr.kinds])
    | close =>
      obtain ⟨result, -, -, -, hnone, -⟩ := h.startup.started rfl
      exact hnone
  have hdead : s.workerAlive = false := h.dispatcher.joined (Nat.succ_pos _)
  refine (h.dispatcher.drained hdead).resolve_right ?_
  simp [hnone, Instr.spawnsWorker]

end Phases

end Callbacks

end Chttp2
