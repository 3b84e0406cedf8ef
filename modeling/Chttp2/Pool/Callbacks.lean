import Chttp2.Lib.Interleaving
import Chttp2.Lib.Machine
import Chttp2.Pool.Connection

/-!
# Callbacks between threads

Which callbacks of the connection manager run, and when, in terms of single accesses to shared
memory: an instruction is a section under a mutex or an atomic operation, and the threads interleave
between any two of them. `sendAsync`, `cancel` and `close` are programs of user threads, and
`completeRequest`, with which a request ends on whatever thread, is the chain from `tryFinish` on.

Of the handlers of the reactor thread, those for cancellations, for timeouts and for the submit
queue are programs too. The others matter here for the requests that they complete, and are
represented by all the completions that they could make: while its thread exists, the reactor may
complete any request at any time (`Handler.complete`). The queue of its tasks is not kept: a posted
handler runs at any time, and so do handlers that nobody has posted. The connector thread completes
nothing and is left out.

`swept` is not a member of the source: it says that `failAllContexts` has taken its list.
-/

set_option autoImplicit false

namespace Chttp2

namespace Callbacks

open Interleaving

/-! ## Shared memory -/

/-- `startOnce`, with `startResult` when the call has returned. -/
inductive StartOnce where
  | fresh
  | active
  | done (startResult : Bool)
  deriving DecidableEq

def StartOnce.isDone : StartOnce → Bool
  | .done _ => true
  | _ => false

/-- The flags of a `RequestContext`, and how often its callback has been invoked. -/
structure RequestFlags where
  finished : Bool := false
  canceled : Bool := false
  invoked : Nat := 0

/-- What the threads share. `reactorAlive` and `workerAlive` say whether the threads exist, `tasks`
is the queue of the callback dispatcher, and `worker` the task that its thread is running. -/
structure Shared where
  startOnce : StartOnce := .fresh
  nextRequestId : RequestId := 1
  requests : RequestId → RequestFlags := fun _ => {}
  contexts : List RequestId := []
  submitQueue : List RequestId := []
  reactorRunning : Bool := false
  reactorAlive : Bool := false
  dispatcherRunning : Bool := false
  stopRequested : Bool := false
  tasks : List RequestId := []
  workerAlive : Bool := false
  worker : Option RequestId := none
  swept : Bool := false

namespace Shared

/-- The flags of one request. -/
@[simp] def setRequest (s : Shared) (r : RequestId) (flags : RequestFlags) : Shared :=
  { s with requests := Function.update s.requests r flags }

/-- The `finished` flag is set. -/
@[simp] def finish (s : Shared) (r : RequestId) : Shared :=
  s.setRequest r { s.requests r with finished := true }

/-- The `canceled` flag is set. -/
@[simp] def markCanceled (s : Shared) (r : RequestId) : Shared :=
  s.setRequest r { s.requests r with canceled := true }

/-- The callback of the user is invoked. -/
@[simp] def invokeCompletion (s : Shared) (r : RequestId) : Shared :=
  s.setRequest r { s.requests r with invoked := (s.requests r).invoked + 1 }

end Shared

/-! ## Instructions -/

/-- The callers of `CallbackDispatcher::stop`. -/
inductive Caller where
  | start
  | close
  deriving DecidableEq

/-- The instructions of the threads: a section under a lock is one instruction. -/
inductive Instr where
  -- startThreadsIfNeeded
  | callOnce
  | startDispatcher
  | clearStop
  | dispatcherOn
  | spawnWorker
  | startReactor
  | reactorOn
  | spawnReactor
  | startDone (result : Bool)
  -- sendAsync
  | checkStarted (r : RequestId) (timed : Bool)
  | register (r : RequestId) (timed : Bool)
  | schedule (r : RequestId)
  | enqueue (r : RequestId)
  | post (r : RequestId)
  | removeQueued (r : RequestId)
  -- completeRequest
  | tryFinish (r : RequestId)
  | eraseContext (r : RequestId)
  | isRunning (r : RequestId)
  | postCallback (r : RequestId)
  | invokeCompletion (r : RequestId)
  -- RequestContext::cancel
  | contextFinished (r : RequestId)
  | contextCanceled (r : RequestId)
  -- cancel
  | findContext (r : RequestId)
  | isFinished (r : RequestId)
  | markCanceled (r : RequestId)
  | postCancel (r : RequestId)
  -- drainSubmitQueue
  | drainSubmitQueue
  -- handleCancelOnReactor and handleTimeoutOnReactor
  | handleFind (r : RequestId)
  | handleFinished (r : RequestId)
  | handleMark (r : RequestId)
  | handleQueues (r : RequestId)
  -- close
  | stopReactor
  | reactorOff
  | joinReactor
  | failQueuedRequests
  | failAllContexts
  -- CallbackDispatcher::stop
  | stopDispatcher (caller : Caller)
  | requestStop (caller : Caller)
  | joinWorker (caller : Caller)
  | dispatcherOff (caller : Caller)
  | clearTasks (caller : Caller)
  deriving DecidableEq

/-- What a step leaves open: whether the reactor starts, and which requests the events of a
connection complete. -/
structure Choice where
  ok : Bool := true
  events : List RequestId := []
  deriving DecidableEq

/-- What follows `CallbackDispatcher::stop`. -/
def Caller.next : Caller → List Instr
  | .start => [.startDone false]
  | .close => [.failQueuedRequests]

/-- Execute an instruction: the new memory and the instructions that it leads to. An instruction that
has to wait is not executed. -/
def exec (choice : Choice) (s : Shared) : Instr → Option (Shared × List Instr)
  | .callOnce =>
    match s.startOnce with
    | .fresh => some ({ s with startOnce := .active }, [.startDispatcher])
    | .active => none
    | .done _ => some (s, [])
  | .startDispatcher => some (s, [if s.dispatcherRunning then .startReactor else .clearStop])
  | .clearStop => some ({ s with stopRequested := false }, [.dispatcherOn])
  | .dispatcherOn => some ({ s with dispatcherRunning := true }, [.spawnWorker])
  | .spawnWorker => some ({ s with workerAlive := true }, [.startReactor])
  | .startReactor =>
    some (s, [if s.reactorRunning then .startDone true
      else if choice.ok then .reactorOn else .stopDispatcher .start])
  | .reactorOn => some ({ s with reactorRunning := true }, [.spawnReactor])
  | .spawnReactor => some ({ s with reactorAlive := true }, [.startDone true])
  | .startDone result => some ({ s with startOnce := .done result }, [])
  | .checkStarted r timed =>
    some (s, [if s.startOnce = .done true then .register r timed else .tryFinish r])
  | .register r timed =>
    some ({ s with contexts := r :: s.contexts }, [if timed then .schedule r else .enqueue r])
  | .schedule r => some (s, [if s.reactorRunning then .enqueue r else .tryFinish r])
  | .enqueue r => some ({ s with submitQueue := s.submitQueue ++ [r] }, [.post r])
  | .post r => some (s, if s.reactorRunning then [] else [.removeQueued r])
  | .removeQueued r => some ({ s with submitQueue := s.submitQueue.erase r }, [.tryFinish r])
  | .tryFinish r =>
    if (s.requests r).finished then some (s, []) else some (s.finish r, [.eraseContext r])
  | .eraseContext r =>
    some ({ s with contexts := s.contexts.filter fun id => id ≠ r }, [.isRunning r])
  | .isRunning r =>
    some (s, [if s.dispatcherRunning then .postCallback r else .invokeCompletion r])
  | .postCallback r =>
    if s.dispatcherRunning && !s.stopRequested then
      some ({ s with tasks := s.tasks ++ [r] }, [])
    else some (s, [.invokeCompletion r])
  | .invokeCompletion r => some (s.invokeCompletion r, [])
  | .contextFinished r => some (s, if (s.requests r).finished then [] else [.contextCanceled r])
  | .contextCanceled r =>
    if (s.requests r).canceled then some (s, []) else some (s.markCanceled r, [.findContext r])
  | .findContext r => some (s, if r ∈ s.contexts then [.isFinished r] else [])
  | .isFinished r => some (s, if (s.requests r).finished then [] else [.markCanceled r])
  | .markCanceled r => some (s.markCanceled r, [.postCancel r])
  | .postCancel r => some (s, if s.reactorRunning then [] else [.handleFind r])
  | .drainSubmitQueue => some ({ s with submitQueue := [] }, [])
  | .handleFind r => some (s, if r ∈ s.contexts then [.handleFinished r] else [])
  | .handleFinished r => some (s, if (s.requests r).finished then [] else [.handleMark r])
  | .handleMark r => some (s.markCanceled r, [.handleQueues r])
  | .handleQueues r =>
    some ({ s with submitQueue := s.submitQueue.erase r },
      choice.events.map .tryFinish ++ [.tryFinish r])
  | .stopReactor => some (s, [if s.reactorRunning then .reactorOff else .stopDispatcher .close])
  | .reactorOff => some ({ s with reactorRunning := false }, [.joinReactor])
  | .joinReactor => if s.reactorAlive then none else some (s, [.stopDispatcher .close])
  | .failQueuedRequests =>
    some ({ s with submitQueue := [] }, s.submitQueue.map .tryFinish ++ [.failAllContexts])
  | .failAllContexts => some ({ s with swept := true }, s.contexts.map .tryFinish)
  | .stopDispatcher caller =>
    some (s, if s.dispatcherRunning then [.requestStop caller] else caller.next)
  | .requestStop caller => some ({ s with stopRequested := true }, [.joinWorker caller])
  | .joinWorker caller => if s.workerAlive then none else some (s, [.dispatcherOff caller])
  | .dispatcherOff caller => some ({ s with dispatcherRunning := false }, [.clearTasks caller])
  | .clearTasks caller => some ({ s with tasks := [] }, caller.next)

/-! ## Threads -/

/-- What a thread has been made for. -/
inductive Call where
  | reactor
  | sendAsync (r : RequestId)
  | cancel (r : RequestId)
  | close
  deriving DecidableEq

/-- The request of a call of `sendAsync`. -/
def Call.submitted? : Call → Option RequestId
  | .sendAsync r => some r
  | _ => none

/-- The memory and the threads; the first thread is the one of the reactor. -/
structure State where
  shared : Shared := {}
  threads : Pool Call Instr := [⟨.reactor, []⟩]

/-- What the reactor runs: `handleCancel` stands for timeouts as well. -/
inductive Handler where
  | drain
  | handleCancel (r : RequestId)
  | complete (r : RequestId)
  deriving DecidableEq

/-- The first instruction of a task of the reactor. -/
def Handler.program : Handler → List Instr
  | .drain => [.drainSubmitQueue]
  | .handleCancel r => [.handleFind r]
  | .complete r => [.tryFinish r]

/-- A step: a user thread enters a call, a thread executes its next instruction, the reactor
runs a handler or ends, and the worker of the dispatcher takes a task, runs it or ends. -/
inductive Op where
  | sendAsync (timed : Bool)
  | cancel (r : RequestId)
  | cancelContext (r : RequestId)
  | close
  | run (t : Nat) (choice : Choice)
  | reactorHandles (handler : Handler)
  | reactorEnds
  | workerTakes
  | workerRuns
  | workerEnds
  deriving DecidableEq

namespace State

/-- A new user thread. -/
def spawn (s : State) (call : Call) (program : List Instr) : State :=
  { s with threads := s.threads ++ [⟨call, program⟩] }

/-- The reactor has no call left. -/
def reactorIdle (s : State) : Bool :=
  match s.threads with
  | ⟨.reactor, []⟩ :: _ => true
  | _ => false

/-- Execute a step; `none` means that it is not enabled. -/
def apply (s : State) : Op → Option State
  | .sendAsync timed =>
    let r := s.shared.nextRequestId
    some ({ s with shared := { s.shared with nextRequestId := r + 1 } }.spawn (.sendAsync r)
      [.callOnce, .checkStarted r timed])
  | .cancel r => some (s.spawn (.cancel r) [.findContext r])
  | .cancelContext r => some (s.spawn (.cancel r) [.contextFinished r])
  | .close => some (s.spawn .close [.stopReactor])
  | .run t choice => do
    let (th, i) ← s.threads.head? t
    let (shared, new) ← exec choice s.shared i
    return { shared, threads := s.threads.advance t th new }
  | .reactorHandles handler =>
    if s.shared.reactorAlive && s.reactorIdle then
      some { s with threads := s.threads.set 0 ⟨.reactor, handler.program⟩ }
    else none
  | .reactorEnds =>
    if s.shared.reactorAlive && !s.shared.reactorRunning && s.reactorIdle then
      some { s with shared := { s.shared with reactorAlive := false } }
    else none
  | .workerTakes =>
    match s.shared.worker, s.shared.tasks with
    | none, r :: tasks =>
      if s.shared.workerAlive then
        some { s with shared := { s.shared with worker := some r, tasks } }
      else none
    | _, _ => none
  | .workerRuns =>
    match s.shared.worker with
    | some r => some { s with shared := { s.shared.invokeCompletion r with worker := none } }
    | none => none
  | .workerEnds =>
    if s.shared.workerAlive && s.shared.worker.isNone && s.shared.stopRequested &&
        s.shared.tasks.isEmpty then
      some { s with shared := { s.shared with workerAlive := false } }
    else none

/-- A step as a machine without output; a step that cannot be taken fails. -/
def step (s : State) (op : Op) : Except Unit (State × Unit) :=
  match s.apply op with
  | some s' => .ok (s', ())
  | none => .error ()

/-- `close` has been called. -/
def Closed (s : State) : Prop := ∃ th ∈ s.threads, th.call = .close

/-- All the calls of a kind have returned. -/
def Returned (s : State) (calls : Call → Prop) : Prop :=
  ∀ th ∈ s.threads, calls th.call → th.program = []

/-- The callback of every request that `sendAsync` has been called for has been invoked exactly
once. -/
def InvokedOnce (s : State) : Prop :=
  ∀ th ∈ s.threads, ∀ r ∈ th.call.submitted?, (s.shared.requests r).invoked = 1

instance (s : State) : Decidable s.Closed := inferInstanceAs (Decidable (∃ th ∈ s.threads, _))

instance (s : State) (calls : Call → Prop) [DecidablePred calls] : Decidable (s.Returned calls) :=
  inferInstanceAs (Decidable (∀ th ∈ s.threads, _))

instance (s : State) : Decidable s.InvokedOnce :=
  inferInstanceAs (Decidable (∀ th ∈ s.threads, ∀ r ∈ th.call.submitted?, _))

end State

/-- Every call of `close` in a trace comes behind the start of the threads. -/
def ClosedAfterStart (tr : List (Machine.Entry State Op Unit)) : Prop :=
  ∀ e ∈ tr, e.input = .close → e.pre.shared.startOnce.isDone = true

instance (tr : List (Machine.Entry State Op Unit)) : Decidable (ClosedAfterStart tr) :=
  inferInstanceAs (Decidable (∀ e ∈ tr, _))

end Callbacks

end Chttp2
