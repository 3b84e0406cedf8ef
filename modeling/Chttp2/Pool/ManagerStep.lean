import Chttp2.Pool.Manager

/-!
# The cases of a step of the manager

`ManagerStep` lists what a step of the connection manager can do: one constructor for each way
through the handlers, with the state that it leads to or the reason for which it stops. The handlers
that several steps share have lists of their own: `HandOverStep` for a request that is handed to a
connection, `CloseStep` for a connection that is closed, `AbandonStep` for a request that is cancelled
or late, `TaskStep` for a task of the reactor and `CallStep` for a call that goes on. The invariants
of the manager are proved by cases on these lists (`apply_cases`).
-/

set_option autoImplicit false

namespace Chttp2

/-! ## Connections -/

/-- The calls by which the reactor serves a connection whose descriptor or timer is ready. -/
inductive Connection.Served (c : Connection) :
    Connection → List (SessionEvent RequestId) → Prop
  | readable {chunks : List Bytes} {last : ReadEnd} {c' : Connection}
      {events : List (SessionEvent RequestId)}
      (h : c.onSessionReadable chunks last = .ok (c', events)) : Served c c' events
  | writable {writes : List WriteResult} {c' : Connection}
      (h : c.onSessionWritable writes = .ok c') : Served c c' []
  | pingTimer {c' : Connection} {events : List (SessionEvent RequestId)} (hon : c.pingTimer = true)
      (h : c.onPingTimer = .ok (c', events)) : Served c c' events

theorem Connection.Served.ref {c c' : Connection} {events : List (SessionEvent RequestId)}
    (h : c.Served c' events) : c'.ref = c.ref := by
  cases h with
  | readable h => exact Connection.ref_onSessionReadable h
  | writable h => exact Connection.ref_onSessionWritable h
  | pingTimer hon h => exact Connection.ref_onPingTimer h

namespace ConnectionManager

section Managed

variable {α β : Type}

theorem managed_bind_eq_ok {x : Managed α} {f : α → Managed β} {b : β} :
    (x >>= f) = .ok b ↔ ∃ a, x = .ok a ∧ f a = .ok b := by
  cases x <;> simp [bind, Except.bind]

/-- A computation of a session has a value or ends in a fault. -/
theorem managed_bind_cases {x : Guarded α} {f : α → Managed β} {P : Managed β → Prop}
    (hfault : ∀ e, P (.error (.fault e))) (hok : ∀ a, x = .ok a → P (f a)) :
    P (managed x >>= f) := by
  cases hx : x with
  | ok a => exact hok a hx
  | error e => exact hfault e

end Managed

/-! ## Handing over and closing -/

/-- What becomes of a request that is handed to a connection. -/
inductive HandOverStep (m : ConnectionManager) (conn : Connection) (pr : PendingRequest) :
    Managed ConnectionManager → Prop
  | fault (e : Fault) : HandOverStep m conn pr (.error (.fault e))
  | refused (hoff : conn.connected = false) (response : Response) :
      HandOverStep m conn pr (.ok ({ m with
        handedOver := m.handedOver ++ [(pr, conn.endpoint)]
      }.completeRequest pr.context response))
  | submitted (hon : conn.connected = true) (streamId : StreamId) {rehash : Rehash}
      {session : Http2Session RequestId} {events : List (SessionEvent RequestId)}
      (hsubmit : conn.session.submit pr.request pr.context (m.context pr.context).canceled
        (m.context pr.context).finished rehash.streams rehash.streamContexts =
          .ok (session, events)) :
      HandOverStep m conn pr (.ok (({ m with
        handedOver := m.handedOver ++ [(pr, conn.endpoint)]
        requests := m.requests.set { m.context pr.context with streamId }
        connections := m.connections.set { conn with session }
      }.push (.submitted pr.context conn.connId)).push
        (.processSessionEvents conn.connId events)))

/-- What becomes of a connection that the manager closes. -/
inductive CloseStep (m : ConnectionManager) (connId : ConnectionId) :
    Managed ConnectionManager → Prop
  | fault (e : Fault) : CloseStep m connId (.error (.fault e))
  | dangling (hgone : m.connections.find? connId = none) :
      CloseStep m connId (.error .danglingConnection)
  | closed {conn conn' : Connection} {events : List (SessionEvent RequestId)}
      (hfind : m.connections.find? connId = some conn)
      (hclose : conn.closeOnReactor = .ok (conn', events)) :
      CloseStep m connId (.ok ({ m with connections := m.connections.set conn' }.push
        (.processSessionEvents connId events)))

/-! ## Abandoned requests -/

/-- What becomes of a request that is cancelled or has run out of time. -/
inductive AbandonStep (m : ConnectionManager) (requestId : RequestId) :
    Managed ConnectionManager → Prop
  | fault (e : Fault) : AbandonStep m requestId (.error (.fault e))
  | dangling {entry : RequestId × ConnectionId}
      (hentry : m.requestConnections.find? requestId = some entry)
      (hgone : m.connections.find? entry.2 = none) :
      AbandonStep m requestId (.error .danglingConnection)
  | unknown : AbandonStep m requestId (.ok m)
  | dequeued (response : Response) :
      AbandonStep m requestId (.ok ({ m.markCanceled requestId with
        submitQueue := m.submitQueue.eraseP fun pr => pr.context = requestId
      }.completeRequest requestId response))
  | withdrawn {kv : Endpoint × List PendingRequest} (hkv : kv ∈ m.pendingByEndpoint.entries)
      (response : Response) :
      AbandonStep m requestId (.ok ({ m.markCanceled requestId with
        pendingByEndpoint := m.pendingByEndpoint.set
          (kv.1, kv.2.eraseP fun pr => pr.context = requestId)
      }.completeRequest requestId response))
  /-- it is on no connection, or on one that is not connected -/
  | elsewhere (response : Response) :
      AbandonStep m requestId
        (.ok ((m.markCanceled requestId).push (.finishRequest requestId response)))
  | onConnection {entry : RequestId × ConnectionId} {conn : Connection} {streamId : StreamId}
      {session : Http2Session RequestId} {events : List (SessionEvent RequestId)}
      (hentry : m.requestConnections.find? requestId = some entry)
      (hfind : m.connections.find? entry.2 = some conn)
      (hcancel : conn.session.cancelRequest streamId = .ok (session, events))
      (response : Response) :
      AbandonStep m requestId (.ok ({ (m.markCanceled requestId).push
          (.finishRequest requestId response) with
        connections := m.connections.set { conn with session }
      }.push (.processSessionEvents entry.2 events)))

/-! ## Tasks -/

/-- What a task of the reactor does. -/
inductive TaskStep (m : ConnectionManager) : ReactorTask → Managed ConnectionManager → Prop
  | fault (task : ReactorTask) (e : Fault) : TaskStep m task (.error (.fault e))
  | drainSubmitQueue : TaskStep m .drainSubmitQueue (.ok m.drainSubmitQueue)
  /-- the reactor does not take the descriptor -/
  | unregistered (ep : Endpoint) (conn : Connection) :
      TaskStep m (.onConnectionEstablished ep conn) (.ok (m.onConnectionFailed ep))
  | registered {ep : Endpoint} {conn conn' : Connection} {registered : Bool} (rehash : Rehash)
      (hregister : conn.registerWithReactor registered = .ok (conn', true)) :
      TaskStep m (.onConnectionEstablished ep conn) (.ok { m with
        connectingEndpoints := m.connectingEndpoints.erase ep.key
        connections := m.connections.insert (.id _) conn'
        pools := m.pools.pushBack rehash.pools ep conn'.connId })
  | dispatching {ep : Endpoint} {conn conn' : Connection} {registered : Bool} (rehash : Rehash)
      {kv : Endpoint × List PendingRequest}
      (hregister : conn.registerWithReactor registered = .ok (conn', true))
      (hpending : m.pendingByEndpoint.find? ep.key = some kv) :
      TaskStep m (.onConnectionEstablished ep conn) (.ok ({ m with
        connectingEndpoints := m.connectingEndpoints.erase ep.key
        connections := m.connections.insert (.id _) conn'
        pools := m.pools.pushBack rehash.pools ep conn'.connId
        pendingByEndpoint := m.pendingByEndpoint.erase ep.key
      }.push (.onConnectionEstablished ep conn'.connId kv.2)))
  | onConnectionFailed (ep : Endpoint) :
      TaskStep m (.onConnectionFailed ep) (.ok (m.onConnectionFailed ep))
  | abandoned {requestId : RequestId} {r : Managed ConnectionManager}
      (h : AbandonStep m requestId r) : TaskStep m (.handleCancelOnReactor requestId) r
  | closeOnReactor : TaskStep m .closeOnReactor (.ok m.closeOnReactor)

/-! ## Calls that go on -/

/-- The request that a loop comes to, the endpoint under which it may be queued again, and the loop
behind it. -/
inductive Visits : CallFrame → PendingRequest → Endpoint → CallFrame → Prop
  | drainSubmitQueue (pr : PendingRequest) (localQueue : List PendingRequest) :
      Visits (.drainSubmitQueue (pr :: localQueue)) pr pr.endpoint (.drainSubmitQueue localQueue)
  | onConnectionEstablished (ep : Endpoint) (raw : ConnectionId) (pr : PendingRequest)
      (pending : List PendingRequest) :
      Visits (.onConnectionEstablished ep raw (pr :: pending)) pr ep
        (.onConnectionEstablished ep raw pending)

/-- The call may return without doing anything. -/
inductive Returns : CallFrame → Prop
  | drainSubmitQueue : Returns (.drainSubmitQueue [])
  | onConnectionEstablished (ep : Endpoint) (raw : ConnectionId) :
      Returns (.onConnectionEstablished ep raw [])
  /-- the connection has no room for another stream -/
  | trySubmitPending (ep : Endpoint) (conn : ConnectionId) : Returns (.trySubmitPending ep conn)
  | processSessionEvents (conn : ConnectionId) : Returns (.processSessionEvents conn [])

/-- The connection that a loop hands its requests to. -/
inductive Chosen (m : ConnectionManager) (pr : PendingRequest) (conn : Connection) :
    CallFrame → Prop
  | picked {localQueue : List PendingRequest}
      (h : m.pickConnectionOnReactor pr.endpoint = some conn) :
      Chosen m pr conn (.drainSubmitQueue localQueue)
  | raw {ep : Endpoint} {raw : ConnectionId} {pending : List PendingRequest}
      (h : m.connections.find? raw = some conn) :
      Chosen m pr conn (.onConnectionEstablished ep raw pending)

/-- What a call does up to its next call, which is put on top of it. The call itself has been taken
from the stack. -/
inductive CallStep (m : ConnectionManager) : CallFrame → Managed ConnectionManager → Prop
  | fault (frame : CallFrame) (e : Fault) : CallStep m frame (.error (.fault e))
  | returned {frame : CallFrame} (h : Returns frame) : CallStep m frame (.ok m)
  | danglingTarget {ep : Endpoint} {raw : ConnectionId} {pending : List PendingRequest}
      (hgone : m.connections.find? raw = none) :
      CallStep m (.onConnectionEstablished ep raw pending) (.error .danglingConnection)
  | canceled {frame rest : CallFrame} {pr : PendingRequest} {ep : Endpoint}
      (h : Visits frame pr ep rest) (response : Response) :
      CallStep m frame (.ok ((m.push rest).completeRequest pr.context response))
  | handedOver {frame rest : CallFrame} {pr : PendingRequest} {ep : Endpoint} {conn : Connection}
      {r : Managed ConnectionManager} (h : Visits frame pr ep rest) (hconn : Chosen m pr conn rest)
      (hr : HandOverStep (m.push rest) conn pr r) : CallStep m frame r
  | parked {frame rest : CallFrame} {pr : PendingRequest} {ep : Endpoint}
      (h : Visits frame pr ep rest) (rehash : Rehash) :
      CallStep m frame (.ok ((m.push rest).park ep pr rehash))
  | dialed (pr : PendingRequest) (localQueue : List PendingRequest) (rehash : Rehash) :
      CallStep m (.drainSubmitQueue (pr :: localQueue))
        (.ok (((m.push (.drainSubmitQueue localQueue)).park pr.endpoint pr rehash).enqueueConnectTask
          pr.endpoint))
  | danglingQueue {ep : Endpoint} {connId : ConnectionId}
      (hgone : m.pendingByEndpoint.find? ep.key = none) :
      CallStep m (.trySubmitPending ep connId) (.error .danglingQueue)
  | danglingLoop {ep : Endpoint} {connId : ConnectionId}
      (hgone : m.connections.find? connId = none) :
      CallStep m (.trySubmitPending ep connId) (.error .danglingConnection)
  | emptied {ep e : Endpoint} {connId : ConnectionId}
      (hqueue : m.pendingByEndpoint.find? ep.key = some (e, [])) :
      CallStep m (.trySubmitPending ep connId)
        (.ok { m with pendingByEndpoint := m.pendingByEndpoint.erase ep.key })
  | nextCanceled {ep e : Endpoint} {connId : ConnectionId} {pr : PendingRequest}
      {queue : List PendingRequest} (hqueue : m.pendingByEndpoint.find? ep.key = some (e, pr :: queue))
      (hfind : (m.connections.find? connId).isSome) (response : Response) :
      CallStep m (.trySubmitPending ep connId) (.ok ({ m with
        pendingByEndpoint := m.pendingByEndpoint.set (e, queue)
        stack := .trySubmitPending ep connId :: m.stack
      }.completeRequest pr.context response))
  | nextHandedOver {ep e : Endpoint} {connId : ConnectionId} {pr : PendingRequest}
      {queue : List PendingRequest} {conn : Connection} {r : Managed ConnectionManager}
      (hqueue : m.pendingByEndpoint.find? ep.key = some (e, pr :: queue))
      (hfind : m.connections.find? connId = some conn)
      (hr : HandOverStep { m with
        pendingByEndpoint := m.pendingByEndpoint.set (e, queue)
        stack := .trySubmitPending ep connId :: m.stack } conn pr r) :
      CallStep m (.trySubmitPending ep connId) r
  | recorded (context : RequestId) (connId : ConnectionId) :
      CallStep m (.submitted context connId) (.ok { m with
        requestConnections := m.requestConnections.insert (.id _) (context, connId) })
  | danglingEvents {connId : ConnectionId} {events : List (SessionEvent RequestId)}
      (hgone : m.connections.find? connId = none) :
      CallStep m (.processSessionEvents connId events) (.error .danglingConnection)
  | danglingReport {connId : ConnectionId} {context : RequestId}
      {events : List (SessionEvent RequestId)} {entry : RequestId × ConnectionId}
      (hentry : m.requestConnections.find? context = some entry)
      (hgone : m.connections.find? entry.2 = none) :
      CallStep m (.processSessionEvents connId events) (.error .danglingConnection)
  | reported {connId : ConnectionId} {context : RequestId} {response : Response}
      {events : List (SessionEvent RequestId)} {conn : Connection}
      (hfind : m.connections.find? connId = some conn)
      (hentry : m.requestConnections.find? context = none) :
      CallStep m (.processSessionEvents connId (.requestDone context response :: events))
        (.ok ({ m.push (.processSessionEvents connId events) with
          connections := m.connections.set conn
          requestConnections := m.requestConnections.erase context
        }.completeRequest context response))
  /-- the connection of the request may take another one -/
  | replaced {connId : ConnectionId} {context : RequestId} {response : Response}
      {events : List (SessionEvent RequestId)} {conn : Connection}
      {entry : RequestId × ConnectionId} (ep : Endpoint)
      (hfind : m.connections.find? connId = some conn)
      (hentry : m.requestConnections.find? context = some entry) :
      CallStep m (.processSessionEvents connId (.requestDone context response :: events))
        (.ok (({ m.push (.processSessionEvents connId events) with
          connections := m.connections.set conn
          requestConnections := m.requestConnections.erase context
        }.completeRequest context response).trySubmitPending ep))
  | noted {connId : ConnectionId} {event : SessionEvent RequestId}
      {events : List (SessionEvent RequestId)} {conn : Connection}
      (hfind : m.connections.find? connId = some conn)
      (hevent : event = .sessionClosing ∨ event = .pingAck) :
      CallStep m (.processSessionEvents connId (event :: events))
        (.ok { m.push (.processSessionEvents connId events) with
          connections := m.connections.set (conn.handleEvent event) })
  | died {connId : ConnectionId} {events : List (SessionEvent RequestId)} {conn : Connection}
      (hfind : m.connections.find? connId = some conn) :
      CallStep m (.processSessionEvents connId (.sessionDead :: events))
        (.ok ({ m.push (.processSessionEvents connId events) with
          connections := m.connections.set (conn.handleEvent .sessionDead)
        }.onConnectionLost connId))
  | finished (context : RequestId) (response : Response) :
      CallStep m (.finishRequest context response) (.ok (m.completeRequest context response))
  | destroyed :
      CallStep m (.closeOnReactor [])
        (.ok { m with requestConnections := .empty, connections := .empty })
  | closed {connId : ConnectionId} {conns : List ConnectionId} {r : Managed ConnectionManager}
      (h : CloseStep (m.push (.closeOnReactor conns)) connId r) :
      CallStep m (.closeOnReactor (connId :: conns)) r
  | lost (connId : ConnectionId) :
      CallStep m (.connectionLost connId) (.ok (m.onConnectionLost connId))

/-! ## Steps -/

/-- The members that say how far the threads have come. -/
structure ThreadState where
  startResult : Option Bool
  connectorStop : Bool
  connectorDone : Bool
  running : Bool
  alive : Bool
  closing : ClosePhase

/-- The threads have gone on. -/
def setThreads (m : ConnectionManager) (t : ThreadState) : ConnectionManager :=
  { m with
    startResult := t.startResult, connectorStop := t.connectorStop
    connectorDone := t.connectorDone, running := t.running, alive := t.alive
    closing := t.closing }

/-- The context of a new request. -/
def register (m : ConnectionManager) (timeoutMs : Int) : ConnectionManager :=
  { m with
    nextRequestId := m.nextRequestId + 1
    requests := m.requests.insert (.id _) { requestId := m.nextRequestId, timeoutMs } }

/-- The timer of a request is set or has fired. -/
def setTimer (m : ConnectionManager) (requestId : RequestId) (timer : Bool) : ConnectionManager :=
  { m with requests := m.requests.set { m.context requestId with timer } }

/-- The connection that the reactor serves in a step. -/
def Op.served : Op → Option ConnectionId
  | .onSessionReadable conn _ _ | .onSessionWritable conn _ | .onPingTimer conn => some conn
  | _ => none

/-- What a step does. -/
inductive ManagerStep (m : ConnectionManager) : Op → Managed ConnectionManager → Prop
  | disabled (op : Op) : ManagerStep m op (.error .disabled)
  | fault (op : Op) (e : Fault) : ManagerStep m op (.error (.fault e))
  | startFailed (request : Request) (ep : Endpoint) (timeoutMs : Int) (started : Bool)
      (t : ThreadState) (response : Response) :
      ManagerStep m (.sendAsync request ep timeoutMs started)
        (.ok (((m.register timeoutMs).setThreads t).completeRequest m.nextRequestId response))
  | sent (request : Request) (ep : Endpoint) (timeoutMs : Int) (started : Bool) (t : ThreadState) :
      ManagerStep m (.sendAsync request ep timeoutMs started) (.ok { (m.register
          timeoutMs).setThreads t with
        contexts := m.contexts ++ [m.nextRequestId]
        sending := m.sending.insert (.id _) ⟨⟨request, ep, m.nextRequestId⟩, .schedule⟩ })
  | untimed {context : RequestId} {call : SendCall} (hcall : m.sending.find? context = some call)
      (hphase : call.phase = .schedule) :
      ManagerStep m (.continueSend context)
        (.ok { m with sending := m.sending.set { call with phase := .enqueue } })
  | unscheduled {context : RequestId} {call : SendCall}
      (hcall : m.sending.find? context = some call) (response : Response) :
      ManagerStep m (.continueSend context)
        (.ok ({ m with sending := m.sending.erase context }.completeRequest context response))
  | scheduled {context : RequestId} {call : SendCall}
      (hcall : m.sending.find? context = some call) (hphase : call.phase = .schedule) :
      ManagerStep m (.continueSend context) (.ok { m.setTimer context true with
        sending := m.sending.set { call with phase := .enqueue } })
  | queued {context : RequestId} {call : SendCall} (hcall : m.sending.find? context = some call)
      (hphase : call.phase = .enqueue) :
      ManagerStep m (.continueSend context) (.ok { m with
        submitQueue := m.submitQueue ++ [call.pending]
        sending := m.sending.set { call with phase := .post } })
  | posted {context : RequestId} {call : SendCall} (hcall : m.sending.find? context = some call)
      (hphase : call.phase = .post) :
      ManagerStep m (.continueSend context) (.ok { m with
        sending := m.sending.erase context
        tasks := m.tasks ++ [.drainSubmitQueue] })
  /-- the reactor is off, and the request is taken back if it is still in the queue -/
  | unposted {context : RequestId} {call : SendCall} (hcall : m.sending.find? context = some call)
      (hphase : call.phase = .post) (response : Response) :
      ManagerStep m (.continueSend context) (.ok ({ m with
        sending := m.sending.erase context
        submitQueue := m.submitQueue.eraseP fun pr => pr.context = context
      }.completeRequest context response))
  | late (requestId : RequestId) : ManagerStep m (.markCanceled requestId) (.ok m)
  | marked (requestId : RequestId) :
      ManagerStep m (.markCanceled requestId) (.ok (m.markCanceled requestId))
  | unknown (requestId : RequestId) : ManagerStep m (.cancel requestId) (.ok m)
  | cancelPosted (requestId : RequestId) :
      ManagerStep m (.cancel requestId) (.ok { m.markCanceled requestId with
        tasks := m.tasks ++ [.handleCancelOnReactor requestId] })
  | dataRace {requestId : RequestId} (hoff : m.running = false)
      (hbusy : m.alive = true ∨ m.stack ≠ []) :
      ManagerStep m (.cancel requestId) (.error .dataRace)
  /-- the handler runs on the thread of the user -/
  | abandoned {requestId : RequestId} {r : Managed ConnectionManager} (hstack : m.stack = [])
      (h : AbandonStep (m.markCanceled requestId) requestId r) : ManagerStep m (.cancel requestId) r
  | closing (t : ThreadState) : ManagerStep m .close (.ok (m.setThreads t))
  | closePosted (t : ThreadState) :
      ManagerStep m .close (.ok { m.setThreads t with tasks := m.tasks ++ [.closeOnReactor] })
  | joined (t : ThreadState) (hstack : m.stack = []) :
      ManagerStep m .close (.ok { m.setThreads t with tasks := [] })
  | failedQueued (t : ThreadState) (response : Response) :
      ManagerStep m .close (.ok ((m.setThreads t).failQueuedRequests response))
  | failedAll (t : ThreadState) (response : Response) :
      ManagerStep m .close (.ok ((m.setThreads t).failAllContexts response))
  | dropped {ready : Bool} {task : ConnectTask} {connectTasks : List ConnectTask}
      (htasks : m.connectTasks = task :: connectTasks) :
      ManagerStep m (.connect ready) (.ok { m with connectTasks })
  | connected {ready ok : Bool} {task : ConnectTask} {connectTasks : List ConnectTask}
      {conn : Connection} (htasks : m.connectTasks = task :: connectTasks)
      (hconnect : (Connection.make task.connId task.endpoint m.config).connect ready =
        .ok (conn, ok)) :
      ManagerStep m (.connect ready) (.ok { m with
        connectTasks
        tasks := m.tasks ++ [.onConnectionEstablished task.endpoint conn] })
  | unconnected {ready : Bool} {task : ConnectTask} {connectTasks : List ConnectTask}
      (htasks : m.connectTasks = task :: connectTasks) :
      ManagerStep m (.connect ready) (.ok { m with
        connectTasks, tasks := m.tasks ++ [.onConnectionFailed task.endpoint] })
  | ranTask {registered : Bool} {rehash : Rehash} {task : ReactorTask} {tasks : List ReactorTask}
      {r : Managed ConnectionManager} (hstack : m.stack = []) (htasks : m.tasks = task :: tasks)
      (h : TaskStep { m with tasks } task r) : ManagerStep m (.runTask registered rehash) r
  | timedOut {requestId : RequestId} {r : Managed ConnectionManager} (hstack : m.stack = [])
      (h : AbandonStep (m.setTimer requestId false) requestId r) :
      ManagerStep m (.timeout requestId) r
  | served {op : Op} {connId : ConnectionId} {conn conn' : Connection}
      {events : List (SessionEvent RequestId)} (hop : op.served = some connId) (hstack : m.stack = [])
      (hfind : m.connections.find? connId = some conn) (hserved : conn.Served conn' events) :
      ManagerStep m op (.ok ({ m with connections := m.connections.set conn' }.push
        (.processSessionEvents connId events)))
  | answered {connId : ConnectionId} {conn : Connection} (hstack : m.stack = [])
      (hfind : m.connections.find? connId = some conn) (hon : conn.pingTimeoutTimer = true)
      (hnone : conn.pendingPing = false ∨ conn.connected = false) :
      ManagerStep m (.onPingTimeout connId)
        (.ok { m with connections := m.connections.set { conn with pingTimeoutTimer := false } })
  | unanswered {connId : ConnectionId} {conn : Connection} {r : Managed ConnectionManager}
      (hstack : m.stack = []) (hfind : m.connections.find? connId = some conn)
      (h : CloseStep ({ m with
        connections := m.connections.set { conn with pingTimeoutTimer := false, pendingPing := false }
      }.push (.connectionLost connId)) connId r) :
      ManagerStep m (.onPingTimeout connId) r
  | worked {rehash : Rehash} {frame : CallFrame} {stack : List CallFrame}
      {r : Managed ConnectionManager} (hstack : m.stack = frame :: stack)
      (h : CallStep { m with stack } frame r) : ManagerStep m (.work rehash) r

/-! ## The parts that handlers share -/

section Shared

variable (context : RequestId) (response : Response)

theorem completeRequest_cases (m : ConnectionManager) :
    m.completeRequest context response = m ∨
      m.completeRequest context response = { m with
        requests := m.requests.set { m.context context with finished := true, timer := false }
        contexts := m.contexts.filter fun id => id ≠ context
        completed := m.completed ++ [(context, response)] } :=
  ite_eq_or_eq _ _ _

@[simp] theorem stack_completeRequest (m : ConnectionManager) :
    (m.completeRequest context response).stack = m.stack := by
  rcases m.completeRequest_cases context response with heq | heq <;> rw [heq]

@[simp] theorem connections_completeRequest (m : ConnectionManager) :
    (m.completeRequest context response).connections = m.connections := by
  rcases m.completeRequest_cases context response with heq | heq <;> rw [heq]

@[simp] theorem pools_completeRequest (m : ConnectionManager) :
    (m.completeRequest context response).pools = m.pools := by
  rcases m.completeRequest_cases context response with heq | heq <;> rw [heq]

/-- Completing requests has nothing to do with connections and calls. -/
theorem completeAll_same (contexts : List RequestId) :
    ∀ m : ConnectionManager, (completeAll response contexts m).stack = m.stack ∧
      (completeAll response contexts m).connections = m.connections ∧
      (completeAll response contexts m).pools = m.pools := by
  induction contexts with
  | nil => exact fun m => ⟨rfl, rfl, rfl⟩
  | cons context contexts ih =>
    intro m
    obtain ⟨hstack, hconnections, hpools⟩ := ih (m.completeRequest context response)
    exact ⟨hstack.trans (by simp), hconnections.trans (by simp), hpools.trans (by simp)⟩

/-- The loop is entered with a queue and a connection that are there. -/
theorem trySubmitPending_cases (m : ConnectionManager) (ep : Endpoint) :
    m.trySubmitPending ep = m ∨
      ∃ conn, m.pickConnectionOnReactor ep = some conn ∧ ep.key ∈ m.pendingByEndpoint.keys ∧
        m.trySubmitPending ep = m.push (.trySubmitPending ep conn.connId) := by
  unfold trySubmitPending
  split
  · exact Or.inl rfl
  · exact Or.inl rfl
  rename_i e pr queue hqueue
  split
  · exact Or.inl rfl
  · rename_i conn hpick
    exact Or.inr ⟨conn, hpick, KeyedTable.mem_keys_of_find? hqueue, rfl⟩

/-- The task carries the next id. -/
theorem enqueueConnectTask_cases (m : ConnectionManager) (ep : Endpoint) :
    m.enqueueConnectTask ep = m ∨ m.enqueueConnectTask ep = { m with
      connectingEndpoints := m.connectingEndpoints.insert (.id _) ep
      connectTasks := m.connectTasks ++ [⟨ep, m.nextConnectionId⟩]
      nextConnectionId := m.nextConnectionId + 1 } := by
  unfold enqueueConnectTask
  split
  · exact Or.inl rfl
  · exact ite_eq_or_eq _ _ _

theorem drainPendingForEndpoint_cases (m : ConnectionManager) (ep : Endpoint) :
    m.drainPendingForEndpoint ep = m ∨ ∃ kv, m.pendingByEndpoint.find? ep.key = some kv ∧
      m.drainPendingForEndpoint ep =
        completeAll (.failConnectionError (ascii "Connection failed"))
          (kv.2.map PendingRequest.context)
          { m with pendingByEndpoint := m.pendingByEndpoint.erase ep.key } := by
  unfold drainPendingForEndpoint
  split
  · exact Or.inl rfl
  · rename_i e pending hfind
    exact Or.inr ⟨(e, pending), hfind, rfl⟩

end Shared

/-! ## The handlers -/

section Cases

variable (m : ConnectionManager) (conn : Connection) (pr : PendingRequest) (ep : Endpoint)
  (connId : ConnectionId) (requestId context : RequestId) (response : Response) (rehash : Rehash)

theorem handOver_cases : HandOverStep m conn pr (m.handOver conn pr rehash) := by
  unfold handOver submitOnReactor
  by_cases hoff : (!conn.connected) = true
  · simp only [if_pos hoff]
    exact .refused (by simpa using hoff) _
  · simp only [if_neg hoff, bind_assoc]
    refine managed_bind_cases .fault fun streamId _ => managed_bind_cases .fault fun r hsubmit => ?_
    have happly : conn.session.submit pr.request pr.context (m.context pr.context).canceled
        (m.context pr.context).finished rehash.streams rehash.streamContexts = .ok r := hsubmit
    exact .submitted (by simpa using hoff) _ happly

theorem closeConnection_cases : CloseStep m connId (m.closeConnection connId) := by
  unfold closeConnection
  split
  · rename_i hgone
    exact .dangling hgone
  · rename_i conn hfind
    exact managed_bind_cases .fault fun r hclose => .closed hfind hclose

theorem abandonRequest_cases : AbandonStep m requestId (abandonRequest response m requestId) := by
  unfold abandonRequest
  split
  · exact .unknown
  split
  · exact .unknown
  simp only
  split
  · exact .dequeued response
  split
  · rename_i kv hfind
    have hkv : kv ∈ m.pendingByEndpoint.entries := List.mem_of_find?_eq_some hfind
    exact .withdrawn hkv response
  unfold cancelOnConnection
  split
  · exact .elsewhere response
  rename_i x connId hentry
  have hrecorded : m.requestConnections.find? requestId = some (x, connId) := hentry
  split
  · rename_i hgone
    exact .dangling hrecorded hgone
  rename_i conn hconn
  have hfind : m.connections.find? connId = some conn := hconn
  split
  · exact .elsewhere response
  · exact managed_bind_cases .fault fun r hcancel => .onConnection hrecorded hfind hcancel response

theorem execute_cases (registered : Bool) (task : ReactorTask) :
    TaskStep m task (m.execute registered rehash task) := by
  cases task with
  | drainSubmitQueue => exact .drainSubmitQueue
  | onConnectionEstablished ep conn =>
    refine managed_bind_cases (.fault _) fun r hregister => ?_
    obtain ⟨conn', ok⟩ := r
    cases ok with
    | false => exact .unregistered ep conn
    | true =>
      simp only [Bool.not_true, Bool.false_eq_true, if_false]
      split
      · exact .registered rehash hregister
      · rename_i e pending hpending
        exact .dispatching rehash hregister hpending
  | onConnectionFailed ep => exact .onConnectionFailed ep
  | handleCancelOnReactor requestId => exact .abandoned (abandonRequest_cases m requestId _)
  | closeOnReactor => exact .closeOnReactor

theorem submitPendingRound_cases :
    CallStep m (.trySubmitPending ep connId) (m.submitPendingRound ep connId rehash) := by
  unfold submitPendingRound
  split
  · rename_i hgone
    exact .danglingQueue hgone
  · rename_i e hqueue
    exact .emptied hqueue
  · rename_i e pr queue hqueue hgone
    exact .danglingLoop hgone
  · rename_i e pr queue conn hqueue hfind
    split
    · exact .returned (.trySubmitPending ep connId)
    simp only
    split
    · exact .nextCanceled hqueue (by rw [hfind]; rfl) _
    · exact .nextHandedOver hqueue hfind (handOver_cases _ conn pr rehash)

theorem handleSessionEvent_cases (event : SessionEvent RequestId)
    (events : List (SessionEvent RequestId)) :
    CallStep m (.processSessionEvents connId (event :: events))
      ((m.push (.processSessionEvents connId events)).handleSessionEvent connId event) := by
  unfold handleSessionEvent
  split
  · rename_i hgone
    exact .danglingEvents hgone
  rename_i conn hfind
  cases event with
  | requestDone context response =>
    simp only [onRequestDone]
    split
    · rename_i hentry
      exact .reported hfind hentry
    rename_i x target hentry
    have hrecorded : m.requestConnections.find? context = some (x, target) := hentry
    split
    · rename_i hgone
      rw [connections_completeRequest, KeyedTable.find?_eq_none_iff, KeyedTable.keys_set,
        ← KeyedTable.find?_eq_none_iff] at hgone
      exact .danglingReport hrecorded hgone
    · exact .replaced _ hfind hrecorded
  | sessionClosing => exact .noted hfind (Or.inl rfl)
  | sessionDead => exact .died hfind
  | pingAck => exact .noted hfind (Or.inr rfl)

theorem resume_cases (frame : CallFrame) : CallStep m frame (m.resume rehash frame) := by
  cases frame with
  | drainSubmitQueue localQueue =>
    cases localQueue with
    | nil => exact .returned .drainSubmitQueue
    | cons pr localQueue =>
      rw [resume, drainRequest]
      split
      · exact .canceled (.drainSubmitQueue pr localQueue) _
      split
      · rename_i conn hpick
        split
        · exact .handedOver (.drainSubmitQueue pr localQueue) (.picked hpick)
            (handOver_cases _ conn pr rehash)
        · exact .parked (.drainSubmitQueue pr localQueue) rehash
      · exact .dialed pr localQueue rehash
  | onConnectionEstablished ep raw pending =>
    cases pending with
    | nil => exact .returned (.onConnectionEstablished ep raw)
    | cons pr pending =>
      rw [resume, dispatchPending]
      split
      · exact .canceled (.onConnectionEstablished ep raw pr pending) _
      split
      · rename_i hgone
        exact .danglingTarget hgone
      · rename_i conn hfind
        split
        · exact .handedOver (.onConnectionEstablished ep raw pr pending) (.raw hfind)
            (handOver_cases _ conn pr rehash)
        · exact .parked (.onConnectionEstablished ep raw pr pending) rehash
  | trySubmitPending ep conn => exact submitPendingRound_cases m ep conn rehash
  | submitted context conn => exact .recorded context conn
  | processSessionEvents conn events =>
    cases events with
    | nil => exact .returned (.processSessionEvents conn)
    | cons event events => exact handleSessionEvent_cases m conn event events
  | finishRequest context response => exact .finished context response
  | closeOnReactor conns =>
    cases conns with
    | nil => exact .destroyed
    | cons conn conns => exact .closed (closeConnection_cases _ conn)
  | connectionLost conn => exact .lost conn

theorem startThreadsIfNeeded_cases (started : Bool) :
    ∃ t, m.startThreadsIfNeeded started = m.setThreads t := by
  unfold startThreadsIfNeeded
  split
  · exact ⟨⟨m.startResult, m.connectorStop, m.connectorDone, m.running, m.alive, m.closing⟩, rfl⟩
  split
  · exact ⟨⟨some true, false, m.connectorDone, true, true, m.closing⟩, rfl⟩
  · exact ⟨⟨some false, m.connectorStop, m.connectorDone, m.running, m.alive, m.closing⟩, rfl⟩

theorem sendAsync_cases (request : Request) (timeoutMs : Int) (started : Bool) :
    ManagerStep m (.sendAsync request ep timeoutMs started)
      (.ok (m.sendAsync request ep timeoutMs started)) := by
  obtain ⟨t, ht⟩ := (m.register timeoutMs).startThreadsIfNeeded_cases started
  unfold register at ht
  simp only [sendAsync, ht]
  split
  · exact .startFailed request ep timeoutMs started t _
  · exact .sent request ep timeoutMs started t

theorem continueSend_cases : ManagerStep m (.continueSend context) (m.continueSend context) := by
  unfold continueSend
  split
  · exact .disabled _
  rename_i call hcall
  split
  · rename_i hphase
    simp only
    split
    · exact .untimed hcall hphase
    split
    · exact .unscheduled hcall _
    · exact .scheduled hcall hphase
  · rename_i hphase
    exact .queued hcall hphase
  · rename_i hphase
    simp only
    split
    · exact .posted hcall hphase
    · exact .unposted hcall hphase _

theorem cancel_cases : ManagerStep m (.cancel requestId) (m.cancel requestId) := by
  unfold cancel
  split
  · exact .unknown requestId
  split
  · exact .unknown requestId
  simp only
  split
  · exact .cancelPosted requestId
  rename_i hstopped
  have hoff : (m.markCanceled requestId).running = false := by simpa using hstopped
  split
  · rename_i hused
    have hbusy : (m.markCanceled requestId).alive = true ∨ (m.markCanceled requestId).stack ≠ [] := by
      simpa using hused
    exact .dataRace hoff hbusy
  · rename_i hfree
    have hidle : (m.markCanceled requestId).alive = false ∧ (m.markCanceled requestId).stack = [] := by
      simpa using hfree
    exact .abandoned hidle.2 (abandonRequest_cases _ requestId _)

theorem close_cases : ManagerStep m .close m.close := by
  unfold close
  split
  · exact .closing ⟨m.startResult, true, m.connectorDone, m.running, m.alive, .joinConnector⟩
  · split
    · exact .closing ⟨m.startResult, m.connectorStop, m.connectorDone, m.running, m.alive, .postClose⟩
    split
    · exact .disabled _
    · exact .closing ⟨m.startResult, m.connectorStop, true, m.running, m.alive, .postClose⟩
  · cases hon : m.running with
    | true =>
      exact .closePosted ⟨m.startResult, m.connectorStop, m.connectorDone, true, m.alive, .stopReactor⟩
    | false =>
      exact .closing ⟨m.startResult, m.connectorStop, m.connectorDone, false, m.alive, .stopReactor⟩
  · split
    · exact .closing ⟨m.startResult, m.connectorStop, m.connectorDone, false, m.alive, .joinReactor⟩
    · exact .closing
        ⟨m.startResult, m.connectorStop, m.connectorDone, m.running, m.alive, .failQueuedRequests⟩
  · split
    · exact .disabled _
    · rename_i hidle
      exact .joined
        ⟨m.startResult, m.connectorStop, m.connectorDone, m.running, false, .failQueuedRequests⟩
        (by simpa using hidle)
  · exact .failedQueued
      ⟨m.startResult, m.connectorStop, m.connectorDone, m.running, m.alive, .failAllContexts⟩ _
  · exact .failedAll
      ⟨m.startResult, m.connectorStop, m.connectorDone, m.running, m.alive, .idle⟩ _

theorem connect_cases (ready : Bool) : ManagerStep m (.connect ready) (m.connect ready) := by
  unfold connect
  split
  · exact .disabled _
  rename_i task connectTasks htasks
  split
  · exact .disabled _
  refine managed_bind_cases (.fault _) fun r hconnect => ?_
  simp only
  split
  · exact .dropped htasks
  split
  · exact .connected htasks hconnect
  · exact .unconnected htasks

/-- The reactor serves nothing while a call is open. -/
theorem stack_of_serving (h : m.serving = true) : m.stack = [] :=
  List.isEmpty_iff.1 (Bool.and_eq_true_iff.1 h).2

/-- The reactor serves a connection with one of its handlers. -/
theorem serveConnection_cases {op : Op} (hop : op.served = some connId)
    {enabled : Connection → Bool}
    {handler : Connection → Guarded (Connection × List (SessionEvent RequestId))}
    (hhandler : ∀ c c' events, enabled c = true → handler c = .ok (c', events) →
      c.Served c' events) : ManagerStep m op (m.serveConnection connId enabled handler) := by
  unfold serveConnection
  split
  · exact .disabled _
  rename_i conn hfind
  split
  · exact .disabled _
  rename_i hready
  have hon : m.serving = true ∧ enabled conn = true := by simpa using hready
  exact managed_bind_cases (.fault _) fun r hserved =>
    .served hop (m.stack_of_serving hon.1) hfind (hhandler conn r.1 r.2 hon.2 hserved)

theorem onPingTimeout_cases : ManagerStep m (.onPingTimeout connId) (m.onPingTimeout connId) := by
  unfold onPingTimeout
  split
  · exact .disabled _
  rename_i conn hfind
  split
  · exact .disabled _
  rename_i hready
  have hon : m.serving = true ∧ conn.pingTimeoutTimer = true := by simpa using hready
  have hstack := m.stack_of_serving hon.1
  simp only
  split
  · rename_i hnone
    exact .answered hstack hfind hon.2 (by simpa using hnone)
  · exact .unanswered hstack hfind (closeConnection_cases _ connId)

/-- What a step does is on the list. -/
theorem apply_cases (op : Op) : ManagerStep m op (m.apply op) := by
  cases op with
  | sendAsync request endpoint timeoutMs started =>
    exact sendAsync_cases m endpoint request timeoutMs started
  | continueSend context => exact continueSend_cases m context
  | markCanceled requestId =>
    rw [apply]
    split
    · exact .late requestId
    · exact .marked requestId
  | cancel requestId => exact cancel_cases m requestId
  | close => exact close_cases m
  | connect ready => exact connect_cases m ready
  | runTask registered rehash =>
    rw [apply]
    split
    · exact .disabled _
    rename_i task tasks htasks
    split
    · exact .disabled _
    rename_i hserving
    exact .ranTask (m.stack_of_serving (by simpa using hserving)) htasks
      (execute_cases _ rehash registered task)
  | timeout requestId =>
    rw [apply]
    split
    · exact .disabled _
    rename_i hready
    have hon : m.serving = true ∧ (m.context requestId).timer = true := by simpa using hready
    exact .timedOut (m.stack_of_serving hon.1) (abandonRequest_cases _ requestId _)
  | onSessionReadable conn chunks last =>
    exact serveConnection_cases m conn rfl fun _ _ _ _ heq => .readable heq
  | onSessionWritable conn writes =>
    refine serveConnection_cases m conn rfl fun c c' events _ hserved => ?_
    obtain ⟨c₁, hwritten, hret⟩ := bind_eq_ok.1 hserved
    cases hret
    exact .writable hwritten
  | onPingTimer conn => exact serveConnection_cases m conn rfl fun _ _ _ => .pingTimer
  | onPingTimeout conn => exact onPingTimeout_cases m conn
  | work rehash =>
    rw [apply]
    split
    · exact .disabled _
    · rename_i frame stack hstack
      exact .worked hstack (resume_cases _ rehash frame)

end Cases

end ConnectionManager

end Chttp2
