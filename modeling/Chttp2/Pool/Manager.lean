import Chttp2.Lib.Machine
import Chttp2.Pool.Connection

/-!
# The connection manager

`ConnectionManager` takes requests from user threads, files them under their endpoints, has a
connector thread make the connections and hands the requests to connections on the thread of the
reactor. A step (`Op`) is a section of one thread between two points at which another thread can
interfere.

The handlers of the reactor thread call each other: a request that is submitted may come back as
done at once, and what is done makes room for what waits. `stack` holds the calls that have not
returned, each with the place at which it goes on (`CallFrame`), and `Op.work` executes the topmost
one up to its next call. Tasks, timers and descriptors are served when no call is left.

Contexts, connections and their pointers are named by ids; `requests` and `connections` say what the
ids stand for. `handedOver` and `completed` are not members of the source: they record the calls of
`submitOnReactor` and the requests whose callbacks have been due.

A run ends before a data race. When the reactor takes no task any more, `cancel` runs
`handleCancelOnReactor` on the thread of the user; if the thread of the reactor has not been joined
yet, or another user thread is in the handler, the step halts with `dataRace`, and nothing is said
about what the code would do.
-/

set_option autoImplicit false

namespace Chttp2

/-! ## Data -/

/-- The members of `RequestContext` besides its handlers; `timer` says whether `timerId` is set. -/
structure RequestContext where
  requestId : RequestId
  timeoutMs : Int := -1
  finished : Bool := false
  canceled : Bool := false
  streamId : StreamId := 0
  timer : Bool := false

/-- A request that has not reached a connection, with its endpoint and its context. -/
structure PendingRequest where
  request : Request
  endpoint : Endpoint
  context : RequestId

/-- A task of the connector thread, with the id that the connection will have. -/
structure ConnectTask where
  endpoint : Endpoint
  connId : ConnectionId

/-- The tasks that are posted to the reactor. -/
inductive ReactorTask where
  | drainSubmitQueue
  | onConnectionEstablished (ep : Endpoint) (conn : Connection)
  | onConnectionFailed (ep : Endpoint)
  | handleCancelOnReactor (requestId : RequestId)
  | closeOnReactor

/-- A call of the reactor thread that has not returned, with the place at which it goes on: the
loops with what is left to visit, and the lines behind a call. -/
inductive CallFrame where
  | drainSubmitQueue (localQueue : List PendingRequest)
  | onConnectionEstablished (ep : Endpoint) (raw : ConnectionId) (pending : List PendingRequest)
  | trySubmitPending (ep : Endpoint) (conn : ConnectionId)
  /-- `requestConnections[id] = conn`, behind a `submitOnReactor` that returns true -/
  | submitted (context : RequestId) (conn : ConnectionId)
  | processSessionEvents (conn : ConnectionId) (events : List (SessionEvent RequestId))
  /-- the last lines of `handleCancelOnReactor` and `handleTimeoutOnReactor` -/
  | finishRequest (context : RequestId) (response : Response)
  | closeOnReactor (conns : List ConnectionId)
  /-- the last lines of `onPingTimeout` -/
  | connectionLost (conn : ConnectionId)

/-- The sections of `sendAsync` behind the registration of the context. -/
inductive SendPhase where
  | schedule
  | enqueue
  | post
  deriving DecidableEq

/-- A call of `sendAsync` that has not returned. -/
structure SendCall where
  pending : PendingRequest
  phase : SendPhase

def SendCall.context (call : SendCall) : RequestId := call.pending.context

/-- The sections of `close`. -/
inductive ClosePhase where
  | idle
  | joinConnector
  | postClose
  | stopReactor
  | joinReactor
  | failQueuedRequests
  | failAllContexts
  deriving DecidableEq

/-- `std::unordered_map` with endpoints as keys. -/
abbrev EndpointTable (α : Type) := KeyedTable fun kv : Endpoint × α => kv.1.key

/-- `table[ep].push_back(a)`. -/
def EndpointTable.pushBack {α : Type} (table : EndpointTable (List α))
    (rehash : Reorder (Endpoint × List α)) (ep : Endpoint) (a : α) : EndpointTable (List α) :=
  match table.find? ep.key with
  | some kv => table.set (kv.1, kv.2 ++ [a])
  | none => table.insert rehash (ep, [a])

/-- What the insertions of a step do to the iteration orders of the tables. -/
structure Rehash where
  streams : Reorder Stream
  streamContexts : Reorder (StreamId × RequestId)
  pools : Reorder (Endpoint × List ConnectionId)
  pending : Reorder (Endpoint × List PendingRequest)

/-- The tables keep their orders. -/
def Rehash.none : Rehash := ⟨.id _, .id _, .id _, .id _⟩

/-- The members of `ConnectionManager`, with those of its `Reactor` and its connector thread that
decide what can happen next: `running` is `reactor.isRunning()`, `alive` says whether the thread of
the reactor exists, and `startResult` is empty before `startThreadsIfNeeded` has been called. -/
structure ConnectionManager where
  config : ConnectionConfig := {}
  startResult : Option Bool := none
  nextRequestId : RequestId := 1
  requests : KeyedTable RequestContext.requestId := .empty
  contexts : List RequestId := []
  sending : KeyedTable SendCall.context := .empty
  submitQueue : List PendingRequest := []
  nextConnectionId : ConnectionId := 1
  connectTasks : List ConnectTask := []
  connectorStop : Bool := false
  connectorDone : Bool := false
  running : Bool := false
  alive : Bool := false
  tasks : List ReactorTask := []
  stack : List CallFrame := []
  connections : KeyedTable Connection.connId := .empty
  pools : EndpointTable (List ConnectionId) := .empty
  pendingByEndpoint : EndpointTable (List PendingRequest) := .empty
  connectingEndpoints : KeyedTable Endpoint.key := .empty
  requestConnections : KeyedTable (Prod.fst : RequestId × ConnectionId → RequestId) := .empty
  closing : ClosePhase := .idle
  handedOver : List (PendingRequest × Endpoint) := []
  completed : List (RequestId × Response) := []

namespace ConnectionManager

/-- A manager before the first request. -/
def ofConfig (config : ConnectionConfig) : ConnectionManager := { config }

/-- Why a step is not taken. -/
inductive Halt where
  /-- no thread stands at that point -/
  | disabled
  | fault (f : Fault)
  /-- a pointer to a connection that has been destroyed is used -/
  | danglingConnection
  /-- `trySubmitPending` uses its queue after a nested call has erased it -/
  | danglingQueue
  /-- a user thread runs a handler of the reactor while the thread of the reactor exists -/
  | dataRace
  deriving DecidableEq

/-- The result of a step, or why it is not taken. -/
abbrev Managed := Except Halt

/-- A guarded computation of a session. -/
def managed {α : Type} (x : Guarded α) : Managed α := x.mapError .fault

/-- A call is entered; the reactor goes on with its frame. -/
def push (m : ConnectionManager) (frame : CallFrame) : ConnectionManager :=
  { m with stack := frame :: m.stack }

/-! ## Shared helpers -/

/-- The context of a request. -/
def context (m : ConnectionManager) (requestId : RequestId) : RequestContext :=
  (m.requests.find? requestId).getD { requestId }

/-- The context of a request, while the manager still knows it. -/
def findContext (m : ConnectionManager) (requestId : RequestId) : Option RequestContext :=
  if requestId ∈ m.contexts then m.requests.find? requestId else none

/-- `completeRequest`: the context is finished and forgotten, and its callback invoked, once. -/
def completeRequest (m : ConnectionManager) (context : RequestId) (response : Response) :
    ConnectionManager :=
  let ctx := m.context context
  if ctx.finished then m
  else { m with
    requests := m.requests.set { ctx with finished := true, timer := false }
    contexts := m.contexts.filter fun id => id ≠ context
    completed := m.completed ++ [(context, response)] }

/-- The requests of a list are completed, one after the other. -/
def completeAll (response : Response) : List RequestId → ConnectionManager → ConnectionManager
  | [], m => m
  | context :: contexts, m => completeAll response contexts (m.completeRequest context response)

/-- The requests of the submit queue fail. -/
def failQueuedRequests (m : ConnectionManager) (response : Response) : ConnectionManager :=
  completeAll response (m.submitQueue.map PendingRequest.context) { m with submitQueue := [] }

/-- Every request that the manager knows fails. -/
def failAllContexts (m : ConnectionManager) (response : Response) : ConnectionManager :=
  completeAll response m.contexts m

/-- The `canceled` flag of a request is set. -/
def markCanceled (m : ConnectionManager) (requestId : RequestId) : ConnectionManager :=
  { m with requests := m.requests.set { m.context requestId with canceled := true } }

/-! ## Choosing a connection -/

/-- The loop of `pickConnectionOnReactor`. -/
def pickLoop : List Connection → Option Connection → Nat → Option Connection
  | [], best, _ => best
  | conn :: conns, best, bestLoad =>
    -- of equally loaded connections the first is kept
    if conn.canAcceptNewRequests && conn.activeStreamCount < bestLoad then
      pickLoop conns (some conn) conn.activeStreamCount
    else pickLoop conns best bestLoad

/-- `pickConnectionOnReactor`, where the load starts from SIZE_MAX. -/
def pickConnectionOnReactor (m : ConnectionManager) (ep : Endpoint) : Option Connection :=
  match m.pools.find? ep.key with
  | none => none
  | some kv => pickLoop (kv.2.filterMap m.connections.find?) none (2 ^ 64 - 1)

/-- `enqueueConnectTask`: the connector gets a task, unless the endpoint is being dialled already or
has a connection by now. -/
def enqueueConnectTask (m : ConnectionManager) (ep : Endpoint) : ConnectionManager :=
  if (m.connectingEndpoints.find? ep.key).isSome then m
  else if (m.pickConnectionOnReactor ep).isSome then m
  else { m with
    connectingEndpoints := m.connectingEndpoints.insert (.id _) ep
    connectTasks := m.connectTasks ++ [⟨ep, m.nextConnectionId⟩]
    nextConnectionId := m.nextConnectionId + 1 }

/-! ## Handing requests to connections -/

/-- `Connection::submitOnReactor`; `none` stands for false, and the events are those that the
connection still has to process. -/
def submitOnReactor (m : ConnectionManager) (conn : Connection) (pr : PendingRequest)
    (rehash : Rehash) : Managed (ConnectionManager × Option (List (SessionEvent RequestId))) := do
  let m := { m with handedOver := m.handedOver ++ [(pr, conn.endpoint)] }
  if !conn.connected then return (m, none)
  else
    let ctx := m.context pr.context
    let streamId ← managed (conn.session.submittedStreamId pr.request rehash.streams)
    let (session, events) ← managed (conn.session.submit pr.request pr.context ctx.canceled
      ctx.finished rehash.streams rehash.streamContexts)
    return ({ m with
      requests := m.requests.set { ctx with streamId := streamId.getD ctx.streamId }
      connections := m.connections.set { conn with session } }, some events)

/-- The lines that submit a request, in `drainSubmitQueue`, `onConnectionEstablished` and
`trySubmitPending`. -/
def handOver (m : ConnectionManager) (conn : Connection) (pr : PendingRequest) (rehash : Rehash) :
    Managed ConnectionManager := do
  match ← m.submitOnReactor conn pr rehash with
  | (m, some events) =>
    -- the events are processed inside `submitOnReactor`, before the connection is recorded
    return (m.push (.submitted pr.context conn.connId)).push
      (.processSessionEvents conn.connId events)
  | (m, none) =>
    return m.completeRequest pr.context (.failConnectionError (ascii "Submit failed"))

/-- A request is queued under its endpoint. -/
def park (m : ConnectionManager) (ep : Endpoint) (pr : PendingRequest) (rehash : Rehash) :
    ConnectionManager :=
  { m with pendingByEndpoint := m.pendingByEndpoint.pushBack rehash.pending ep pr }

/-- `trySubmitPending`, up to its loop. -/
def trySubmitPending (m : ConnectionManager) (ep : Endpoint) : ConnectionManager :=
  match m.pendingByEndpoint.find? ep.key with
  | none => m
  | some (_, []) => m
  | some (_, _ :: _) =>
    match m.pickConnectionOnReactor ep with
    -- no connection is asked for here
    | none => m
    | some conn => m.push (.trySubmitPending ep conn.connId)

/-- A round of the loop of `trySubmitPending`, or the lines behind the loop. -/
def submitPendingRound (m : ConnectionManager) (ep : Endpoint) (connId : ConnectionId)
    (rehash : Rehash) : Managed ConnectionManager :=
  match m.pendingByEndpoint.find? ep.key, m.connections.find? connId with
  | none, _ => throw .danglingQueue
  | some (_, []), _ => return { m with pendingByEndpoint := m.pendingByEndpoint.erase ep.key }
  | some (_, _ :: _), none => throw .danglingConnection
  | some (e, pr :: queue), some conn =>
    -- the queue stays in the table with what is left of it
    if !conn.hasStreamCapacity then return m
    else
      let m := { m with
        pendingByEndpoint := m.pendingByEndpoint.set (e, queue)
        stack := .trySubmitPending ep connId :: m.stack }
      if (m.context pr.context).canceled then
        return m.completeRequest pr.context (.customError (ascii "Request canceled"))
      else m.handOver conn pr rehash

/-! ## Events of connections -/

/-- `onRequestDone`: the connection of the request, if one is recorded, may take another. -/
def onRequestDone (m : ConnectionManager) (context : RequestId) (response : Response) :
    Managed ConnectionManager :=
  let entry := m.requestConnections.find? context
  let m := { m with
    requestConnections := m.requestConnections.erase context }.completeRequest context response
  match entry with
  | none => return m
  | some (_, connId) =>
    match m.connections.find? connId with
    | none => throw .danglingConnection
    | some conn => return m.trySubmitPending conn.endpoint

/-- `onConnectionLost`: no request is recorded on the connection any more. -/
def onConnectionLost (m : ConnectionManager) (connId : ConnectionId) : ConnectionManager :=
  { m with
    requestConnections := m.requestConnections.eraseAll
      ((m.requestConnections.entries.filter fun entry => entry.2 = connId).map Prod.fst) }

/-- A round of the loop of `Connection::processSessionEvents`. The handler of a draining connection
only writes to the log. -/
def handleSessionEvent (m : ConnectionManager) (connId : ConnectionId)
    (event : SessionEvent RequestId) : Managed ConnectionManager :=
  match m.connections.find? connId with
  | none => throw .danglingConnection
  | some conn =>
    let m := { m with connections := m.connections.set (conn.handleEvent event) }
    match event with
    | .requestDone context response => m.onRequestDone context response
    | .sessionClosing => return m
    | .sessionDead => return m.onConnectionLost connId
    | .pingAck => return m

/-- `Connection::closeOnReactor` of a connection of the manager. -/
def closeConnection (m : ConnectionManager) (connId : ConnectionId) : Managed ConnectionManager :=
  match m.connections.find? connId with
  | none => throw .danglingConnection
  | some conn => do
    let (conn, events) ← managed conn.closeOnReactor
    return { m with connections := m.connections.set conn }.push
      (.processSessionEvents connId events)

/-! ## Tasks -/

/-- The connections that are not connected leave the pools and are destroyed. -/
def pruneConnections (m : ConnectionManager) : ConnectionManager :=
  let dead := (m.connections.entries.filter fun conn => !conn.isConnected).map Connection.connId
  { m with
    pools := m.pools.map (fun kv => (kv.1, kv.2.filter fun id => id ∉ dead)) fun _ => rfl
    connections := m.connections.eraseAll dead }

/-- `drainSubmitQueue`, up to its second loop. -/
def drainSubmitQueue (m : ConnectionManager) : ConnectionManager :=
  { m.pruneConnections with submitQueue := [] }.push (.drainSubmitQueue m.submitQueue)

/-- A round of the second loop of `drainSubmitQueue`. -/
def drainRequest (m : ConnectionManager) (pr : PendingRequest) (rehash : Rehash) :
    Managed ConnectionManager :=
  if (m.context pr.context).canceled then
    return m.completeRequest pr.context (.customError (ascii "Request canceled"))
  else
    match m.pickConnectionOnReactor pr.endpoint with
    | some conn =>
      if conn.hasStreamCapacity then m.handOver conn pr rehash
      -- the connection is full, and no other one is dialled
      else return m.park pr.endpoint pr rehash
    | none => return (m.park pr.endpoint pr rehash).enqueueConnectTask pr.endpoint

/-- `drainPendingForEndpoint`: the queue of the endpoint is erased, and its requests fail. -/
def drainPendingForEndpoint (m : ConnectionManager) (ep : Endpoint) : ConnectionManager :=
  match m.pendingByEndpoint.find? ep.key with
  | none => m
  | some (_, pending) =>
    completeAll (.failConnectionError (ascii "Connection failed"))
      (pending.map PendingRequest.context)
      { m with pendingByEndpoint := m.pendingByEndpoint.erase ep.key }

/-- `onConnectionEstablished`, up to its loop; `registered` says whether the reactor takes the
descriptor of the connection. -/
def onConnectionEstablished (m : ConnectionManager) (ep : Endpoint) (conn : Connection)
    (registered : Bool) (rehash : Rehash) : Managed ConnectionManager := do
  let m := { m with connectingEndpoints := m.connectingEndpoints.erase ep.key }
  let (conn, ok) ← managed (conn.registerWithReactor registered)
  if !ok then return m.drainPendingForEndpoint ep
  else
    let m := { m with
      connections := m.connections.insert (.id _) conn
      pools := m.pools.pushBack rehash.pools ep conn.connId }
    match m.pendingByEndpoint.find? ep.key with
    | none => return m
    | some (_, pending) =>
      return { m with pendingByEndpoint := m.pendingByEndpoint.erase ep.key }.push
        (.onConnectionEstablished ep conn.connId pending)

/-- A round of the loop of `onConnectionEstablished`. -/
def dispatchPending (m : ConnectionManager) (ep : Endpoint) (raw : ConnectionId)
    (pr : PendingRequest) (rehash : Rehash) : Managed ConnectionManager :=
  if (m.context pr.context).canceled then
    return m.completeRequest pr.context (.customError (ascii "Request canceled"))
  else
    match m.connections.find? raw with
    | none => throw .danglingConnection
    | some conn =>
      if conn.hasStreamCapacity then m.handOver conn pr rehash else return m.park ep pr rehash

/-- `onConnectionFailed`: the endpoint could not be dialled. -/
def onConnectionFailed (m : ConnectionManager) (ep : Endpoint) : ConnectionManager :=
  { m with
    connectingEndpoints := m.connectingEndpoints.erase ep.key }.drainPendingForEndpoint ep

/-- `Connection::cancelRequestOnReactor`, if the request is on a connection that is connected. -/
def cancelOnConnection (m : ConnectionManager) (requestId : RequestId) :
    Managed ConnectionManager :=
  match m.requestConnections.find? requestId with
  | none => return m
  | some (_, connId) =>
    match m.connections.find? connId with
    | none => throw .danglingConnection
    | some conn =>
      if !conn.isConnected then return m
      else do
        let (session, events) ←
          managed (conn.session.cancelRequest (m.context requestId).streamId)
        return { m with connections := m.connections.set { conn with session } }.push
          (.processSessionEvents connId events)

/-- `handleCancelOnReactor` and `handleTimeoutOnReactor`, which differ in the response. -/
def abandonRequest (response : Response) (m : ConnectionManager) (requestId : RequestId) :
    Managed ConnectionManager :=
  match m.findContext requestId with
  | none => return m
  | some ctx =>
    if ctx.finished then return m
    else
      let m := m.markCanceled requestId
      -- the request is in the submit queue, in the queue of an endpoint, or on a connection
      if m.submitQueue.any fun pr => pr.context = requestId then
        return { m with
          submitQueue := m.submitQueue.eraseP fun pr => pr.context = requestId
        }.completeRequest requestId response
      else
        match m.pendingByEndpoint.entries.find? fun kv =>
            kv.2.any fun pr => pr.context = requestId with
        | some kv =>
          return { m with
            pendingByEndpoint := m.pendingByEndpoint.set
              (kv.1, kv.2.eraseP fun pr => pr.context = requestId)
          }.completeRequest requestId response
        | none => (m.push (.finishRequest requestId response)).cancelOnConnection requestId

/-- `handleCancelOnReactor`. -/
def handleCancelOnReactor : ConnectionManager → RequestId → Managed ConnectionManager :=
  abandonRequest (.customError (ascii "Request canceled"))

/-- `handleTimeoutOnReactor`. -/
def handleTimeoutOnReactor : ConnectionManager → RequestId → Managed ConnectionManager :=
  abandonRequest (.customError (ascii "Request timeout"))

/-- `closeOnReactor`, up to its second loop. -/
def closeOnReactor (m : ConnectionManager) : ConnectionManager :=
  let parked := m.pendingByEndpoint.entries.flatMap fun kv => kv.2.map PendingRequest.context
  { completeAll (.failConnectionError (ascii "Connection closed")) parked m with
    pendingByEndpoint := .empty
    connectingEndpoints := .empty
    pools := .empty
  }.push (.closeOnReactor (m.pools.entries.flatMap Prod.snd))

/-- The reactor runs a task. -/
def execute (m : ConnectionManager) (registered : Bool) (rehash : Rehash) :
    ReactorTask → Managed ConnectionManager
  | .drainSubmitQueue => return m.drainSubmitQueue
  | .onConnectionEstablished ep conn => m.onConnectionEstablished ep conn registered rehash
  | .onConnectionFailed ep => return m.onConnectionFailed ep
  | .handleCancelOnReactor requestId => m.handleCancelOnReactor requestId
  | .closeOnReactor => return m.closeOnReactor

/-- A call goes on up to its next call, which is put on top of it, or returns. -/
def resume (m : ConnectionManager) (rehash : Rehash) : CallFrame → Managed ConnectionManager
  | .drainSubmitQueue [] => return m
  | .drainSubmitQueue (pr :: localQueue) =>
    (m.push (.drainSubmitQueue localQueue)).drainRequest pr rehash
  | .onConnectionEstablished _ _ [] => return m
  | .onConnectionEstablished ep raw (pr :: pending) =>
    (m.push (.onConnectionEstablished ep raw pending)).dispatchPending ep raw pr rehash
  | .trySubmitPending ep conn => m.submitPendingRound ep conn rehash
  | .submitted context conn =>
    return { m with requestConnections := m.requestConnections.insert (.id _) (context, conn) }
  | .processSessionEvents _ [] => return m
  | .processSessionEvents conn (event :: events) =>
    (m.push (.processSessionEvents conn events)).handleSessionEvent conn event
  | .finishRequest context response => return m.completeRequest context response
  | .closeOnReactor [] => return { m with requestConnections := .empty, connections := .empty }
  | .closeOnReactor (conn :: conns) => (m.push (.closeOnReactor conns)).closeConnection conn
  | .connectionLost conn => return m.onConnectionLost conn

/-! ## User threads -/

/-- `startThreadsIfNeeded`; `started` says whether the first call succeeds. -/
def startThreadsIfNeeded (m : ConnectionManager) (started : Bool) : ConnectionManager :=
  match m.startResult with
  | some _ => m
  | none =>
    if started then { m with
      startResult := some true, connectorStop := false, running := true, alive := true }
    else { m with startResult := some false }

/-- `sendAsync`, up to the registration of the context. -/
def sendAsync (m : ConnectionManager) (request : Request) (endpoint : Endpoint) (timeoutMs : Int)
    (started : Bool) : ConnectionManager :=
  let context := m.nextRequestId
  let m := { m with
    nextRequestId := m.nextRequestId + 1
    requests := m.requests.insert (.id _) { requestId := context, timeoutMs }
  }.startThreadsIfNeeded started
  if m.startResult ≠ some true then
    m.completeRequest context
      (.failConnectionError (ascii "Connection manager failed to start"))
  else { m with
    contexts := m.contexts ++ [context]
    sending := m.sending.insert (.id _) ⟨⟨request, endpoint, context⟩, .schedule⟩ }

/-- The next section of a call of `sendAsync`. -/
def continueSend (m : ConnectionManager) (context : RequestId) : Managed ConnectionManager :=
  match m.sending.find? context with
  | none => throw .disabled
  | some call =>
    match call.phase with
    | .schedule =>
      let ctx := m.context context
      if ctx.timeoutMs < 0 then
        return { m with sending := m.sending.set { call with phase := .enqueue } }
      -- `scheduleOnce` takes no timer when the reactor is off
      else if !m.running then
        return { m with sending := m.sending.erase context }.completeRequest context
          (.failConnectionError (ascii "Failed to schedule timeout"))
      else return { m with
        requests := m.requests.set { ctx with timer := true }
        sending := m.sending.set { call with phase := .enqueue } }
    | .enqueue =>
      return { m with
        submitQueue := m.submitQueue ++ [call.pending]
        sending := m.sending.set { call with phase := .post } }
    | .post =>
      let m := { m with sending := m.sending.erase context }
      if m.running then return { m with tasks := m.tasks ++ [.drainSubmitQueue] }
      -- another thread may have taken the request from the queue in the meantime
      else
        return { m with
          submitQueue := m.submitQueue.eraseP fun pr => pr.context = context
        }.completeRequest context (.failConnectionError (ascii "Reactor is not running"))

/-- `cancel`, which runs the handler itself when it cannot be posted. The source does so without a look
at the thread of the reactor. -/
def cancel (m : ConnectionManager) (requestId : RequestId) : Managed ConnectionManager :=
  match m.findContext requestId with
  | none => return m
  | some ctx =>
    if ctx.finished then return m
    else
      let m := m.markCanceled requestId
      if m.running then return { m with tasks := m.tasks ++ [.handleCancelOnReactor requestId] }
      else if m.alive || !m.stack.isEmpty then throw .dataRace
      else m.handleCancelOnReactor requestId

/-- The next section of `close`. -/
def close (m : ConnectionManager) : Managed ConnectionManager :=
  match m.closing with
  | .idle => return { m with connectorStop := true, closing := .joinConnector }
  | .joinConnector =>
    if m.startResult ≠ some true then return { m with closing := .postClose }
    else if !m.connectTasks.isEmpty then throw .disabled
    else return { m with connectorDone := true, closing := .postClose }
  | .postClose =>
    return { m with
      tasks := if m.running then m.tasks ++ [.closeOnReactor] else m.tasks
      closing := .stopReactor }
  | .stopReactor =>
    if m.running then return { m with running := false, closing := .joinReactor }
    else return { m with closing := .failQueuedRequests }
  | .joinReactor =>
    if !m.stack.isEmpty then throw .disabled
    -- what the thread of the reactor has not run by now is dropped
    else return { m with alive := false, tasks := [], closing := .failQueuedRequests }
  | .failQueuedRequests =>
    return { m with
      closing := .failAllContexts
    }.failQueuedRequests (.failConnectionError (ascii "Connection closed"))
  | .failAllContexts =>
    return { m with
      closing := .idle }.failAllContexts (.failConnectionError (ascii "Connection closed"))

/-! ## The connector thread -/

/-- A round of `connectorLoop`; `ready` says whether the peer is reached and the transport
initialises. A connection that cannot be posted is dropped. -/
def connect (m : ConnectionManager) (ready : Bool) : Managed ConnectionManager :=
  match m.connectTasks with
  | [] => throw .disabled
  | task :: connectTasks =>
    if m.startResult ≠ some true || m.connectorDone then throw .disabled
    else do
      let m := { m with connectTasks }
      let (conn, ok) ← managed ((Connection.make task.connId task.endpoint m.config).connect ready)
      -- the connection and the task are gone, and `connectingEndpoints` keeps the endpoint
      if !m.running then return m
      else if ok then
        return { m with tasks := m.tasks ++ [.onConnectionEstablished task.endpoint conn] }
      else return { m with tasks := m.tasks ++ [.onConnectionFailed task.endpoint] }

/-! ## Steps -/

/-- The steps of the user threads, the connector and the reactor. -/
inductive Op where
  | sendAsync (request : Request) (endpoint : Endpoint) (timeoutMs : Int) (started : Bool)
  | continueSend (context : RequestId)
  /-- the first half of `RequestContext::cancel`; `cancel` is the second -/
  | markCanceled (requestId : RequestId)
  | cancel (requestId : RequestId)
  | close
  | connect (ready : Bool)
  | runTask (registered : Bool) (rehash : Rehash)
  | timeout (requestId : RequestId)
  | onSessionReadable (conn : ConnectionId) (chunks : List Bytes) (last : ReadEnd)
  | onSessionWritable (conn : ConnectionId) (writes : List WriteResult)
  | onPingTimer (conn : ConnectionId)
  | onPingTimeout (conn : ConnectionId)
  | work (rehash : Rehash)

/-- The endpoint that a step of a user thread brings in. -/
def Op.endpoint : Op → Option Endpoint
  | .sendAsync _ endpoint _ _ => some endpoint
  | _ => none

/-- The reactor serves a task, a timer or a descriptor. -/
def serving (m : ConnectionManager) : Bool := m.alive && m.stack.isEmpty

/-- The reactor calls a handler of a connection, under a condition on the connection. -/
def serveConnection (m : ConnectionManager) (connId : ConnectionId) (enabled : Connection → Bool)
    (handler : Connection → Guarded (Connection × List (SessionEvent RequestId))) :
    Managed ConnectionManager :=
  match m.connections.find? connId with
  | none => throw .disabled
  | some conn =>
    if !m.serving || !enabled conn then throw .disabled
    else do
      let (conn, events) ← managed (handler conn)
      return { m with connections := m.connections.set conn }.push
        (.processSessionEvents connId events)

/-- `Connection::onPingTimeout`. -/
def onPingTimeout (m : ConnectionManager) (connId : ConnectionId) : Managed ConnectionManager :=
  match m.connections.find? connId with
  | none => throw .disabled
  | some conn =>
    if !m.serving || !conn.pingTimeoutTimer then throw .disabled
    else
      let conn := { conn with pingTimeoutTimer := false }
      if !conn.pendingPing || !conn.connected then
        return { m with connections := m.connections.set conn }
      else ({ m with
        connections := m.connections.set { conn with pendingPing := false }
      }.push (.connectionLost connId)).closeConnection connId

/-- A step of one of the threads. -/
def apply (m : ConnectionManager) : Op → Managed ConnectionManager
  | .sendAsync request endpoint timeoutMs started =>
    return m.sendAsync request endpoint timeoutMs started
  | .continueSend context => m.continueSend context
  | .markCanceled requestId =>
    if (m.context requestId).finished then return m else return m.markCanceled requestId
  | .cancel requestId => m.cancel requestId
  | .close => m.close
  | .connect ready => m.connect ready
  | .runTask registered rehash =>
    match m.tasks with
    | [] => throw .disabled
    | task :: tasks =>
      if !m.serving then throw .disabled else { m with tasks }.execute registered rehash task
  | .timeout requestId =>
    if !m.serving || !(m.context requestId).timer then throw .disabled
    else { m with
      requests := m.requests.set { m.context requestId with timer := false }
    }.handleTimeoutOnReactor requestId
  | .onSessionReadable conn chunks last =>
    m.serveConnection conn Connection.sessionFd fun c => c.onSessionReadable chunks last
  | .onSessionWritable conn writes =>
    m.serveConnection conn Connection.sessionFd fun c => do
      let c ← c.onSessionWritable writes
      return (c, [])
  | .onPingTimer conn => m.serveConnection conn Connection.pingTimer Connection.onPingTimer
  | .onPingTimeout conn => m.onPingTimeout conn
  | .work rehash =>
    match m.stack with
    | [] => throw .disabled
    | frame :: stack => { m with stack }.resume rehash frame

/-- A step as a machine without output. -/
def step (m : ConnectionManager) (op : Op) : Managed (ConnectionManager × Unit) := do
  let m ← m.apply op
  return (m, ())

end ConnectionManager

end Chttp2
