import Chttp2.Pool.Endpoint
import Chttp2.Session.State

/-!
# Connections

`Connection` owns a session and acts on the events that the session returns. What an event does to
the connection itself is here (`handleEvent`); the handlers of the connection manager that the event
calls are in `Pool.Manager`.

A request context is named by the id of its request. The timers of a connection are flags: the
reactor may fire a timer as long as its id is not 0.
-/

set_option autoImplicit false

namespace Chttp2

/-- The number that `nextRequestId` gives a request. -/
abbrev RequestId := Nat

/-- A connection by its number; numbers are not used again. -/
abbrev ConnectionId := Nat

/-- `ClientConfig` with the fields that `Connection` reads. -/
structure ConnectionConfig extends ClientConfig where
  pingIntervalSec : Int := 30
  pingTimeoutSec : Int := 10

namespace Http2Session

variable {κ : Type}

/-- `Http2Session::isGoingAway`. -/
def isGoingAway (s : Http2Session κ) : Bool := s.goingAway

def activeStreamCount (s : Http2Session κ) : Nat := s.protocol.state.streams.size

/-- The stream id that `submit` stores in the context, if it opens a stream. -/
def submittedStreamId (s : Http2Session κ) (request : Request) (rehash : Reorder Stream) :
    Guarded (Option StreamId) :=
  if !s.isHealthy then return none
  else do
    let (_, result) ← s.protocol.apply (.submitRequest request rehash)
    return result.submittedStreamId

end Http2Session

/-- The members of `Connection`; `sessionFd` says whether it is a valid socket, and a timer is a flag
that says whether its id is not 0. -/
structure Connection where
  connId : ConnectionId
  endpoint : Endpoint
  pingIntervalSec : Int
  pingTimeoutSec : Int
  session : Http2Session RequestId
  sessionFd : Bool := false
  connected : Bool := false
  pendingPing : Bool := false
  pingTimer : Bool := false
  pingTimeoutTimer : Bool := false

namespace Connection

/-- The constructor of `Connection`. -/
def make (id : ConnectionId) (ep : Endpoint) (config : ConnectionConfig) : Connection where
  connId := id
  endpoint := ep
  pingIntervalSec := config.pingIntervalSec
  pingTimeoutSec := config.pingTimeoutSec
  session := .ofConfig config.toClientConfig

/-- `connect`; `ready` says whether `Connector` reaches the peer and the transport initialises. -/
def connect (c : Connection) (ready : Bool) : Guarded (Connection × Bool) := do
  let (session, started) ←
    c.session.start ((StreamTransportFactory.create c.endpoint).isSome && ready)
  if !started then return ({ c with session }, false)
  else return ({ c with session, sessionFd := true, connected := true }, true)

def isConnected (c : Connection) : Bool := c.connected

/-- `canAcceptNewRequests`. -/
def canAcceptNewRequests (c : Connection) : Bool :=
  c.connected && c.session.isHealthy && !c.session.isGoingAway

def hasStreamCapacity (c : Connection) : Bool := c.session.hasStreamCapacity

def activeStreamCount (c : Connection) : Nat := c.session.activeStreamCount

/-! ## Timers -/

/-- `schedulePingTimer`; without an interval there is no keep-alive. -/
def schedulePingTimer (c : Connection) : Connection :=
  if c.pingIntervalSec ≤ 0 || !c.connected then c else { c with pingTimer := true }

/-- `cancelPingTimers`. -/
def cancelPingTimers (c : Connection) : Connection :=
  { c with pingTimer := false, pingTimeoutTimer := false, pendingPing := false }

/-- `onPingTimer`. -/
def onPingTimer (c : Connection) : Guarded (Connection × List (SessionEvent RequestId)) :=
  let c := { c with pingTimer := false }
  if !c.connected then return (c, [])
  -- streams that are open are heartbeat enough
  else if c.activeStreamCount > 0 then return (c.schedulePingTimer, [])
  else if c.pendingPing then return (c, [])
  else do
    let (session, events) ← c.session.sendPing
    return ({ c with
      session, pendingPing := true
      pingTimeoutTimer := c.pingTimeoutTimer || c.pingTimeoutSec > 0 }, events)

/-! ## Operations -/

/-- `registerWithReactor`; `registered` says whether the reactor takes the descriptor. The events of
closing the session are dropped. -/
def registerWithReactor (c : Connection) (registered : Bool) : Guarded (Connection × Bool) :=
  if !c.connected || !c.sessionFd then return (c, false)
  else if !registered then do
    let (session, _) ← c.session.close
    return ({ c with session, connected := false }, false)
  else return (c.schedulePingTimer, true)

/-- `closeOnReactor`, with the events of the session. -/
def closeOnReactor (c : Connection) : Guarded (Connection × List (SessionEvent RequestId)) :=
  if !c.connected then return (c, [])
  else do
    let c := { c with connected := false }.cancelPingTimers
    let (session, events) ← c.session.close
    return ({ c with session, sessionFd := false }, events)

/-- `onSessionReadable`, with the events of the session. -/
def onSessionReadable (c : Connection) (chunks : List Bytes) (last : ReadEnd) :
    Guarded (Connection × List (SessionEvent RequestId)) :=
  if !c.connected then return (c, [])
  else do
    let (session, events) ← c.session.onReadable chunks last
    return ({ c with session }, events)

/-- `onSessionWritable`; the connection hears nothing of a failed write. -/
def onSessionWritable (c : Connection) (writes : List WriteResult) : Guarded Connection :=
  if !c.connected then return c
  else do
    let session ← c.session.onWritable writes
    return { c with session }

/-- The lines of `processSessionEvents` that change the connection. -/
def handleEvent (c : Connection) : SessionEvent RequestId → Connection
  | .requestDone _ _ => c
  | .sessionClosing => c
  | .sessionDead => { ({ c with connected := false }.cancelPingTimers) with sessionFd := false }
  | .pingAck =>
    if c.pendingPing then
      { c with pendingPing := false, pingTimeoutTimer := false }.schedulePingTimer
    else c

/-! ## What stays the same

No operation changes the id of a connection or its endpoint. -/

/-- The members of a connection that are set for good when it is made. -/
def ref (c : Connection) : ConnectionId × Endpoint := (c.connId, c.endpoint)

variable {c c' : Connection} {events : List (SessionEvent RequestId)} {ok : Bool}

@[simp] theorem ref_make (id : ConnectionId) (ep : Endpoint) (config : ConnectionConfig) :
    (make id ep config).ref = (id, ep) := rfl

@[simp] theorem ref_schedulePingTimer (c : Connection) : c.schedulePingTimer.ref = c.ref := by
  unfold schedulePingTimer
  split <;> rfl

@[simp] theorem ref_handleEvent (c : Connection) (event : SessionEvent RequestId) :
    (c.handleEvent event).ref = c.ref := by
  cases event with
  | requestDone => rfl
  | sessionClosing => rfl
  | sessionDead => rfl
  | pingAck =>
    rw [handleEvent]
    split
    · exact ref_schedulePingTimer _
    · rfl

theorem ref_connect {ready : Bool} (h : c.connect ready = .ok (c', ok)) : c'.ref = c.ref := by
  obtain ⟨⟨session, started⟩, -, h⟩ := bind_eq_ok.1 h
  cases started <;> cases h <;> rfl

theorem ref_registerWithReactor {registered : Bool}
    (h : c.registerWithReactor registered = .ok (c', ok)) : c'.ref = c.ref := by
  unfold registerWithReactor at h
  split at h
  · cases h
    rfl
  split at h
  · obtain ⟨⟨session, dropped⟩, -, h⟩ := bind_eq_ok.1 h
    cases h
    rfl
  · cases h
    exact ref_schedulePingTimer c

theorem ref_closeOnReactor (h : c.closeOnReactor = .ok (c', events)) : c'.ref = c.ref := by
  unfold closeOnReactor at h
  split at h
  · cases h
    rfl
  · obtain ⟨⟨session, closed⟩, -, h⟩ := bind_eq_ok.1 h
    cases h
    rfl

theorem ref_onSessionReadable {chunks : List Bytes} {last : ReadEnd}
    (h : c.onSessionReadable chunks last = .ok (c', events)) : c'.ref = c.ref := by
  unfold onSessionReadable at h
  split at h
  · cases h
    rfl
  · obtain ⟨⟨session, read⟩, -, h⟩ := bind_eq_ok.1 h
    cases h
    rfl

theorem ref_onSessionWritable {writes : List WriteResult}
    (h : c.onSessionWritable writes = .ok c') : c'.ref = c.ref := by
  unfold onSessionWritable at h
  split at h
  · cases h
    rfl
  · obtain ⟨session, -, h⟩ := bind_eq_ok.1 h
    cases h
    rfl

theorem ref_onPingTimer (h : c.onPingTimer = .ok (c', events)) : c'.ref = c.ref := by
  simp only [onPingTimer] at h
  split at h
  · cases h
    rfl
  split at h
  · cases h
    exact ref_schedulePingTimer _
  split at h
  · cases h
    rfl
  · obtain ⟨⟨session, sent⟩, -, h⟩ := bind_eq_ok.1 h
    cases h
    rfl

end Connection

end Chttp2
