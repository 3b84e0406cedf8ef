import Chttp2.Protocol.Safety

/-!
# The session

`Http2Session` drives the protocol over a transport and keeps the contexts of the requests that are
outstanding, by the id of their stream. Its operations return the events that their caller acts on;
`translateEvents` makes them of the events of the protocol.

The transport is an argument of the operations that use it: what it hands out is a list of chunks
with the way it ends, what it accepts a list of write results. A context is a value of the type `κ`.
`SessionOp` lists the operations of the owner of a session, and `apply` executes one.
-/

set_option autoImplicit false

namespace Chttp2

/-! ## Data -/

/-- `SessionEvent`, one constructor for each type. -/
inductive SessionEvent (κ : Type) where
  | requestDone (context : κ) (response : Response)
  | sessionClosing
  | sessionDead
  | pingAck
  deriving DecidableEq

/-- `OutboundChunk`: a buffer and the number of its bytes that have been written. -/
structure OutboundChunk where
  data : Bytes
  offset : Nat := 0
  deriving DecidableEq

/-- How a series of reads ends: the `IOState` of the last one. -/
inductive ReadEnd where
  | wouldBlock
  | closed
  | err
  deriving DecidableEq

/-- The result of one `writeSome`. -/
inductive WriteResult where
  | ok (bytes : Nat)
  | wouldBlock
  | closed
  | err
  deriving DecidableEq

/-- `std::unordered_map<StreamId, RequestContextPtr>`. -/
abbrev ContextTable (κ : Type) := KeyedTable (Prod.fst : StreamId × κ → StreamId)

/-- The members of `Http2Session` besides its transport. -/
structure Http2Session (κ : Type) where
  protocol : Http2Protocol := {}
  outbound : List OutboundChunk := []
  started : Bool := false
  healthy : Bool := false
  goingAway : Bool := false
  streamContexts : ContextTable κ := .empty

namespace Http2Session

/-- What an operation leaves behind: the new state and the events it returns. -/
abbrev Result (κ : Type) := Http2Session κ × List (SessionEvent κ)

variable {κ : Type}

def ofConfig (config : ClientConfig) : Http2Session κ := { protocol := .ofConfig config }

/-- `isHealthy`. -/
def isHealthy (s : Http2Session κ) : Bool := s.started && s.healthy && !s.protocol.state.closed

def hasStreamCapacity (s : Http2Session κ) : Bool :=
  s.protocol.state.streams.size < s.protocol.state.maxConcurrentStreams

/-! ## Events of the protocol -/

/-- `consumeStepResult`: the outbound buffers of a step of the protocol join the queue. -/
def consumeStepResult (s : Http2Session κ) (protocol : Http2Protocol)
    (result : ProtocolStepResult) : Http2Session κ :=
  { s with
    protocol
    outbound := s.outbound ++ result.outbound.map fun buf => { data := buf.toBytes } }

/-- `failAllStreams`: every context leaves the table with a REQUEST_DONE. -/
def failAllStreams (s : Http2Session κ) (response : Response) : Result κ :=
  ({ s with streamContexts := .empty },
    s.streamContexts.entries.map fun kv => .requestDone kv.2 response)

/-- The context of a stream, if it is still there, leaves the table with a REQUEST_DONE. -/
def finishStream (s : Http2Session κ) (streamId : StreamId) (response : Response) :
    Result κ :=
  match s.streamContexts.find? streamId with
  | some kv =>
    ({ s with streamContexts := s.streamContexts.erase streamId }, [.requestDone kv.2 response])
  | none => (s, [])

/-- One round of the loop of `translateEvents`. -/
def translateEvent (s : Http2Session κ) : ProtocolEvent → Result κ
  | .responseCompleted streamId response => s.finishStream streamId response
  | .responseFailed streamId errorCode =>
    -- a refused request has stream 0, for which there is no context
    s.finishStream streamId
      (.protocolError errorCode (ascii ("errorCode=" ++ toString errorCode.toNat)))
  | .goAwayReceived _ _ _ => ({ s with goingAway := true }, [.sessionClosing])
  | .pingAckReceived _ => (s, [.pingAck])
  | .connectionError _ | .connectionClosed _ | .transportClosed =>
    let (s, failEvents) := { s with healthy := false }.failAllStreams
      (.failConnectionError (ascii "Connection lost"))
    (s, failEvents ++ [.sessionDead])
  | _ => (s, [])

/-- `translateEvents`, in the order of the protocol's events. -/
def translateEvents : Http2Session κ → List ProtocolEvent → Result κ
  | s, [] => (s, [])
  | s, pe :: pes =>
    let (s, events) := s.translateEvent pe
    let (s, more) := s.translateEvents pes
    (s, events ++ more)

/-- A result of the protocol is consumed and its events are translated. -/
def absorb (s : Http2Session κ) (protocol : Http2Protocol) (result : ProtocolStepResult) :
    Result κ :=
  (s.consumeStepResult protocol result).translateEvents result.events

/-! ## Operations -/

/-- `start`; `ready` says whether the transport could be created and initialised. -/
def start (s : Http2Session κ) (ready : Bool) : Guarded (Http2Session κ × Bool) :=
  if s.started then return (s, true)
  else if !ready then return (s, false)
  else do
    let (protocol, result) ← s.protocol.apply .start
    return ({ s.consumeStepResult protocol result with started := true, healthy := true }, true)

/-- `close`: every request fails, and nothing is written any more, the GOAWAY included. -/
def close (s : Http2Session κ) : Guarded (Result κ) :=
  if !s.started then return (s, [])
  else do
    -- the GOAWAY is dropped, and so are the protocol's events
    let (protocol, _) ← s.protocol.apply .close
    return { s with
      protocol, outbound := [], started := false, healthy := false, goingAway := false
    }.failAllStreams (.failConnectionError (ascii "Connection closed"))

/-- The lines that cancel a stream, in `submit` and in `cancelRequest`. -/
def cancelStream (s : Http2Session κ) (streamId : StreamId) : Guarded (Result κ) := do
  let (protocol, result) ← s.protocol.apply (.cancelStream streamId .cancel)
  let (s, events) := s.absorb protocol result
  -- a context that the events have finished is gone by now
  let (s, more) := s.finishStream streamId (.customError (ascii "Request canceled"))
  return (s, events ++ more)

/-- `submit`; `canceled` and `finished` are the flags of the context when the stream has been opened,
and the insertions into the two tables may rehash them. -/
def submit (s : Http2Session κ) (request : Request) (context : κ) (canceled finished : Bool)
    (rehash : Reorder Stream) (rehashContexts : Reorder (StreamId × κ)) : Guarded (Result κ) :=
  if !s.isHealthy then
    return (s, [.requestDone context
      (.protocolError .refusedStream (ascii "Session not healthy"))])
  else do
    let (protocol, result) ← s.protocol.apply (.submitRequest request rehash)
    match result.submittedStreamId with
    -- the protocol has refused the request
    | none => return s.absorb protocol result
    | some streamId =>
      let s := { s with
        streamContexts := s.streamContexts.insert rehashContexts (streamId, context) }
      let (s, events) := s.absorb protocol result
      -- the request has been cancelled while its stream was opened
      if streamId ≠ 0 && canceled && !finished then
        let (s, cancelEvents) ← s.cancelStream streamId
        return (s, events ++ cancelEvents)
      else return (s, events)

/-- `cancelRequest` of a context whose stream id is `streamId`, 0 standing for none. -/
def cancelRequest (s : Http2Session κ) (streamId : StreamId) : Guarded (Result κ) :=
  if streamId = 0 || !s.isHealthy then return (s, [])
  else if s.streamContexts.find? streamId |>.isNone then return (s, [])
  else s.cancelStream streamId

/-- `sendPing`. -/
def sendPing (s : Http2Session κ) : Guarded (Result κ) :=
  if !s.isHealthy then return (s, [])
  else do
    let (protocol, result) ← s.protocol.apply .sendPing
    return (s.consumeStepResult protocol result, [])

/-- `handleTransportFailure`: every request fails, and SESSION_DEAD is reported. -/
def handleTransportFailure (s : Http2Session κ) : Guarded (Result κ) :=
  if !s.healthy then return (s, [])
  else do
    let (protocol, _) ← s.protocol.apply .onTransportClosed
    let (s, events) := { s with protocol, outbound := [], healthy := false }.failAllStreams
      (.failConnectionError (ascii "Connection lost"))
    return (s, events ++ [.sessionDead])

/-- The loop of `onReadable`, with the events it has collected. -/
def readLoop (last : ReadEnd) :
    List Bytes → Http2Session κ → List (SessionEvent κ) → Guarded (Result κ)
  | [], s, sessionEvents =>
    match last with
    | .wouldBlock => return (s, sessionEvents)
    | .closed | .err => s.handleTransportFailure
  | data :: chunks, s, sessionEvents =>
    -- an empty read ends the series, and is no failure
    if data = [] then return (s, sessionEvents)
    else do
      let (protocol, result) ← s.protocol.apply (.receiveBytes data)
      let (s, events) := s.absorb protocol result
      readLoop last chunks s (sessionEvents ++ events)

/-- `onReadable`, when the transport hands out some chunks before it ends the series of reads. -/
def onReadable (s : Http2Session κ) (chunks : List Bytes) (last : ReadEnd) : Guarded (Result κ) :=
  if !s.isHealthy then return (s, []) else readLoop last chunks s []

/-- What the loop of `onWritable` makes of a chunk: it has been written, with the write results that
are left; it has been written in part; or the transport has failed. -/
inductive ChunkOutcome where
  | written (writes : List WriteResult)
  | blocked (chunk : OutboundChunk)
  | failed

/-- The rounds of the loop of `onWritable` on the chunk at the front. -/
def writeChunk (chunk : OutboundChunk) : List WriteResult → ChunkOutcome
  | [] => if chunk.offset ≥ chunk.data.length then .written [] else .blocked chunk
  | write :: writes =>
    if chunk.offset ≥ chunk.data.length then .written (write :: writes)
    else
      match write with
      | .wouldBlock => .blocked chunk
      | .closed | .err => .failed
      | .ok bytes => writeChunk { chunk with offset := chunk.offset + bytes } writes

/-- The loop of `onWritable`: the chunks that are left, or `none` when the transport has failed. A
transport without further results blocks. -/
def writeLoop : List OutboundChunk → List WriteResult → Option (List OutboundChunk)
  | [], _ => some []
  | chunk :: chunks, writes =>
    match writeChunk chunk writes with
    | .written writes => writeLoop chunks writes
    | .blocked chunk => some (chunk :: chunks)
    | .failed => none

/-- `onWritable`; the events of a failure are dropped. -/
def onWritable (s : Http2Session κ) (writes : List WriteResult) : Guarded (Http2Session κ) :=
  if !s.isHealthy then return s
  else
    match writeLoop s.outbound writes with
    | some outbound => return { s with outbound }
    | none => do
      let (s, _) ← s.handleTransportFailure
      return s

/-- The operations of the owner of a session. -/
inductive Op (κ : Type) where
  | start (ready : Bool)
  | submit (request : Request) (context : κ) (canceled finished : Bool) (rehash : Reorder Stream)
      (rehashContexts : Reorder (StreamId × κ))
  | cancelRequest (streamId : StreamId)
  | sendPing
  | onReadable (chunks : List Bytes) (last : ReadEnd)
  | onWritable (writes : List WriteResult)
  | close

/-- The calls of the connection. -/
def apply (s : Http2Session κ) : Op κ → Guarded (Result κ)
  | .start ready => do
    let (s, _) ← s.start ready
    return (s, [])
  | .submit request context canceled finished rehash rehashContexts =>
    s.submit request context canceled finished rehash rehashContexts
  | .cancelRequest streamId => s.cancelRequest streamId
  | .sendPing => s.sendPing
  | .onReadable chunks last => s.onReadable chunks last
  | .onWritable writes => do
    let s ← s.onWritable writes
    return (s, [])
  | .close => s.close

end Http2Session

end Chttp2
