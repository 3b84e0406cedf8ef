import Chttp2.Lib.Machine
import Chttp2.Protocol.Handlers

/-!
# The public operations of the protocol

`Http2Protocol` is the frame codec together with the rest of the state. `Op` lists the operations
that its owner may call, with the bytes of `receiveBytes` in arbitrary chunks, and `apply` executes
one.

`Action` is the finer view that the properties of the protocol are stated in: its steps receive one
frame instead of a chunk of bytes. `runs_of_runs` shows that every run of operations is a run of
actions with the same events and the same outbound frames.
-/

set_option autoImplicit false

namespace Chttp2

/-! ## Local operations -/

namespace ProtocolState

/-- `start`: the preface and the local SETTINGS. -/
def start (p : ProtocolState) : ProtocolState × ProtocolStepResult :=
  if p.started then (p, { events := [.connectionError .protocolError] })
  else
    ({ p with sentConnectionPreface := true, sentLocalSettings := true, started := true },
      { outbound := [.preface, .settings p.buildLocalSettingsFrame]
        events := [.connectionStarted] })

/-- `canSubmitRequests`. -/
def canSubmitRequests (p : ProtocolState) : Bool :=
  p.started && !p.closed && !p.sentGoaway && !p.receivedGoaway

/-- `buildRequestHeaderFields`. -/
def buildRequestHeaderFields (request : Request) : List HeaderField :=
  request.headers.entries.map fun header => { name := header.1, value := header.2 }

/-- The stream that `submitRequest` creates. -/
def newStream (p : ProtocolState) (request : Request) : Stream :=
  let stream := ({ streamId := p.nextStreamId } : Stream).setRequest request
  { stream with
    -- one setting for both directions: the peer's announcement overwrites the own one
    inflow := stream.inflow.init (wrapInt32 p.initialWindowSize)
    outflow := (stream.outflow.add (wrapInt32 p.initialWindowSize)).getD stream.outflow }

/-- The part of `submitRequest` after its checks. -/
def openStream (p : ProtocolState) (request : Request) (rehash : Reorder Stream) : Step := do
  let streamId := p.nextStreamId
  let stream := p.newStream request
  -- the block is encoded as the stream is opened, in the order of the stream ids
  let (encoded, hpack) := p.hpack.encode (buildRequestHeaderFields request)
  let p := { p with
    nextStreamId := p.nextStreamId + 2, streams := p.streams.insert rehash stream, hpack }
  let (stream, headerFrames) := p.emitRequestHeaders stream encoded
  let stream := { stream with
    requestStarted := true
    streamState := if stream.localEndStreamSent then .halfClosedLocal else .open }
  let (p, result) ← (p.putStream stream).emitPendingRequestBody stream
  return (p, { outbound := headerFrames ++ result.outbound
               events := .streamOpened streamId :: result.events
               submittedStreamId := some streamId })

/-- `submitRequest`; the insertion into the table may rehash it. -/
def submitRequest (p : ProtocolState) (request : Request) (rehash : Reorder Stream) : Step :=
  -- no stream is opened for a refusal, which is reported for stream 0
  if !p.canSubmitRequests then return (p, { events := [.responseFailed 0 .refusedStream] })
  else if !request.isValid then return (p, { events := [.responseFailed 0 .protocolError] })
  else if p.streams.size ≥ p.maxConcurrentStreams then
    return (p, { events := [.responseFailed 0 .refusedStream] })
  else if p.nextStreamId = 0 ∨ p.nextStreamId > 0x7fffffff - 1 then
    return (p, { events := [.responseFailed 0 .refusedStream] })
  else p.openStream request rehash

/-- `cancelStream`. -/
def cancelStream (p : ProtocolState) (streamId : StreamId) (errorCode : ErrorCode) :
    ProtocolState × ProtocolStepResult :=
  if p.closed then (p, {}) else p.failStream streamId errorCode true

/-- `sendPing`; the payload is a counter. -/
def sendPing (p : ProtocolState) : ProtocolState × ProtocolStepResult :=
  if p.closed || !p.started then (p, {})
  else
    let p := { p with pingCounter := p.pingCounter + 1 }
    let header : FrameHeader := { type := .ping, streamId := 0, payloadLength := 8 }
    (p, { outbound := [.ping { header, data := toBigEndian 8 p.pingCounter }] })

/-- `close`: a GOAWAY, and every stream fails. -/
def close (p : ProtocolState) : ProtocolState × ProtocolStepResult :=
  if p.closed then (p, {})
  else
    let goaway := buildGoAwayFrame p .noError []
    let result : ProtocolStepResult :=
      if !p.sentGoaway then
        { outbound := [.goAway goaway], events := [.goAwaySent goaway.lastStreamId .noError []] }
      else {}
    -- the requests are failed without an RST_STREAM
    let (p, result) := { p with sentGoaway := true }.failAllStreams .cancel result
    ({ p with closed := true }, result.merge { events := [.connectionClosed .noError] })

/-- `onTransportClosed`: the streams that are left fail without an RST_STREAM. -/
def onTransportClosed (p : ProtocolState) : ProtocolState × ProtocolStepResult :=
  let p := { p with transportClosed := true }
  let (p, result) := if !p.closed then p.failAllStreams .cancel {} else (p, {})
  let p := { p with closed := true }
  (p, result.merge { events := [.transportClosed, .connectionClosed p.connectionErrorCode] })

end ProtocolState

/-! ## Received bytes -/

/-- `Http2Protocol`: the codec that cuts the bytes into frames, and the state behind it. -/
structure Http2Protocol where
  frameCodec : FrameCodec := {}
  state : ProtocolState := {}
  deriving DecidableEq

namespace Http2Protocol

def ofConfig (config : ClientConfig) : Http2Protocol := { state := .ofConfig config }

/-- The loop of `receiveBytes`; every round takes a frame out of the codec. -/
def receiveFrames : Nat → Http2Protocol → Guarded (Http2Protocol × ProtocolStepResult)
  | 0, p => return (p, {})
  | fuel + 1, p => do
    match ← p.frameCodec.tryPop with
    | none => return (p, {})
    | some (frame, frameCodec) =>
      let (state, result) ← p.state.receiveFrame frame
      -- what is left in the codec is never received
      if state.closed then return (⟨frameCodec, state⟩, result)
      else
        let (p, more) ← receiveFrames fuel ⟨frameCodec, state⟩
        return (p, result.merge more)

/-- `receiveBytes`: the bytes join those that wait, and every whole frame is received. -/
def receiveBytes (p : Http2Protocol) (data : Bytes) :
    Guarded (Http2Protocol × ProtocolStepResult) :=
  if p.state.closed || p.state.transportClosed then return (p, {})
  else
    let frameCodec := p.frameCodec.feed data
    receiveFrames frameCodec.buffer.length { p with frameCodec }

/-- The operations of the owner of a protocol. -/
inductive Op where
  | start
  | submitRequest (request : Request) (rehash : Reorder Stream)
  | receiveBytes (data : Bytes)
  | cancelStream (streamId : StreamId) (errorCode : ErrorCode)
  | sendPing
  | close
  | onTransportClosed

/-- Run a transition of the state besides the codec. -/
def lift (p : Http2Protocol) (x : ProtocolState.Step) :
    Guarded (Http2Protocol × ProtocolStepResult) := do
  let (state, result) ← x
  return ({ p with state }, result)

/-- The public operations. -/
def apply (p : Http2Protocol) : Op → Guarded (Http2Protocol × ProtocolStepResult)
  | .start => p.lift (.ok p.state.start)
  | .submitRequest request rehash => p.lift (p.state.submitRequest request rehash)
  | .receiveBytes data => p.receiveBytes data
  | .cancelStream streamId errorCode => p.lift (.ok (p.state.cancelStream streamId errorCode))
  | .sendPing => p.lift (.ok p.state.sendPing)
  | .close => p.lift (.ok p.state.close)
  | .onTransportClosed => p.lift (.ok p.state.onTransportClosed)

end Http2Protocol

/-! ## Actions -/

/-- The steps of a connection: the local operations, and one received frame. -/
inductive Action where
  | start
  | submitRequest (request : Request) (rehash : Reorder Stream)
  | receiveFrame (frame : RawFrame)
  | cancelStream (streamId : StreamId) (errorCode : ErrorCode)
  | sendPing
  | close
  | onTransportClosed

namespace ProtocolState

/-- One step. A closed connection pops no more frames. -/
def act (p : ProtocolState) : Action → Step
  | .start => .ok p.start
  | .submitRequest request rehash => p.submitRequest request rehash
  | .receiveFrame frame =>
    if p.closed || p.transportClosed then .ok (p, {}) else p.receiveFrame frame
  | .cancelStream streamId errorCode => .ok (p.cancelStream streamId errorCode)
  | .sendPing => .ok p.sendPing
  | .close => .ok p.close
  | .onTransportClosed => .ok p.onTransportClosed

end ProtocolState

/-- What a step of a connection was: state before, action and result. -/
abbrev Entry := Machine.Entry ProtocolState Action ProtocolStepResult

/-- A run of the protocol of one connection. -/
abbrev Runs (s₀ : ProtocolState) (tr : List Entry) (s : ProtocolState) : Prop :=
  Machine.Runs ProtocolState.act s₀ tr s

section Traces

variable {σ ι : Type}

/-- The events of a trace. -/
def eventsOf (tr : List (Machine.Entry σ ι ProtocolStepResult)) : List ProtocolEvent :=
  tr.flatMap fun e => e.output.events

/-- The outbound buffers of a trace. -/
def outboundOf (tr : List (Machine.Entry σ ι ProtocolStepResult)) : List OutboundBuffer :=
  tr.flatMap fun e => e.output.outbound

variable {tr tr' : List (Machine.Entry σ ι ProtocolStepResult)}
  {e : Machine.Entry σ ι ProtocolStepResult}

@[simp] theorem eventsOf_nil : eventsOf ([] : List (Machine.Entry σ ι ProtocolStepResult)) = [] :=
  rfl

@[simp] theorem outboundOf_nil :
    outboundOf ([] : List (Machine.Entry σ ι ProtocolStepResult)) = [] := rfl

@[simp] theorem eventsOf_append : eventsOf (tr ++ tr') = eventsOf tr ++ eventsOf tr' :=
  List.flatMap_append

@[simp] theorem outboundOf_append : outboundOf (tr ++ tr') = outboundOf tr ++ outboundOf tr' :=
  List.flatMap_append

@[simp] theorem eventsOf_cons : eventsOf (e :: tr) = e.output.events ++ eventsOf tr := rfl

@[simp] theorem outboundOf_cons : outboundOf (e :: tr) = e.output.outbound ++ outboundOf tr := rfl

end Traces

/-! ## Sample inputs -/

/-- A POST request with ten bytes of body. -/
def postRequest : Request where
  headers := { entries := [(ascii ":authority", ascii "a"), (ascii ":method", ascii "POST"),
    (ascii ":path", ascii "/"), (ascii ":scheme", ascii "http")] }
  body := ascii "0123456789"

/-- A GET request. -/
def getRequest : Request where
  headers := { entries := [(ascii ":authority", ascii "a"), (ascii ":method", ascii "GET"),
    (ascii ":path", ascii "/"), (ascii ":scheme", ascii "http")] }

theorem first_streamId_lt : 1 < 2 ^ 31 := Nat.one_lt_two_pow (by decide)

theorem length_nil_lt : ([] : Bytes).length < 2 ^ 24 := by decide

theorem length_okBlock_lt : ([0x88] : Bytes).length < 2 ^ 24 := by decide

theorem length_zeroWord_lt : ([0, 0, 0, 0] : Bytes).length < 2 ^ 24 := by decide

/-- A SETTINGS frame with one parameter. -/
def settingsFrame (parameter value : Nat) : RawFrame :=
  .ofPayload { type := .settings, streamId := 0 }
    (toBigEndian 2 parameter ++ toBigEndian 4 value) (by simp) (by decide)

/-- An empty SETTINGS frame. -/
def emptySettingsFrame : RawFrame :=
  .ofPayload { type := .settings, streamId := 0 } [] length_nil_lt (by decide)

/-- The response 200 without other fields. -/
def okResponse : Response where
  headers := [{ name := ascii ":status", value := ascii "200" }]

/-- A HEADERS frame on stream 1 with the response 200. -/
def okResponseFrame (flags : UInt8) : RawFrame :=
  .ofPayload { type := .headers, flags, streamId := 1 } [0x88] length_okBlock_lt
    first_streamId_lt

/-- A DATA frame on stream 1 with five bytes of body. -/
def dataOnFirstStream : RawFrame :=
  .ofPayload { type := .data, streamId := 1 } (ascii "hello") (by decide) first_streamId_lt

/-- RST_STREAM with NO_ERROR on stream 1. -/
def resetFrame : RawFrame :=
  .ofPayload { type := .rstStream, streamId := 1 } [0, 0, 0, 0] length_zeroWord_lt
    first_streamId_lt

end Chttp2
