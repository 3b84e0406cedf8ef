import Chttp2.Frame
import Chttp2.Hpack.Codec
import Chttp2.Lib.KeyedTable
import Chttp2.Protocol.Stream

/-!
# The state of the protocol and its building blocks

`ProtocolState` holds the members of `Http2Protocol` besides the frame codec. The handlers return
the new state with a `ProtocolStepResult`; outbound buffers are kept as the frames that
`appendOutboundFrame` serialises.

A `Stream*` is the record of the stream; a handler that writes through it puts the new record back
into the table. Loops over the `unordered_map` of streams visit the entries in the order of the
table.

`decodeLog` is not a member of the source: it records the calls of `hpack.decode`.
-/

set_option autoImplicit false

namespace Chttp2

/-- What an operation hands to the session: buffers to write and events to report, both in order. -/
structure ProtocolStepResult where
  outbound : List OutboundBuffer := []
  events : List ProtocolEvent := []
  /-- `submittedStreamId`, where `hasSubmittedStream` holds -/
  submittedStreamId : Option StreamId := none
  deriving DecidableEq, Repr

/-- `mergeStepResult`. -/
def ProtocolStepResult.merge (dst src : ProtocolStepResult) : ProtocolStepResult where
  outbound := dst.outbound ++ src.outbound
  events := dst.events ++ src.events
  submittedStreamId := src.submittedStreamId.or dst.submittedStreamId

/-- A call of `hpack.decode`: the stream that the block arrived on, the block and the outcome. -/
structure DecodeCall where
  streamId : StreamId
  block : Bytes
  fields : Option (List HeaderField)
  deriving DecidableEq, Repr

/-- `std::unordered_map<StreamId, std::unique_ptr<Stream>>`. -/
abbrev StreamTable := KeyedTable Stream.streamId

/-- The members of `Http2Protocol` besides `frameCodec`, as `reset` initialises them. -/
structure ProtocolState where
  streams : StreamTable := .empty
  maxConcurrentStreams : Nat := Http2SettingInfo.defaultMaxConcurrentStreams
  encodeHeaderTableSize : Nat := Http2SettingInfo.defaultHeaderTableSize
  decodeHeaderTableSize : Nat := Http2SettingInfo.defaultHeaderTableSize
  maxFrameSize : Nat := Http2SettingInfo.defaultMaxFrameSize
  localMaxFrameSize : Nat := Http2SettingInfo.defaultMaxFrameSize
  initialWindowSize : Nat := Http2SettingInfo.defaultInitialWindowSize
  maxHeaderListSize : Nat := Http2SettingInfo.defaultMaxHeaderListSize
  enablePush : Bool := Http2SettingInfo.defaultEnablePush
  nextStreamId : StreamId := 1
  lastPeerStreamId : StreamId := 0
  started : Bool := false
  closed : Bool := false
  sentConnectionPreface : Bool := false
  sentLocalSettings : Bool := false
  gotPeerSettings : Bool := false
  sentGoaway : Bool := false
  receivedGoaway : Bool := false
  transportClosed : Bool := false
  expectingContinuation : Bool := false
  continuationStreamId : StreamId := 0
  connectionErrorCode : ErrorCode := .noError
  connectionDebugData : Bytes := []
  pingCounter : Nat := 0
  connectionInflow : InFlow := ({} : InFlow).init Http2SettingInfo.defaultInitialWindowSize
  connectionOutFlow : OutFlow :=
    (({} : OutFlow).add Http2SettingInfo.defaultInitialWindowSize).getD {}
  hpack : Hpack :=
    (({} : Hpack).setDecodeTableLimit Http2SettingInfo.defaultHeaderTableSize).setEncodeTableSize
      Http2SettingInfo.defaultHeaderTableSize
  ghostHeaderBlock : Bytes := []
  decodeLog : List DecodeCall := []
  deriving DecidableEq

namespace ProtocolState

/-- The constructor of `Http2Protocol` from a configuration. -/
def ofConfig (config : ClientConfig) : ProtocolState :=
  let p : ProtocolState := {}
  { p with
    maxConcurrentStreams := config.maxConcurrentStreams
    decodeHeaderTableSize := config.headerTableSize
    localMaxFrameSize := config.maxFrameSize
    initialWindowSize := config.initialWindowSize
    maxHeaderListSize := config.maxHeaderListSize
    hpack := p.hpack.setDecodeTableLimit config.headerTableSize
    connectionInflow := p.connectionInflow.init (wrapInt32 config.initialWindowSize) }

/-- Write a stream record back. -/
def putStream (p : ProtocolState) (stream : Stream) : ProtocolState :=
  { p with streams := p.streams.set stream }

/-! ## Frame builders -/

/-- `buildLocalSettingsFrame`. -/
def buildLocalSettingsFrame (p : ProtocolState) : SettingFrame :=
  let settings := [
    (Http2SettingParameter.maxConcurrentStreams.toNat, p.maxConcurrentStreams),
    (Http2SettingParameter.headerTableSize.toNat, p.decodeHeaderTableSize),
    (Http2SettingParameter.enablePush.toNat, if p.enablePush then 1 else 0),
    (Http2SettingParameter.maxFrameSize.toNat, p.localMaxFrameSize),
    (Http2SettingParameter.initialWindowSize.toNat, p.initialWindowSize)] ++
    if p.maxHeaderListSize > 0 then
      [(Http2SettingParameter.maxHeaderListSize.toNat, p.maxHeaderListSize)] else []
  { header := { type := .settings, streamId := 0, payloadLength := settings.length * 6 }, settings }

/-- `buildGoAwayFrame`; it names the last stream that the peer has opened. -/
def buildGoAwayFrame (p : ProtocolState) (errorCode : ErrorCode) (debugData : Bytes) :
    GoAwayFrame :=
  { header := { type := .goAway, streamId := 0, payloadLength := 8 + debugData.length }
    lastStreamId := p.lastPeerStreamId
    errorCode := errorCode.toNat
    data := debugData }

def buildRstStreamFrame (streamId : StreamId) (errorCode : ErrorCode) : RstStreamFrame :=
  { header := { type := .rstStream, streamId, payloadLength := 4 }, errorCode := errorCode.toNat }

def buildWindowUpdateFrame (streamId : StreamId) (increment : Nat) : WindowUpdateFrame :=
  { header := { type := .windowUpdate, streamId, payloadLength := 4 }
    windowSizeIncrement := increment }

/-! ## Stream and connection errors -/

/-- `failStream`. The record is erased, so the writes to it are left out. -/
def failStream (p : ProtocolState) (streamId : StreamId) (errorCode : ErrorCode)
    (sendRst : Bool) : ProtocolState × ProtocolStepResult :=
  match p.streams.find? streamId with
  | none => (p, {})
  | some stream =>
    ({ p with
        ghostHeaderBlock :=
          if stream.waitingForContinuation && !stream.pendingHeaderBlock.isEmpty then
            stream.pendingHeaderBlock
          else p.ghostHeaderBlock
        streams := p.streams.erase streamId },
      { outbound :=
          if sendRst && !p.closed && !p.transportClosed then
            [.rstStream (buildRstStreamFrame streamId errorCode)]
          else []
        events := [.streamClosed streamId errorCode, .responseFailed streamId errorCode] })

/-- Fail the streams of a list, one after the other, without RST_STREAM. -/
def failStreams (errorCode : ErrorCode) :
    List StreamId → ProtocolState → ProtocolStepResult → ProtocolState × ProtocolStepResult
  | [], p, result => (p, result)
  | id :: ids, p, result =>
    let (p, failed) := p.failStream id errorCode false
    failStreams errorCode ids p (result.merge failed)

/-- `failAllStreams`. -/
def failAllStreams (p : ProtocolState) (errorCode : ErrorCode) (result : ProtocolStepResult) :
    ProtocolState × ProtocolStepResult :=
  failStreams errorCode p.streams.keys p result

/-- `failConnection`. -/
def failConnection (p : ProtocolState) (errorCode : ErrorCode) (debugData : String) :
    ProtocolState × ProtocolStepResult :=
  let debugData := ascii debugData
  let goaway := buildGoAwayFrame p errorCode debugData
  let result : ProtocolStepResult :=
    if !p.sentGoaway && !p.transportClosed then
      { outbound := [.goAway goaway]
        events := [.goAwaySent goaway.lastStreamId errorCode debugData] }
    else {}
  let p := { p with
    sentGoaway := p.sentGoaway || !p.transportClosed
    connectionErrorCode := errorCode
    connectionDebugData := debugData
    closed := true
    expectingContinuation := false
    continuationStreamId := 0
    ghostHeaderBlock := [] }
  -- the streams fail after the block has been cleared, and may leave theirs behind
  let (p, result) := p.failAllStreams errorCode result
  (p, result.merge { events := [.connectionError errorCode, .connectionClosed errorCode] })

/-! ## Emission of requests -/

/-- The CONTINUATION frames of `emitRequestHeaders` for what is left of the block. -/
def emitContinuations (maxFrameSize : Nat) (streamId : StreamId) : Nat → Bytes → List OutboundBuffer
  | 0, _ => []
  | fuel + 1, span =>
    if span = [] then []
    else
      let chunkSize := min maxFrameSize span.length
      let header : FrameHeader := { type := .continuation, streamId, payloadLength := chunkSize }
      let rest := span.drop chunkSize
      .continuation
        { header := if rest = [] then header.setEndHeadersFlag else header
          data := span.take chunkSize } ::
        emitContinuations maxFrameSize streamId fuel rest

/-- `emitRequestHeaders`: the frames, and the stream with `localEndStreamSent` written. -/
def emitRequestHeaders (p : ProtocolState) (stream : Stream) (encoded : Bytes) :
    Stream × List OutboundBuffer :=
  let hasBody := stream.hasBody
  let chunkSize := min p.maxFrameSize encoded.length
  let header : FrameHeader :=
    { type := .headers, streamId := stream.streamId, payloadLength := chunkSize }
  let rest := encoded.drop chunkSize
  let header := if rest = [] then
      -- without a body the block ends the request, but only if it needs no CONTINUATION
      let header := header.setEndHeadersFlag
      if !hasBody then header.setEndStreamFlag else header
    else header
  let stream := if rest = [] && !hasBody then { stream with localEndStreamSent := true } else stream
  (stream, .headers { header, data := encoded.take chunkSize } ::
    emitContinuations p.maxFrameSize stream.streamId rest.length rest)

/-- The loop of `emitPendingRequestBody`: the stream, the connection's window and the frames. Every
round sends at least one byte of what is left. -/
def emitBodyLoop (maxFrameSize : Nat) :
    Nat → Stream → OutFlow → Guarded (Stream × OutFlow × List OutboundBuffer)
  | 0, stream, conn => return (stream, conn, [])
  | fuel + 1, stream, conn =>
    if stream.remainingBodySize = 0 then return (stream, conn, [])
    else
      let chunkSize := min maxFrameSize stream.remainingBodySize
      -- both windows bound a frame, and a window may be negative
      let available := (max 0 (stream.outflow.available conn)).toNat
      let chunkSize := min chunkSize available
      if chunkSize = 0 then return (stream, conn, [])
      else do
        let data := (stream.rqst.body.drop stream.requestBodyOffset).take chunkSize
        let header : FrameHeader :=
          { type := .data, streamId := stream.streamId, payloadLength := chunkSize }
        let (outflow, conn) ← stream.outflow.take conn chunkSize
        let stream := { stream with
          outflow, requestBodyOffset := stream.requestBodyOffset + chunkSize }
        let last := stream.remainingBodySize = 0
        -- END_STREAM goes with the last byte of the body
        let header := if last then header.setEndStreamFlag else header
        let stream := if last then { stream with localEndStreamSent := true } else stream
        let (stream, conn, frames) ← emitBodyLoop maxFrameSize fuel stream conn
        return (stream, conn, .data { header, data } :: frames)

/-- `emitPendingRequestBody` for a stream of the table. -/
def emitPendingRequestBody (p : ProtocolState) (stream : Stream) :
    Guarded (ProtocolState × ProtocolStepResult) :=
  if stream.localEndStreamSent || stream.isClosed then return (p, {})
  else do
    let (stream, conn, frames) ←
      emitBodyLoop p.maxFrameSize stream.remainingBodySize stream p.connectionOutFlow
    let p := { p with connectionOutFlow := conn }
    if stream.localEndStreamSent then
      -- the response is complete already
      if stream.remoteEndStreamReceived then
        return ({ p with streams := p.streams.erase stream.streamId },
          { outbound := frames, events := [.streamClosed stream.streamId .noError] })
      else
        return (p.putStream { stream with streamState := .halfClosedLocal }, { outbound := frames })
    else return (p.putStream stream, { outbound := frames })

/-- Emit the pending bodies of the streams with the given ids that are still in the table. -/
def emitPendingBodies :
    List StreamId → ProtocolState → Guarded (ProtocolState × ProtocolStepResult)
  | [], p => return (p, {})
  | id :: ids, p =>
    match p.streams.find? id with
    | none => emitPendingBodies ids p
    | some stream => do
      let (p, result) ← p.emitPendingRequestBody stream
      let (p, more) ← emitPendingBodies ids p
      return (p, result.merge more)

/-! ## The end of a response -/

/-- `finalizeRemoteStream`: the end of the peer's side of a stream. A response that is complete is
moved into its event. -/
def finalizeRemoteStream (p : ProtocolState) (stream : Stream) :
    Guarded (ProtocolState × ProtocolStepResult) := do
  let stream := { stream with remoteEndStreamReceived := true }
  let p := p.putStream stream
  let mismatch ← stream.contentLengthMismatch
  if mismatch then return p.failStream stream.streamId .protocolError true
  else
    let completed := ProtocolEvent.responseCompleted stream.streamId stream.resp
    if stream.localEndStreamSent then
      return ({ p with streams := p.streams.erase stream.streamId },
        { events := [completed, .streamClosed stream.streamId .noError] })
    else
      return (p.putStream { stream with
          responseComplete := true, resp := {}, streamState := .halfClosedRemote },
        { events := [completed] })

/-- The last lines of `decodeResponseHeaders`, after the fields have been stored on the stream. -/
def reportHeaders (p : ProtocolState) (stream : Stream) (endStream : Bool) :
    Guarded (ProtocolState × ProtocolStepResult) := do
  let p := p.putStream stream
  let received : ProtocolStepResult :=
    { events := [.streamHeadersReceived stream.streamId stream.resp] }
  if endStream then
    let (p, result) ← p.finalizeRemoteStream stream
    return (p, received.merge result)
  else return (p, received)

/-- `hpack.decode` of the block of a stream, with its record in the log. -/
def hpackDecode (p : ProtocolState) (streamId : StreamId) (block : Bytes) :
    Guarded (ProtocolState × Option (List HeaderField)) := do
  let (hpack, fields) ← p.hpack.decode block
  return ({ p with hpack, decodeLog := p.decodeLog ++ [⟨streamId, block, fields⟩] }, fields)

/-- `decodeResponseHeaders`: the error code, `none` standing for `NO_ERROR`. -/
def decodeResponseHeaders (p : ProtocolState) (stream : Stream) (endStream : Bool) :
    Guarded (ProtocolState × ProtocolStepResult × Option ErrorCode) := do
  match ← p.hpackDecode stream.streamId stream.pendingHeaderBlock with
  | (p, none) => return (p, {}, some .compressionError)
  | (p, some headers) =>
    -- the limit that the peer has announced is applied to what the peer sends
    if p.maxHeaderListSize > 0 && headerListSize headers > p.maxHeaderListSize then
      return (p, {}, some .enhanceYourCalm)
    else
      match validateResponseHeaderBlock stream.clearBlock headers endStream with
      | .rejected code => return (p.putStream stream.clearBlock, {}, some code)
      -- the fields of a 1xx block are reported but not stored; its length stays on the stream
      | .informational cl =>
        return (p.putStream (stream.withInformational cl),
          { events := [.streamHeadersReceived stream.streamId { headers }] }, none)
      | .accepted cl =>
        if !stream.finalResponseHeadersReceived then
          let (p, result) ← p.reportHeaders (stream.withHeaders cl headers) endStream
          return (p, result, none)
        else if stream.isConnectRequest then
          return (p.putStream (stream.withInformational cl), {}, some .protocolError)
        else
          let (p, result) ← p.reportHeaders (stream.withTrailers cl headers) endStream
          return (p, result, none)

/-- `handleHeaderBlockError`. -/
def handleHeaderBlockError (p : ProtocolState) (streamId : StreamId) (errorCode : ErrorCode) :
    ProtocolState × ProtocolStepResult :=
  if errorCode = .compressionError then p.failConnection errorCode "HPACK decode error"
  else p.failStream streamId errorCode true

/-! ## Settings -/

/-- The loop over the streams for a change of `INITIAL_WINDOW_SIZE`; the flag is false when a window
overflows, which ends the loop. -/
def adjustWindows (delta : Int) : List StreamId → ProtocolState → ProtocolState × Bool
  | [], p => (p, true)
  | id :: ids, p =>
    match p.streams.find? id with
    | none => adjustWindows delta ids p
    | some stream =>
      match stream.outflow.add delta with
      | none => (p, false)
      | some outflow => adjustWindows delta ids (p.putStream { stream with outflow })

/-- One setting; `none` stands for `NO_ERROR`. -/
def applyPeerSetting (p : ProtocolState) (parameter : Http2SettingParameter) (value : Nat) :
    ProtocolState × Option ErrorCode :=
  match parameter with
  | .maxConcurrentStreams => ({ p with maxConcurrentStreams := value }, none)
  | .headerTableSize =>
    ({ p with encodeHeaderTableSize := value, hpack := p.hpack.setEncodeTableSize value }, none)
  | .enablePush =>
    if value ≠ 0 then (p, some .protocolError) else ({ p with enablePush := false }, none)
  | .maxFrameSize =>
    if value < Http2SettingInfo.minimumMaxFrameSize ∨ value > Http2SettingInfo.maximumMaxFrameSize
    then (p, some .protocolError)
    else ({ p with maxFrameSize := value }, none)
  | .initialWindowSize =>
    if value > Http2SettingInfo.maximumWindowSize then (p, some .flowControlError)
    else
      -- the difference of two `int32_t` casts
      let delta := wrapInt32 (wrapInt32 value - wrapInt32 p.initialWindowSize)
      let (p, ok) := adjustWindows delta p.streams.keys { p with initialWindowSize := value }
      (p, if ok then none else some .flowControlError)
  | .maxHeaderListSize => ({ p with maxHeaderListSize := value }, none)
  | .other _ => (p, none)

/-- `applyPeerSettings`: the settings in order, up to the first error. -/
def applyPeerSettings : List (Nat × Nat) → ProtocolState → ProtocolState × Option ErrorCode
  | [], p => (p, none)
  | (id, value) :: settings, p =>
    match p.applyPeerSetting (Http2SettingParameter.ofNat id) value with
    | (p, some code) => (p, some code)
    | (p, none) => applyPeerSettings settings p

end ProtocolState

end Chttp2
