import Chttp2.Protocol.State

/-!
# The frame handlers

One definition for each `process...Frame` of `http2_protocol.cpp`, and `receiveFrame`, which
dispatches on the frame type. The `Guarded` results are the failures of the spans, of the flow
windows, of `std::stoi` and of a growing header buffer.
-/

set_option autoImplicit false

namespace Chttp2.ProtocolState

/-- What a handler returns. -/
abbrev Step := Guarded (ProtocolState × ProtocolStepResult)

/-- The WINDOW_UPDATE frame for an announced increment, if there is one. -/
def refreshFrames (streamId : StreamId) (increment : Int) : List OutboundBuffer :=
  if increment > 0 then [.windowUpdate (buildWindowUpdateFrame streamId increment.toNat)] else []

theorem refreshFrames_cases (id : StreamId) (n : Int) :
    refreshFrames id n = [] ∨
      refreshFrames id n = [.windowUpdate (buildWindowUpdateFrame id n.toNat)] :=
  (ite_eq_or_eq _ _ _).symm

/-! ## DATA -/

/-- `processDataOnUnknownStream`: DATA on a stream that is gone takes from the window of the
connection and gives it back at once. -/
def processDataOnUnknownStream (p : ProtocolState) (dataFrame : DataFrame) :
    ProtocolState × ProtocolStepResult :=
  let streamId := dataFrame.header.streamId
  if streamId % 2 = 0 then p.failConnection .protocolError "unexpected peer-initiated DATA stream"
  else if streamId ≥ p.nextStreamId then
    p.failConnection .protocolError "DATA for never-opened stream"
  else
    -- the peer has counted these bytes, whatever has become of the stream
    match p.connectionInflow.take dataFrame.header.payloadLength with
    | none => p.failConnection .flowControlError "old stream DATA exceeded connection window"
    | some inflow =>
      let p := { p with connectionInflow := inflow }
      let (connRefresh, inflow) := p.connectionInflow.add dataFrame.header.payloadLength
      if connRefresh < 0 then p.failConnection .flowControlError "connection inflow window overflow"
      else ({ p with connectionInflow := inflow }, { outbound := refreshFrames 0 connRefresh })

/-- The part of `processDataFrame` after the windows have been charged. -/
def storeData (p : ProtocolState) (stream : Stream) (dataFrame : DataFrame) : Step :=
  let stream := { stream with
    resp := { stream.resp with body := stream.resp.body ++ dataFrame.data }
    receivedContentLength := stream.receivedContentLength + dataFrame.data.length }
  let p := p.putStream stream
  -- the padding has been charged, and is given back with the data
  let consumed := dataFrame.header.payloadLength
  let (connRefresh, connectionInflow) := p.connectionInflow.add consumed
  if connRefresh < 0 then
    return p.failConnection .flowControlError "connection inflow window overflow"
  else
    let p := { p with connectionInflow }
    let (streamRefresh, inflow) := stream.inflow.add consumed
    -- when the stream's window overflows, the connection's WINDOW_UPDATE is dropped with the result
    if streamRefresh < 0 then return p.failStream stream.streamId .flowControlError true
    else do
      let stream := { stream with inflow }
      let p := p.putStream stream
      let result : ProtocolStepResult :=
        { outbound := refreshFrames 0 connRefresh ++ refreshFrames stream.streamId streamRefresh }
      if dataFrame.header.hasEndStreamFlag then
        let (p, fin) ← p.finalizeRemoteStream stream
        return (p, result.merge fin)
      else return (p, result)

/-- `processDataFrame`. -/
def processDataFrame (p : ProtocolState) (frame : RawFrame) : Step :=
  if frame.header.streamId = 0 then return p.failConnection .protocolError "DATA on stream 0"
  else do
    match ← validatePaddedPayload frame 0 with
    | some (validationError, validationDebug) =>
      return p.failConnection validationError validationDebug
    | none =>
      let dataFrame ← DataFrame.ofRaw frame
      match p.streams.find? frame.header.streamId with
      | none => return p.processDataOnUnknownStream dataFrame
      | some stream =>
        if stream.isClosed || stream.remoteEndStreamReceived then
          -- nothing is charged for a frame behind the end of the response
          return p.failStream stream.streamId .streamClosed true
        else if !stream.finalResponseHeadersReceived then
          return p.failStream stream.streamId .protocolError true
        else
          match InFlow.takeInflows p.connectionInflow stream.inflow
              dataFrame.header.payloadLength with
          | none => return p.failConnection .flowControlError "flow control exceeded"
          | some (connectionInflow, inflow) =>
            let stream := { stream with inflow }
            let p := { p with connectionInflow }.putStream stream
            -- a body that is refused stays charged to both windows
            let noBody ← if dataFrame.data ≠ [] then stream.expectsNoBody else pure false
            if noBody then return p.failStream stream.streamId .protocolError true
            else p.storeData stream dataFrame

/-! ## HEADERS -/

/-- The part of `processHeadersFrame` for a stream that is not in the table. -/
def processGhostHeaders (p : ProtocolState) (headersFrame : HeadersFrame) : Step :=
  let streamId := headersFrame.header.streamId
  if streamId % 2 = 0 then
    return p.failConnection .protocolError "unexpected peer-initiated HEADERS stream"
  else if streamId ≥ p.nextStreamId then
    return p.failConnection .protocolError "HEADERS for never-opened stream"
  else if headersFrame.header.hasEndHeadersFlag then do
    -- the fields are discarded, but the dynamic table follows the peer's
    match ← p.hpackDecode streamId headersFrame.data with
    | (p, none) =>
      return p.failConnection .compressionError "HPACK decode failed on closed-stream HEADERS"
    | (p, some _) => return (p, {})
  else do
    -- the length of this first fragment is not compared with `maxHeaderListSize`
    let ghostHeaderBlock ← ByteBuffer.append [] headersFrame.data
    return ({ p with
      ghostHeaderBlock, expectingContinuation := true, continuationStreamId := streamId }, {})

/-- Decode the complete block of a stream and report its errors. -/
def completeHeaderBlock (p : ProtocolState) (stream : Stream) (endStream : Bool) : Step := do
  match ← p.decodeResponseHeaders stream endStream with
  | (p, _, some errorCode) => return p.handleHeaderBlockError stream.streamId errorCode
  | (p, result, none) => return (p, result)

/-- `processHeadersFrame`: a block that is not complete waits in the stream, or for a stream that is
gone in `ghostHeaderBlock`. -/
def processHeadersFrame (p : ProtocolState) (frame : RawFrame) : Step :=
  if frame.header.streamId = 0 then return p.failConnection .protocolError "HEADERS on stream 0"
  else do
    let priorityPrefix := if frame.header.hasAnyFlag .priority then 5 else 0
    match ← validatePaddedPayload frame priorityPrefix with
    | some (validationError, validationDebug) =>
      return p.failConnection validationError validationDebug
    | none =>
      let headersFrame ← HeadersFrame.ofRaw frame
      match p.streams.find? frame.header.streamId with
      | none => p.processGhostHeaders headersFrame
      | some stream =>
        if stream.isClosed || stream.remoteEndStreamReceived then
          -- this block is not decoded
          return p.failStream stream.streamId .streamClosed true
        else
          let pendingHeaderBlock ← ByteBuffer.append stream.pendingHeaderBlock headersFrame.data
          let stream := { stream with pendingHeaderBlock }
          let p := p.putStream stream
          -- the limit of the header list, applied to the encoded block
          if p.maxHeaderListSize > 0 && stream.pendingHeaderBlock.length > p.maxHeaderListSize then
            return p.failConnection .enhanceYourCalm "header block too large"
          else if !headersFrame.header.hasEndHeadersFlag then
            let stream := { stream with
              waitingForContinuation := true
              pendingHeaderEndStream := headersFrame.header.hasEndStreamFlag }
            return ({ p with
              expectingContinuation := true
              continuationStreamId := stream.streamId }.putStream stream, {})
          else p.completeHeaderBlock stream headersFrame.header.hasEndStreamFlag

/-! ## PRIORITY, RST_STREAM and SETTINGS -/

/-- `processPriorityFrame`. -/
def processPriorityFrame (p : ProtocolState) (frame : RawFrame) :
    ProtocolState × ProtocolStepResult :=
  if frame.header.streamId = 0 then p.failConnection .protocolError "PRIORITY on stream 0"
  else if frame.header.payloadLength ≠ 5 then
    -- the stream itself stays as it is
    (p, { outbound := [.rstStream (buildRstStreamFrame frame.header.streamId .frameSizeError)] })
  else (p, {})

/-- `processRstStreamFrame`. -/
def processRstStreamFrame (p : ProtocolState) (frame : RawFrame) : Step :=
  if frame.header.streamId = 0 then return p.failConnection .protocolError "RST_STREAM on stream 0"
  else if frame.header.payloadLength ≠ 4 then
    return p.failConnection .frameSizeError "invalid RST_STREAM size"
  else
    match p.streams.find? frame.header.streamId with
    | none =>
      if frame.header.streamId ≥ p.nextStreamId then
        return p.failConnection .protocolError "RST_STREAM for idle stream"
      else return (p, {})
    | some _ => do
      let rst ← RstStreamFrame.ofRaw frame
      let errorCode := ErrorCode.ofNat rst.errorCode
      let (p, failed) := p.failStream frame.header.streamId errorCode false
      return (p, ProtocolStepResult.merge
        { events := [.streamResetReceived frame.header.streamId errorCode] } failed)

/-- The acknowledgement of a SETTINGS frame. -/
def settingsAck : SettingFrame :=
  { header := ({ type := .settings, streamId := 0 } : FrameHeader).setAckFlag }

/-- `processSettingFrame`. The loop over the streams goes through the keys that are in the table when
it starts; the range-for of the source is undefined when a stream is erased on the way. -/
def processSettingFrame (p : ProtocolState) (frame : RawFrame) : Step :=
  if frame.header.streamId ≠ 0 then
    return p.failConnection .protocolError "SETTINGS with non-zero stream id"
  else if frame.header.payloadLength % 6 ≠ 0 then
    return p.failConnection .frameSizeError "invalid SETTINGS size"
  else if frame.header.hasAckFlag then
    if frame.header.payloadLength ≠ 0 then
      return p.failConnection .frameSizeError "SETTINGS ack must be empty"
    else return (p, { events := [.settingsAckReceived] })
  else do
    let p := { p with gotPeerSettings := true }
    let settingsFrame ← SettingFrame.ofRaw frame
    match applyPeerSettings settingsFrame.settings p with
    | (p, some applyCode) => return p.failConnection applyCode "invalid peer settings"
    | (p, none) =>
      -- a larger INITIAL_WINDOW_SIZE may have made room for bodies
      let (p, result) ← emitPendingBodies p.streams.keys p
      return (p, result.merge { outbound := [.settings settingsAck], events := [.settingsReceived] })

/-! ## PUSH_PROMISE and PING -/

/-- `processPushPromiseFrame`: a promise fails the connection unless push is enabled. -/
def processPushPromiseFrame (p : ProtocolState) (frame : RawFrame) : Step :=
  if frame.header.streamId = 0 then
    return p.failConnection .protocolError "PUSH_PROMISE on stream 0"
  else do
    match ← validatePaddedPayload frame 4 with
    | some (validationError, validationDebug) =>
      return p.failConnection validationError validationDebug
    | none =>
      let push ← PushPromiseFrame.ofRaw frame
      if push.promisedStreamId = 0 ∨ push.promisedStreamId % 2 ≠ 0 then
        return p.failConnection .protocolError "invalid promised stream id parity"
      else if push.promisedStreamId ≤ p.lastPeerStreamId then
        return p.failConnection .protocolError "promised stream id must be new"
      else
        let result : ProtocolStepResult :=
          { events := [.pushPromiseReceived frame.header.streamId push.promisedStreamId] }
        if !p.enablePush then
          let (p, failed) := p.failConnection .protocolError "server push disabled"
          return (p, result.merge failed)
        else return (p, result)

/-- `processPingFrame`: a PING is answered, an acknowledgement only reported. -/
def processPingFrame (p : ProtocolState) (frame : RawFrame) : ProtocolState × ProtocolStepResult :=
  if frame.header.streamId ≠ 0 then
    p.failConnection .protocolError "PING with non-zero stream id"
  else if frame.header.payloadLength ≠ 8 then p.failConnection .frameSizeError "invalid PING size"
  else
    let ping := PingFrame.ofRaw frame
    if frame.header.hasAckFlag then (p, { events := [.pingAckReceived ping.data] })
    else
      let header : FrameHeader := { type := .ping, streamId := 0, payloadLength := 8 }
      (p, { outbound := [.ping { header := header.setAckFlag, data := ping.data }]
            events := [.pingReceived ping.data] })

/-! ## GOAWAY and WINDOW_UPDATE -/

/-- `processGoAwayFrame`: the streams above the last one that the peer will handle fail. -/
def processGoAwayFrame (p : ProtocolState) (frame : RawFrame) : Step :=
  if frame.header.streamId ≠ 0 then
    return p.failConnection .protocolError "GOAWAY with non-zero stream id"
  else if frame.header.payloadLength < 8 then
    return p.failConnection .frameSizeError "invalid GOAWAY"
  else do
    let goaway ← GoAwayFrame.ofRaw frame
    let errorCode := ErrorCode.ofNat goaway.errorCode
    let p := { p with receivedGoaway := true }
    -- the source collects the ids before it fails the streams
    let toFail := p.streams.keys.filter fun id => goaway.lastStreamId < id
    return failStreams errorCode toFail p
      { events := [.goAwayReceived goaway.lastStreamId errorCode goaway.data] }

/-- `processWindowUpdateFrame`; an increment of 0 is an error of the stream or of the connection. -/
def processWindowUpdateFrame (p : ProtocolState) (frame : RawFrame) : Step :=
  if frame.header.payloadLength ≠ 4 then
    return p.failConnection .frameSizeError "invalid WINDOW_UPDATE size"
  else do
    let window ← WindowUpdateFrame.ofRaw frame
    -- the reserved bit is masked out
    let increment := window.windowSizeIncrement % 2 ^ 31
    if increment = 0 then
      if frame.header.streamId = 0 then
        return p.failConnection .protocolError "zero connection window update"
      -- here the stream may be one that has never been opened
      else return p.failStream frame.header.streamId .protocolError true
    else
      let result : ProtocolStepResult :=
        { events := [.windowUpdateReceived frame.header.streamId increment] }
      if frame.header.streamId = 0 then
        match p.connectionOutFlow.add increment with
        | none => return p.failConnection .flowControlError "connection window overflow"
        | some connectionOutFlow =>
          let p := { p with connectionOutFlow }
          -- every stream may have waited for the window of the connection
          let (p, flushed) ← emitPendingBodies p.streams.keys p
          return (p, result.merge flushed)
      else
        match p.streams.find? frame.header.streamId with
        | none =>
          if frame.header.streamId ≥ p.nextStreamId then
            return p.failConnection .protocolError "WINDOW_UPDATE for idle stream"
          else return (p, result)
        | some stream =>
          match stream.outflow.add increment with
          | none => return p.failStream frame.header.streamId .flowControlError true
          | some outflow =>
            let stream := { stream with outflow }
            let (p, flushed) ← (p.putStream stream).emitPendingRequestBody stream
            return (p, result.merge flushed)

/-! ## CONTINUATION -/

/-- The part of `processContinuationFrame` for a stream that is not in the table. -/
def processGhostContinuation (p : ProtocolState) (continuation : ContinuationFrame) : Step := do
  let ghostHeaderBlock ← ByteBuffer.append p.ghostHeaderBlock continuation.data
  if p.maxHeaderListSize > 0 && ghostHeaderBlock.length > p.maxHeaderListSize then
    return { p with ghostHeaderBlock := [] }.failConnection .enhanceYourCalm
      "header block too large"
  else if !continuation.header.hasEndHeadersFlag then return ({ p with ghostHeaderBlock }, {})
  else
    -- as for HEADERS, the fields are discarded
    let p := { p with expectingContinuation := false, continuationStreamId := 0 }
    match ← p.hpackDecode continuation.header.streamId ghostHeaderBlock with
    | (p, none) =>
      return { p with ghostHeaderBlock := [] }.failConnection .compressionError
        "HPACK decode failed on closed-stream CONTINUATION"
    | (p, some _) => return ({ p with ghostHeaderBlock := [] }, {})

/-- `processContinuationFrame`. -/
def processContinuationFrame (p : ProtocolState) (frame : RawFrame) : Step :=
  if frame.header.streamId = 0 then
    return p.failConnection .protocolError "CONTINUATION on stream 0"
  else if !p.expectingContinuation || p.continuationStreamId ≠ frame.header.streamId then
    return p.failConnection .protocolError "unexpected CONTINUATION"
  else
    let continuation := ContinuationFrame.ofRaw frame
    match p.streams.find? frame.header.streamId with
    | none => p.processGhostContinuation continuation
    | some stream => do
      let pendingHeaderBlock ← ByteBuffer.append stream.pendingHeaderBlock continuation.data
      let stream := { stream with pendingHeaderBlock }
      let p := p.putStream stream
      if p.maxHeaderListSize > 0 && stream.pendingHeaderBlock.length > p.maxHeaderListSize then
        return p.failConnection .enhanceYourCalm "header block too large"
      else if !continuation.header.hasEndHeadersFlag then return (p, {})
      else
        let stream := { stream with waitingForContinuation := false }
        { p with expectingContinuation := false, continuationStreamId := 0 }.putStream stream
          |>.completeHeaderBlock stream stream.pendingHeaderEndStream

/-! ## Dispatch -/

/-- The checks that come before the handlers, then the handler of the type. -/
def receiveFrame (p : ProtocolState) (frame : RawFrame) : Step :=
  -- these checks see the header only: a frame of any type may fail them
  if !p.gotPeerSettings && frame.header.type ≠ .settings then
    return p.failConnection .protocolError "first peer frame must be SETTINGS"
  else if frame.header.payloadLength > p.localMaxFrameSize then
    return p.failConnection .frameSizeError "frame exceeds local max frame size"
  else if p.expectingContinuation && frame.header.type ≠ .continuation then
    return p.failConnection .protocolError "expected CONTINUATION"
  else
    match frame.header.type with
    | .data => p.processDataFrame frame
    | .headers => p.processHeadersFrame frame
    | .priority => return p.processPriorityFrame frame
    | .rstStream => p.processRstStreamFrame frame
    | .settings => p.processSettingFrame frame
    | .pushPromise => p.processPushPromiseFrame frame
    | .ping => return p.processPingFrame frame
    | .goAway => p.processGoAwayFrame frame
    | .windowUpdate => p.processWindowUpdateFrame frame
    | .continuation => p.processContinuationFrame frame
    | .other _ =>
      return (p, { events := [.unknownFrameReceived frame.header.type frame.header.streamId
        frame.header.flags frame.data] })

end Chttp2.ProtocolState
