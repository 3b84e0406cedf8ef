import Chttp2.Protocol.Blocks
import Chttp2.Protocol.Emission
import Chttp2.Protocol.Settings

/-!
# The cases of a received frame

`FrameStep` lists what a received frame can do to the connection: one constructor for each way
through the handlers, with the state and the result it leads to. `Violation` lists the frames that
fail the connection. Every invariant of the connection is proved by cases on `FrameStep`.
-/

set_option autoImplicit false

namespace Chttp2

/-! ## The fields of a frame -/

namespace RawFrame

/-- The prefix that the handler of a padded frame type asks for. -/
def fixedPrefix (f : RawFrame) : Option Nat :=
  match f.header.type with
  | .data => some 0
  | .headers => some f.priorityPrefix
  | .pushPromise => some 4
  | _ => none

/-- The body bytes of a DATA frame. -/
def dataFragment (f : RawFrame) : Bytes := f.paddedFragment 0

/-- The header bytes of a HEADERS frame. -/
def headerFragment (f : RawFrame) : Bytes := f.paddedFragment f.priorityPrefix

/-- The increment of a WINDOW_UPDATE frame. -/
def windowIncrement (f : RawFrame) : Nat := bigEndian f.data % 2 ^ 31

/-- The settings of a SETTINGS frame. -/
def settings (f : RawFrame) : List (Nat × Nat) :=
  settingsOf (f.header.payloadLength / 6) f.data

/-- The last stream id of a GOAWAY frame. -/
def goAwayLastStreamId (f : RawFrame) : StreamId := bigEndian (f.data.take 4) % 2 ^ 31

/-- The payload length is one that the handler of the frame type refuses. -/
def BadLength (f : RawFrame) : Prop :=
  match f.header.type with
  | .rstStream | .windowUpdate => f.header.payloadLength ≠ 4
  | .settings => f.header.payloadLength % 6 ≠ 0 ∨
      (f.header.hasAckFlag = true ∧ f.header.payloadLength ≠ 0)
  | .ping => f.header.payloadLength ≠ 8
  | .goAway => f.header.payloadLength < 8
  | _ => False

/-- Stream 0 is used by a frame that needs a stream, or a stream by a frame of the connection. -/
def BadStreamId (f : RawFrame) : Prop :=
  match f.header.type with
  | .data | .headers | .priority | .rstStream | .pushPromise | .continuation =>
    f.header.streamId = 0
  | .settings | .ping | .goAway => f.header.streamId ≠ 0
  | _ => False

end RawFrame

namespace Stream

/-- DATA and HEADERS frames are refused on a stream that is closed or whose peer has ended it. -/
def Refuses (s : Stream) : Prop := s.isClosed = true ∨ s.remoteEndStreamReceived = true

/-- The stream after body bytes have arrived. -/
def withData (s : Stream) (inflow : InFlow) (data : Bytes) : Stream :=
  { s with
    resp := { s.resp with body := s.resp.body ++ data }
    receivedContentLength := s.receivedContentLength + data.length
    inflow }

/-- The stream with more bytes of a header block. -/
def withFragment (s : Stream) (fragment : Bytes) : Stream :=
  { s with pendingHeaderBlock := s.pendingHeaderBlock ++ fragment }

/-- The stream after a HEADERS frame that CONTINUATION frames follow. -/
def openBlock (s : Stream) (fragment : Bytes) (endStream : Bool) : Stream :=
  { s.withFragment fragment with
    waitingForContinuation := true
    pendingHeaderEndStream := endStream }

/-- The stream whose last CONTINUATION frame has arrived. -/
def endBlock (s : Stream) (fragment : Bytes) : Stream :=
  { s.withFragment fragment with waitingForContinuation := false }

end Stream

namespace ProtocolState

/-! ## Connection errors -/

/-- The id of a frame on a stream that is not in the table belongs to no stream of this client. -/
def NeverOpened (p : ProtocolState) (streamId : StreamId) : Prop :=
  streamId % 2 = 0 ∨ p.nextStreamId ≤ streamId

/-- The frames that fail the connection, with the error code they fail it with. -/
inductive Violation (p : ProtocolState) (f : RawFrame) : ErrorCode → Prop
  | beforeSettings (h : p.gotPeerSettings = false) (ht : f.header.type ≠ .settings) :
      Violation p f .protocolError
  | oversized (h : p.localMaxFrameSize < f.header.payloadLength) : Violation p f .frameSizeError
  | interrupting (h : p.expectingContinuation = true) (ht : f.header.type ≠ .continuation) :
      Violation p f .protocolError
  | streamId (h : f.BadStreamId) : Violation p f .protocolError
  | length (h : f.BadLength) : Violation p f .frameSizeError
  | padding {k : Nat} {code : ErrorCode} (hk : f.fixedPrefix = some k) (h : ¬ f.PaddingOk k)
      (hcode : code = .protocolError ∨ code = .frameSizeError) : Violation p f code
  | neverOpened (ht : f.header.type = .data ∨ f.header.type = .headers)
      (hnone : p.streams.find? f.header.streamId = none)
      (h : p.NeverOpened f.header.streamId) : Violation p f .protocolError
  | idle (ht : f.header.type = .rstStream ∨ f.header.type = .windowUpdate)
      (hnone : p.streams.find? f.header.streamId = none)
      (h : p.nextStreamId ≤ f.header.streamId) : Violation p f .protocolError
  | dataOverConnection (ht : f.header.type = .data)
      (hnone : p.streams.find? f.header.streamId = none)
      (h : p.connectionInflow.take f.header.payloadLength = none) : Violation p f .flowControlError
  | dataOverWindow (s : Stream) (ht : f.header.type = .data)
      (hfind : p.streams.find? f.header.streamId = some s) (hopen : ¬ s.Refuses)
      (hfinal : s.finalResponseHeadersReceived = true)
      (h : InFlow.takeInflows p.connectionInflow s.inflow f.header.payloadLength = none) :
      Violation p f .flowControlError
  | headersTooLarge (s : Stream) (ht : f.header.type = .headers)
      (hfind : p.streams.find? f.header.streamId = some s) (hopen : ¬ s.Refuses)
      (hmax : 0 < p.maxHeaderListSize)
      (h : p.maxHeaderListSize < (s.pendingHeaderBlock ++ f.headerFragment).length) :
      Violation p f .enhanceYourCalm
  | headersUndecodable (s : Stream) (ht : f.header.type = .headers)
      (hfind : p.streams.find? f.header.streamId = some s) (hopen : ¬ s.Refuses)
      (hend : f.header.hasEndHeadersFlag = true)
      (h : (p.decodedBlock (s.pendingHeaderBlock ++ f.headerFragment)).2 = none) :
      Violation p f .compressionError
  | ghostHeadersUndecodable (ht : f.header.type = .headers)
      (hnone : p.streams.find? f.header.streamId = none)
      (hend : f.header.hasEndHeadersFlag = true)
      (h : (p.decodedBlock f.headerFragment).2 = none) : Violation p f .compressionError
  | unexpectedContinuation (ht : f.header.type = .continuation)
      (h : p.expectingContinuation = false ∨ p.continuationStreamId ≠ f.header.streamId) :
      Violation p f .protocolError
  | continuationTooLarge (s : Stream) (ht : f.header.type = .continuation)
      (hfind : p.streams.find? f.header.streamId = some s) (hmax : 0 < p.maxHeaderListSize)
      (h : p.maxHeaderListSize < (s.pendingHeaderBlock ++ f.data).length) :
      Violation p f .enhanceYourCalm
  | continuationUndecodable (s : Stream) (ht : f.header.type = .continuation)
      (hfind : p.streams.find? f.header.streamId = some s)
      (hend : f.header.hasEndHeadersFlag = true)
      (h : (p.decodedBlock (s.pendingHeaderBlock ++ f.data)).2 = none) :
      Violation p f .compressionError
  | ghostContinuationTooLarge (ht : f.header.type = .continuation)
      (hnone : p.streams.find? f.header.streamId = none) (hmax : 0 < p.maxHeaderListSize)
      (h : p.maxHeaderListSize < (p.ghostHeaderBlock ++ f.data).length) :
      Violation p f .enhanceYourCalm
  | ghostContinuationUndecodable (ht : f.header.type = .continuation)
      (hnone : p.streams.find? f.header.streamId = none)
      (hend : f.header.hasEndHeadersFlag = true)
      (h : (p.decodedBlock (p.ghostHeaderBlock ++ f.data)).2 = none) :
      Violation p f .compressionError
  | settings {code : ErrorCode} (ht : f.header.type = .settings)
      (hack : f.header.hasAckFlag = false)
      (h : (applyPeerSettings f.settings { p with gotPeerSettings := true }).2 = some code) :
      Violation p f code
  | pushPromise {push : PushPromiseFrame} (ht : f.header.type = .pushPromise)
      (hread : PushPromiseFrame.ofRaw f = .ok push)
      (h : push.promisedStreamId = 0 ∨ push.promisedStreamId % 2 ≠ 0 ∨
        push.promisedStreamId ≤ p.lastPeerStreamId ∨ p.enablePush = false) :
      Violation p f .protocolError
  | zeroIncrement (ht : f.header.type = .windowUpdate) (hid : f.header.streamId = 0)
      (h : f.windowIncrement = 0) : Violation p f .protocolError
  | windowOverflow (ht : f.header.type = .windowUpdate) (hid : f.header.streamId = 0)
      (h : p.connectionOutFlow.add f.windowIncrement = none) : Violation p f .flowControlError

/-- The states in which a violated connection is failed: the frame has changed neither the streams'
ids nor the members named here. -/
structure Disturbed (p p₁ : ProtocolState) : Prop where
  keys : p₁.streams.keys = p.streams.keys
  connectionInflow : p₁.connectionInflow = p.connectionInflow
  connectionOutFlow : p₁.connectionOutFlow = p.connectionOutFlow
  nextStreamId : p₁.nextStreamId = p.nextStreamId
  lastPeerStreamId : p₁.lastPeerStreamId = p.lastPeerStreamId
  started : p₁.started = p.started
  sentGoaway : p₁.sentGoaway = p.sentGoaway
  transportClosed : p₁.transportClosed = p.transportClosed
  localMaxFrameSize : p₁.localMaxFrameSize = p.localMaxFrameSize
  decodeTableLimit : p₁.hpack.decodeTableLimit = p.hpack.decodeTableLimit

theorem Disturbed.refl (p : ProtocolState) : Disturbed p p :=
  ⟨rfl, rfl, rfl, rfl, rfl, rfl, rfl, rfl, rfl, rfl⟩

theorem Disturbed.putStream {p p₁ : ProtocolState} (h : Disturbed p p₁) (s : Stream) :
    Disturbed p (p₁.putStream s) :=
  ⟨(keys_putStream p₁ s).trans h.1, h.2, h.3, h.4, h.5, h.6, h.7, h.8, h.9, h.10⟩

theorem Disturbed.afterDecode {p p₁ : ProtocolState} (h : Disturbed p p₁) (id : StreamId)
    (block : Bytes) : Disturbed p (p₁.afterDecode id block) :=
  ⟨h.1, h.2, h.3, h.4, h.5, h.6, h.7, h.8, h.9, h.10⟩

theorem Tuned.disturbed {p p₁ : ProtocolState} (h : Tuned p p₁) : Disturbed p p₁ := by
  refine ⟨h.streams.1, ?_, ?_, ?_, ?_, ?_, ?_, ?_, ?_, h.decodeTableLimit⟩ <;> rw [h.eq]

/-! ## The cases -/

/-- Frames that are answered or reported and change nothing. -/
inductive Report (p : ProtocolState) (f : RawFrame) : ProtocolStepResult → Prop
  | priority (ht : f.header.type = .priority) : Report p f {}
  | priorityLength (ht : f.header.type = .priority) (h : f.header.payloadLength ≠ 5) :
      Report p f { outbound := [.rstStream (buildRstStreamFrame f.header.streamId .frameSizeError)] }
  | lateReset (ht : f.header.type = .rstStream) (hnone : p.streams.find? f.header.streamId = none) :
      Report p f {}
  | settingsAck (ht : f.header.type = .settings) (hack : f.header.hasAckFlag = true) :
      Report p f { events := [.settingsAckReceived] }
  | pushPromise (ht : f.header.type = .pushPromise) (promisedStreamId : StreamId) :
      Report p f { events := [.pushPromiseReceived f.header.streamId promisedStreamId] }
  | pingAck (ht : f.header.type = .ping) (hack : f.header.hasAckFlag = true) :
      Report p f { events := [.pingAckReceived f.data] }
  | ping (ht : f.header.type = .ping) (hack : f.header.hasAckFlag = false) (frame : PingFrame)
      (hid : frame.header.streamId = 0) :
      Report p f { outbound := [.ping frame], events := [.pingReceived f.data] }
  | lateZeroWindow (ht : f.header.type = .windowUpdate) (hid : f.header.streamId ≠ 0)
      (hnone : p.streams.find? f.header.streamId = none) : Report p f {}
  | lateWindow (ht : f.header.type = .windowUpdate) (hid : f.header.streamId ≠ 0)
      (hnone : p.streams.find? f.header.streamId = none) :
      Report p f { events := [.windowUpdateReceived f.header.streamId f.windowIncrement] }
  | unknown {code : UInt8} (ht : f.header.type = .other code) :
      Report p f { events := [.unknownFrameReceived (.other code) f.header.streamId f.header.flags
        f.data] }

/-- What a received frame does to a connection. -/
inductive FrameStep (p : ProtocolState) (f : RawFrame) :
    ProtocolState → ProtocolStepResult → Prop
  | reported {r : ProtocolStepResult} (h : Report p f r) : FrameStep p f p r
  | connectionFailed {p₁ : ProtocolState} {pre : ProtocolStepResult} {code : ErrorCode}
      {text ghost : Bytes} (hv : Violation p f code) (hd : Disturbed p p₁)
      (hpre : pre = {} ∨ ∃ promised, pre =
        { events := [.pushPromiseReceived f.header.streamId promised] }) :
      FrameStep p f (p₁.failedState code text ghost) (pre.merge (p₁.connectionFailure code text))
  | dataRefused (s : Stream) {code : ErrorCode} (ht : f.header.type = .data)
      (hfind : p.streams.find? f.header.streamId = some s)
      (h : s.Refuses ∧ code = .streamClosed ∨
        s.finalResponseHeadersReceived = false ∧ code = .protocolError) :
      FrameStep p f (p.removeStream s) (p.streamFailure f.header.streamId code true)
  | dataOnRemoved {inflow : InFlow} (ht : f.header.type = .data)
      (hnone : p.streams.find? f.header.streamId = none)
      (hid : ¬ p.NeverOpened f.header.streamId)
      (htake : p.connectionInflow.take f.header.payloadLength = some inflow) :
      FrameStep p f { p with connectionInflow := (inflow.add f.header.payloadLength).2 }
        { outbound := refreshFrames 0 (inflow.add f.header.payloadLength).1 }
  | dataOnBodiless (s : Stream) {conn inflow : InFlow} (ht : f.header.type = .data)
      (hfind : p.streams.find? f.header.streamId = some s) (hopen : ¬ s.Refuses)
      (hfinal : s.finalResponseHeadersReceived = true)
      (htake : InFlow.takeInflows p.connectionInflow s.inflow f.header.payloadLength =
        some (conn, inflow))
      (hdata : f.dataFragment ≠ []) (hno : s.expectsNoBody = .ok true) :
      FrameStep p f ({ p with connectionInflow := conn }.removeStream s)
        (p.streamFailure f.header.streamId .protocolError true)
  | dataStored (s : Stream) {conn inflow : InFlow} {p' : ProtocolState} {r : ProtocolStepResult}
      (ht : f.header.type = .data) (hfind : p.streams.find? f.header.streamId = some s)
      (hopen : ¬ s.Refuses) (hfinal : s.finalResponseHeadersReceived = true)
      (htake : InFlow.takeInflows p.connectionInflow s.inflow f.header.payloadLength =
        some (conn, inflow))
      (hbody : f.dataFragment = [] ∨ s.expectsNoBody = .ok false)
      (hend : Ending { p with connectionInflow := (conn.add f.header.payloadLength).2 }
        (s.withData (inflow.add f.header.payloadLength).2 f.dataFragment)
        f.header.hasEndStreamFlag p' r) :
      FrameStep p f p' (ProtocolStepResult.merge
        { outbound := refreshFrames 0 (conn.add f.header.payloadLength).1 ++
            refreshFrames f.header.streamId (inflow.add f.header.payloadLength).1 } r)
  | headersRefused (s : Stream) (ht : f.header.type = .headers)
      (hfind : p.streams.find? f.header.streamId = some s) (h : s.Refuses) :
      FrameStep p f (p.removeStream s) (p.streamFailure f.header.streamId .streamClosed true)
  | ghostHeaders {headers : List HeaderField} (ht : f.header.type = .headers)
      (hnone : p.streams.find? f.header.streamId = none)
      (hid : ¬ p.NeverOpened f.header.streamId) (hend : f.header.hasEndHeadersFlag = true)
      (hd : (p.decodedBlock f.headerFragment).2 = some headers) :
      FrameStep p f (p.afterDecode f.header.streamId f.headerFragment) {}
  | ghostHeadersOpen (ht : f.header.type = .headers)
      (hnone : p.streams.find? f.header.streamId = none)
      (hid : ¬ p.NeverOpened f.header.streamId) (hend : f.header.hasEndHeadersFlag = false) :
      FrameStep p f { p with
        ghostHeaderBlock := f.headerFragment
        expectingContinuation := true
        continuationStreamId := f.header.streamId } {}
  | headersOpen (s : Stream) (ht : f.header.type = .headers)
      (hfind : p.streams.find? f.header.streamId = some s) (hopen : ¬ s.Refuses)
      (hend : f.header.hasEndHeadersFlag = false) :
      FrameStep p f ({ p with
        expectingContinuation := true
        continuationStreamId := f.header.streamId }.putStream
          (s.openBlock f.headerFragment f.header.hasEndStreamFlag)) {}
  | headersBlock (s : Stream) {p' : ProtocolState} {r : ProtocolStepResult}
      (ht : f.header.type = .headers) (hfind : p.streams.find? f.header.streamId = some s)
      (hopen : ¬ s.Refuses) (hend : f.header.hasEndHeadersFlag = true)
      (h : BlockStep p (s.withFragment f.headerFragment) f.header.hasEndStreamFlag p' r) :
      FrameStep p f p' r
  | streamReset (s : Stream) (code : ErrorCode) (ht : f.header.type = .rstStream)
      (hfind : p.streams.find? f.header.streamId = some s) :
      FrameStep p f (p.removeStream s) (ProtocolStepResult.merge
        { events := [.streamResetReceived f.header.streamId code] }
        (p.streamFailure f.header.streamId code false))
  | settingsApplied {p₁ p' : ProtocolState} {r : ProtocolStepResult}
      (ht : f.header.type = .settings) (hack : f.header.hasAckFlag = false)
      (h : applyPeerSettings f.settings { p with gotPeerSettings := true } = (p₁, none))
      (hbodies : BodySteps p₁.streams.keys p₁ p' r) :
      FrameStep p f p' (r.merge
        { outbound := [.settings settingsAck], events := [.settingsReceived] })
  | goAway {code : ErrorCode} {data ghost : Bytes} (ht : f.header.type = .goAway)
      (hghost : (∀ s ∈ p.streams.entries, s.waitingForContinuation = false) →
        ghost = p.ghostHeaderBlock) :
      FrameStep p f { p with
          receivedGoaway := true
          streams := p.streams.eraseAll
            (p.streams.keys.filter fun id => f.goAwayLastStreamId < id)
          ghostHeaderBlock := ghost }
        { events := .goAwayReceived f.goAwayLastStreamId code data ::
            (p.streams.keys.filter fun id => f.goAwayLastStreamId < id).flatMap
              (failureEvents code) }
  | connectionWindow {outflow : OutFlow} {p' : ProtocolState} {r : ProtocolStepResult}
      (ht : f.header.type = .windowUpdate) (hid : f.header.streamId = 0)
      (hadd : p.connectionOutFlow.add f.windowIncrement = some outflow)
      (hbodies : BodySteps p.streams.keys { p with connectionOutFlow := outflow } p' r) :
      FrameStep p f p' (ProtocolStepResult.merge
        { events := [.windowUpdateReceived 0 f.windowIncrement] } r)
  | windowRefused (s : Stream) {code : ErrorCode} (ht : f.header.type = .windowUpdate)
      (hid : f.header.streamId ≠ 0) (hfind : p.streams.find? f.header.streamId = some s)
      (h : f.windowIncrement = 0 ∨ s.outflow.add f.windowIncrement = none) :
      FrameStep p f (p.removeStream s) (p.streamFailure f.header.streamId code true)
  | streamWindow (s : Stream) {outflow : OutFlow} {p' : ProtocolState} {r : ProtocolStepResult}
      (ht : f.header.type = .windowUpdate) (hid : f.header.streamId ≠ 0)
      (hfind : p.streams.find? f.header.streamId = some s)
      (hadd : s.outflow.add f.windowIncrement = some outflow)
      (hbody : BodyStep (p.putStream (s.withOutflow outflow)) (s.withOutflow outflow) p' r) :
      FrameStep p f p' (ProtocolStepResult.merge
        { events := [.windowUpdateReceived f.header.streamId f.windowIncrement] } r)
  | ghostContinuationOpen (ht : f.header.type = .continuation)
      (hexp : p.expectingContinuation = true) (hid : p.continuationStreamId = f.header.streamId)
      (hnone : p.streams.find? f.header.streamId = none)
      (hend : f.header.hasEndHeadersFlag = false) :
      FrameStep p f { p with ghostHeaderBlock := p.ghostHeaderBlock ++ f.data } {}
  | ghostContinuation {headers : List HeaderField} (ht : f.header.type = .continuation)
      (hexp : p.expectingContinuation = true) (hid : p.continuationStreamId = f.header.streamId)
      (hnone : p.streams.find? f.header.streamId = none)
      (hend : f.header.hasEndHeadersFlag = true)
      (hd : (p.decodedBlock (p.ghostHeaderBlock ++ f.data)).2 = some headers) :
      FrameStep p f { p.afterDecode f.header.streamId (p.ghostHeaderBlock ++ f.data) with
        expectingContinuation := false
        continuationStreamId := 0
        ghostHeaderBlock := [] } {}
  | continuationOpen (s : Stream) (ht : f.header.type = .continuation)
      (hexp : p.expectingContinuation = true) (hid : p.continuationStreamId = f.header.streamId)
      (hfind : p.streams.find? f.header.streamId = some s)
      (hend : f.header.hasEndHeadersFlag = false) :
      FrameStep p f (p.putStream (s.withFragment f.data)) {}
  | continuationBlock (s : Stream) {p' : ProtocolState} {r : ProtocolStepResult}
      (ht : f.header.type = .continuation) (hexp : p.expectingContinuation = true)
      (hid : p.continuationStreamId = f.header.streamId)
      (hfind : p.streams.find? f.header.streamId = some s)
      (hend : f.header.hasEndHeadersFlag = true)
      (h : BlockStep { p with expectingContinuation := false, continuationStreamId := 0 }
        (s.endBlock f.data) s.pendingHeaderEndStream p' r) :
      FrameStep p f p' r

end ProtocolState

end Chttp2
