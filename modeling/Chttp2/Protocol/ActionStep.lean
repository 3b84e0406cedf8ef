import Chttp2.Protocol.FrameCases

/-!
# The cases of a step

`ActionStep` extends `FrameStep` to all steps of a connection, and `act_cases` shows that every step
of a sound connection is one of its cases.
-/

set_option autoImplicit false

namespace Chttp2

namespace ProtocolState

/-! ## Opening a stream -/

/-- The state of `openStream` when the HEADERS frame is written. -/
def opening (p : ProtocolState) (request : Request) (rehash : Reorder Stream) : ProtocolState :=
  { p with
    nextStreamId := p.nextStreamId + 2
    streams := p.streams.insert rehash (p.newStream request)
    hpack := (p.hpack.encode (buildRequestHeaderFields request)).2 }

/-- The frames of the request headers. -/
def requestHeaderFrames (p : ProtocolState) (request : Request) : List OutboundBuffer :=
  (p.emitRequestHeaders (p.newStream request)
    (p.hpack.encode (buildRequestHeaderFields request)).1).2

/-- The request headers carry END_STREAM. -/
def headersEndStream (p : ProtocolState) (request : Request) : Bool :=
  (p.emitRequestHeaders (p.newStream request)
    (p.hpack.encode (buildRequestHeaderFields request)).1).1.localEndStreamSent

/-- The stream of a request whose headers have been written. -/
def openedStream (p : ProtocolState) (request : Request) : Stream :=
  { p.newStream request with
    localEndStreamSent := p.headersEndStream request
    requestStarted := true
    streamState := if p.headersEndStream request then .halfClosedLocal else .open }

variable {p : ProtocolState} {request : Request} {rehash : Reorder Stream}

/-- Lookup after a stream has been opened. -/
theorem find?_opening (p : ProtocolState) (request : Request) (rehash : Reorder Stream)
    (k : StreamId) :
    ((p.opening request rehash).putStream (p.openedStream request)).streams.find? k =
      if k = p.nextStreamId then some (p.openedStream request) else p.streams.find? k := by
  have hkey : (p.openedStream request).streamId ∈ (p.opening request rehash).streams.keys :=
    KeyedTable.mem_keys_insert.2 (Or.inl rfl)
  rw [find?_putStream hkey]
  have hid : (p.openedStream request).streamId = p.nextStreamId := rfl
  rw [hid]
  by_cases hk : k = p.nextStreamId
  · rw [if_pos hk, if_pos hk]
  · rw [if_neg hk, if_neg hk, opening, KeyedTable.find?_insert, if_neg (by exact hk)]

theorem mem_opening {s : Stream}
    (h : s ∈ ((p.opening request rehash).putStream (p.openedStream request)).streams.entries) :
    s = p.openedStream request ∨ s ∈ p.streams.entries := by
  rw [KeyedTable.mem_iff_find?, find?_opening] at h
  split at h
  · cases h
    exact Or.inl rfl
  · exact Or.inr (KeyedTable.mem_of_find? h)

theorem plain_emitContinuations (maxFrameSize : Nat) (id : StreamId) (fuel : Nat) :
    ∀ span, Plain (emitContinuations maxFrameSize id fuel span) := by
  induction fuel with
  | zero => exact fun _ => .nil
  | succ fuel ih =>
    intro span
    simp only [emitContinuations]
    split
    · exact .nil
    · exact .cons rfl (fun _ => rfl) (ih _)

/-- Request headers are neither DATA nor WINDOW_UPDATE frames. -/
theorem plain_requestHeaderFrames (p : ProtocolState) (request : Request) :
    Plain (p.requestHeaderFrames request) :=
  .cons rfl (fun _ => rfl) (plain_emitContinuations _ _ _ _)

/-- Writing the headers changes nothing on the stream besides its END_STREAM mark. -/
theorem emitRequestHeaders_fst (p : ProtocolState) (s : Stream) (encoded : Bytes) :
    (p.emitRequestHeaders s encoded).1 =
      { s with localEndStreamSent := (p.emitRequestHeaders s encoded).1.localEndStreamSent } := by
  simp only [emitRequestHeaders]
  split <;> rfl

theorem openStream_eq (p : ProtocolState) (request : Request) (rehash : Reorder Stream) :
    ∃ p' r, p.openStream request rehash = .ok (p',
        { outbound := p.requestHeaderFrames request ++ r.outbound
          events := .streamOpened p.nextStreamId :: r.events
          submittedStreamId := some p.nextStreamId }) ∧
      BodyStep ((p.opening request rehash).putStream (p.openedStream request))
        (p.openedStream request) p' r := by
  obtain ⟨p', r, heq, hbody⟩ := ((p.opening request rehash).putStream
    (p.openedStream request)).emitPendingRequestBody_eq (p.openedStream request)
  refine ⟨p', r, ?_, hbody⟩
  have hstream : ((p.opening request rehash).emitRequestHeaders (p.newStream request)
      (p.hpack.encode (buildRequestHeaderFields request)).1).1 =
        { p.newStream request with localEndStreamSent := p.headersEndStream request } :=
    p.emitRequestHeaders_fst (p.newStream request) _
  have hopened : ({ ((p.opening request rehash).emitRequestHeaders (p.newStream request)
        (p.hpack.encode (buildRequestHeaderFields request)).1).1 with
      requestStarted := true
      streamState :=
        if ((p.opening request rehash).emitRequestHeaders (p.newStream request)
            (p.hpack.encode (buildRequestHeaderFields request)).1).1.localEndStreamSent then
          .halfClosedLocal
        else .open } : Stream) = p.openedStream request := by
    simp only [hstream, openedStream]
  rw [← hopened] at heq
  exact congrArg (fun x : Step => x >>= fun y => .ok (y.1,
    ({ outbound := p.requestHeaderFrames request ++ y.2.outbound
       events := .streamOpened p.nextStreamId :: y.2.events
       submittedStreamId := some p.nextStreamId } : ProtocolStepResult))) heq

/-! ## All steps -/

/-- The state of a connection that its owner has closed, up to the orphaned header block. -/
def closedState (p : ProtocolState) (ghost : Bytes) : ProtocolState :=
  { p with sentGoaway := true, streams := .empty, ghostHeaderBlock := ghost, closed := true }

/-- The state of a connection that has lost its transport, up to the orphaned header block. -/
def lostState (p : ProtocolState) (ghost : Bytes) : ProtocolState :=
  { p with transportClosed := true, streams := .empty, ghostHeaderBlock := ghost, closed := true }

/-- The result of closing a connection that is not closed. -/
def closeResult (p : ProtocolState) : ProtocolStepResult where
  outbound := if !p.sentGoaway then [.goAway (buildGoAwayFrame p .noError [])] else []
  events :=
    (if !p.sentGoaway then [.goAwaySent p.lastPeerStreamId .noError []] else []) ++
      p.streams.keys.flatMap (failureEvents .cancel) ++ [.connectionClosed .noError]

theorem closeResult_outbound (p : ProtocolState) :
    p.closeResult.outbound = [] ∨
      p.closeResult.outbound = [.goAway (buildGoAwayFrame p .noError [])] :=
  (ite_eq_or_eq _ _ _).symm

/-- What a step does to a connection. -/
inductive ActionStep (p : ProtocolState) : Action → ProtocolState → ProtocolStepResult → Prop
  | startedAgain (h : p.started = true) :
      ActionStep p .start p { events := [.connectionError .protocolError] }
  | started (h : p.started = false) :
      ActionStep p .start
        { p with sentConnectionPreface := true, sentLocalSettings := true, started := true }
        { outbound := [.preface, .settings p.buildLocalSettingsFrame]
          events := [.connectionStarted] }
  | refused (request : Request) (rehash : Reorder Stream) (code : ErrorCode) :
      ActionStep p (.submitRequest request rehash) p { events := [.responseFailed 0 code] }
  | opened (request : Request) (rehash : Reorder Stream) {p' : ProtocolState}
      {r : ProtocolStepResult} (hcan : p.canSubmitRequests = true)
      (hvalid : request.isValid = true) (hroom : p.streams.size < p.maxConcurrentStreams)
      (hpos : p.nextStreamId ≠ 0) (hmax : p.nextStreamId ≤ 0x7fffffff - 1)
      (hbody : BodyStep ((p.opening request rehash).putStream (p.openedStream request))
        (p.openedStream request) p' r) :
      ActionStep p (.submitRequest request rehash) p'
        { outbound := p.requestHeaderFrames request ++ r.outbound
          events := .streamOpened p.nextStreamId :: r.events
          submittedStreamId := some p.nextStreamId }
  | cancelIgnored (id : StreamId) (code : ErrorCode)
      (h : p.closed = true ∨ p.streams.find? id = none) :
      ActionStep p (.cancelStream id code) p {}
  | cancelled (id : StreamId) (code : ErrorCode) (s : Stream) (hopen : p.closed = false)
      (hfind : p.streams.find? id = some s) :
      ActionStep p (.cancelStream id code) (p.removeStream s) (p.streamFailure id code true)
  | pingIgnored (h : p.closed = true ∨ p.started = false) : ActionStep p .sendPing p {}
  | pinged (frame : PingFrame) (hid : frame.header.streamId = 0) (hopen : p.closed = false)
      (hstarted : p.started = true) :
      ActionStep p .sendPing { p with pingCounter := p.pingCounter + 1 }
        { outbound := [.ping frame] }
  | closedAgain (h : p.closed = true) : ActionStep p .close p {}
  | closed {ghost : Bytes} (hopen : p.closed = false) :
      ActionStep p .close (p.closedState ghost) p.closeResult
  | transportLost {ghost : Bytes} (hopen : p.closed = false) :
      ActionStep p .onTransportClosed (p.lostState ghost)
        { events := p.streams.keys.flatMap (failureEvents .cancel) ++
            [.transportClosed, .connectionClosed p.connectionErrorCode] }
  | transportLostAgain (h : p.closed = true) :
      ActionStep p .onTransportClosed { p with transportClosed := true, closed := true }
        { events := [.transportClosed, .connectionClosed p.connectionErrorCode] }
  | frameIgnored (f : RawFrame) (h : p.closed = true ∨ p.transportClosed = true) :
      ActionStep p (.receiveFrame f) p {}
  | frame (f : RawFrame) {p' : ProtocolState} {r : ProtocolStepResult} (hopen : p.closed = false)
      (hup : p.transportClosed = false) (h : FrameStep p f p' r)
      (hnext : p.expectingContinuation = true → f.header.type ≠ .continuation →
        p'.closed = true) :
      ActionStep p (.receiveFrame f) p' r

/-- A step takes one of the ways of `ActionStep`, or a header buffer could not grow. -/
def Acted (p : ProtocolState) (a : Action) (x : Step) : Prop :=
  (∃ p' r, x = .ok (p', r) ∧ ActionStep p a p' r) ∨ ∃ e, x = .error e ∧ e.Overgrown

theorem Acted.of_step {a : Action} {p' : ProtocolState} {r : ProtocolStepResult}
    (h : ActionStep p a p' r) : Acted p a (.ok (p', r)) :=
  Or.inl ⟨p', r, rfl, h⟩

theorem acted_submitRequest (p : ProtocolState) (request : Request) (rehash : Reorder Stream) :
    Acted p (.submitRequest request rehash) (p.submitRequest request rehash) := by
  unfold submitRequest
  by_cases hcan : p.canSubmitRequests = true
  · rw [if_neg (by simp [hcan])]
    by_cases hvalid : request.isValid = true
    · rw [if_neg (by simp [hvalid])]
      by_cases hroom : p.streams.size ≥ p.maxConcurrentStreams
      · rw [if_pos hroom]
        exact .of_step (.refused request rehash .refusedStream)
      rw [if_neg hroom]
      by_cases hid : p.nextStreamId = 0 ∨ p.nextStreamId > 0x7fffffff - 1
      · rw [if_pos hid]
        exact .of_step (.refused request rehash .refusedStream)
      rw [if_neg hid]
      obtain ⟨p', r, heq, hbody⟩ := p.openStream_eq request rehash
      rw [heq]
      exact .of_step (.opened request rehash hcan hvalid (not_le.1 hroom)
        (fun h => hid (Or.inl h)) (not_lt.1 fun h => hid (Or.inr h)) hbody)
    · rw [if_pos (by simpa using hvalid)]
      exact .of_step (.refused request rehash .protocolError)
  · rw [if_pos (by simpa using hcan)]
    exact .of_step (.refused request rehash .refusedStream)

theorem acted_cancelStream (p : ProtocolState) (id : StreamId) (code : ErrorCode) :
    Acted p (.cancelStream id code) (.ok (p.cancelStream id code)) := by
  unfold cancelStream
  by_cases hclosed : p.closed = true
  · rw [if_pos hclosed]
    exact .of_step (.cancelIgnored id code (Or.inl hclosed))
  rw [if_neg hclosed]
  cases hfind : p.streams.find? id with
  | none =>
    rw [failStream_of_none hfind]
    exact .of_step (.cancelIgnored id code (Or.inr hfind))
  | some s =>
    rw [failStream_eq hfind]
    exact .of_step (.cancelled id code s (by simpa using hclosed) hfind)

theorem acted_close (p : ProtocolState) : Acted p .close (.ok p.close) := by
  unfold close
  by_cases hclosed : p.closed = true
  · rw [if_pos hclosed]
    exact .of_step (.closedAgain hclosed)
  rw [if_neg hclosed]
  obtain ⟨ghost, heq⟩ := failAllStreams_eq { p with sentGoaway := true } .cancel
    (if !p.sentGoaway then
      { outbound := [.goAway (buildGoAwayFrame p .noError [])]
        events := [.goAwaySent (buildGoAwayFrame p .noError []).lastStreamId .noError []] }
    else {})
  dsimp only
  rw [heq]
  refine Or.inl ⟨p.closedState ghost, p.closeResult, ?_, .closed (by simpa using hclosed)⟩
  unfold closeResult
  cases p.sentGoaway <;> rfl

theorem acted_onTransportClosed (p : ProtocolState) :
    Acted p .onTransportClosed (.ok p.onTransportClosed) := by
  unfold onTransportClosed
  by_cases hclosed : p.closed = true
  · simp only [hclosed, Bool.not_true, Bool.false_eq_true, if_false]
    exact .of_step (.transportLostAgain hclosed)
  · have hopen : p.closed = false := by simpa using hclosed
    obtain ⟨ghost, heq⟩ := failAllStreams_eq { p with transportClosed := true } .cancel {}
    simp only [hopen, Bool.not_false, if_true]
    rw [← hopen, heq]
    exact .of_step (.transportLost (by simpa using hclosed))

/-- Every step of a sound connection takes one of the ways of `ActionStep`, unless a header block
has grown beyond what its buffer can hold. -/
theorem act_cases (hp : p.Sound) (a : Action) : Acted p a (p.act a) := by
  cases a with
  | start =>
    simp only [act, start]
    by_cases h : p.started = true
    · rw [if_pos h]
      exact .of_step (.startedAgain h)
    · rw [if_neg h]
      exact .of_step (.started (by simpa using h))
  | submitRequest request rehash => exact p.acted_submitRequest request rehash
  | receiveFrame f =>
    simp only [act]
    by_cases hclosed : (p.closed || p.transportClosed) = true
    · rw [if_pos hclosed]
      exact .of_step (.frameIgnored f (by simpa using hclosed))
    · rw [if_neg hclosed]
      have h : p.closed = false ∧ p.transportClosed = false := by simpa using hclosed
      rcases receiveFrame_cases hp f with ⟨p', r, heq, hstep⟩ | ⟨e, heq, he⟩
      · rw [heq]
        exact .of_step (.frame f h.1 h.2 hstep fun hexp ht => closed_of_interrupting hexp ht heq)
      · exact Or.inr ⟨e, heq, he⟩
  | cancelStream id code => exact p.acted_cancelStream id code
  | sendPing =>
    simp only [act, sendPing]
    by_cases h : (p.closed || !p.started) = true
    · rw [if_pos h]
      exact .of_step (.pingIgnored (by simpa using h))
    · rw [if_neg h]
      have h' : p.closed = false ∧ p.started = true := by simpa using h
      exact .of_step (.pinged _ rfl h'.1 h'.2)
  | close => exact p.acted_close
  | onTransportClosed => exact p.acted_onTransportClosed

end ProtocolState

end Chttp2
