import Chttp2.Protocol.FrameFormat
import Chttp2.Protocol.StreamTable
import Chttp2.Protocol.Twins

/-!
# Reset and a new object

`Http2Protocol.call` adds `reset` to the operations of the owner, and `observe` is what a sequence
of calls shows: the bytes of the outbound buffers, without the counters of PING frames, and the
events.

`reset` names every member but the PING counter and the orphaned header block. Twins are observed
alike (`observe_of_alike`), so that the counter makes no difference. The block does: a header block
on a stream that is cancelled before any of its bytes has arrived is continued in the bytes of the
old connection (`Awaiting.receive_oneByte`). `reset_forgets_iff` puts both halves together, for all
orders in which the table of streams may be iterated.
-/

set_option autoImplicit false

namespace Chttp2

/-- The buffer without the counter that a PING of the client carries. -/
def OutboundBuffer.hideCounter : OutboundBuffer → OutboundBuffer
  | .ping f => if f.header.hasAckFlag then .ping f else .ping { f with data := toBigEndian 8 0 }
  | b => b

/-- What the owner sees of a result: the bytes of the buffers, without PING counters, and the
events. -/
def ProtocolStepResult.shown (r : ProtocolStepResult) : List Bytes × List ProtocolEvent :=
  (r.outbound.map fun b => b.hideCounter.toBytes, r.events)

namespace Http2Protocol

/-- `reset`. -/
def reset (p : Http2Protocol) : Http2Protocol := { state := p.state.reset }

/-- The operations of the owner, and `reset`. -/
inductive Call where
  | op (op : Op)
  | reset

/-- An operation of the object, or `reset`. -/
def call (p : Http2Protocol) : Call → Guarded (Http2Protocol × ProtocolStepResult)
  | .op op => p.apply op
  | .reset => .ok (p.reset, {})

/-- What the calls show, one after the other. -/
def observe : Http2Protocol → List Call → List (Guarded (List Bytes × List ProtocolEvent)) :=
  Machine.observe call ProtocolStepResult.shown

/-- The same call, up to the iteration order of the table of streams after an insertion. -/
inductive Call.Reordered : Call → Call → Prop where
  | same (c : Call) : Reordered c c
  | submitRequest (request : Request) (σ τ : Reorder Stream) :
      Reordered (.op (.submitRequest request σ)) (.op (.submitRequest request τ))

/-- The calls show this in some iteration order of the table of streams. Which order it is depends
on the bucket array of the table, and `streams.clear()` keeps the one of the old connection. -/
def MayShow (p : Http2Protocol) (calls : List Call)
    (shown : List (Guarded (List Bytes × List ProtocolEvent))) : Prop :=
  ∃ calls', List.Forall₂ Call.Reordered calls calls' ∧ p.observe calls' = shown

end Http2Protocol

/-! ## Twins are observed alike -/

namespace ProtocolState

section Local

variable {p q : ProtocolState}

theorem Alike.shown {r r' : ProtocolStepResult} (h : Alike True r r') : r'.shown = r.shown := by
  rw [ProtocolStepResult.shown, h.outbound trivial, h.events]
  rfl

/-- The results show the same, and the states are twins. -/
def ShownAlike (a b : ProtocolState × ProtocolStepResult) : Prop :=
  Twin True a.1 b.1 ∧ b.2.shown = a.2.shown

theorem TwinResult.shownAlike {a b : ProtocolState × ProtocolStepResult} (h : TwinResult True a b) :
    ShownAlike a b :=
  ⟨h.1, h.2.shown⟩

theorem twin_start (h : Twin True p q) : TwinResult True p.start q.start := by
  obtain ⟨x, rfl, hx⟩ := h
  unfold start
  apply twin_ite
  · intro _
    exact ⟨⟨x, rfl, hx⟩, .refl _ _⟩
  · intro _
    refine ⟨⟨x, rfl, hx⟩, ?_⟩
    -- two limits are members of `Side` and announced by the SETTINGS frame
    have hframe : (p.beside x).buildLocalSettingsFrame = p.buildLocalSettingsFrame := by
      unfold buildLocalSettingsFrame
      rw [show (p.beside x).maxConcurrentStreams = p.maxConcurrentStreams from
          (hx.same trivial).2.1,
        show (p.beside x).maxHeaderListSize = p.maxHeaderListSize from (hx.same trivial).2.2]
      rfl
    rw [hframe]
    exact .refl _ _

theorem agree_openStream (h : Twin True p q) (request : Request) (rehash : Reorder Stream) :
    Agree (TwinResult True) (p.openStream request rehash) (q.openStream request rehash) := by
  -- the last lines, after the header frames have been cut
  have htail : ∀ (a b : ProtocolState) (s : Stream) (frames : List OutboundBuffer) (id : StreamId),
      Twin True a b →
        Agree (TwinResult True)
          (a.emitPendingRequestBody s >>= fun x =>
            (pure (x.1, { outbound := frames ++ x.2.outbound
                          events := .streamOpened id :: x.2.events
                          submittedStreamId := some id }) : Step))
          (b.emitPendingRequestBody s >>= fun x =>
            (pure (x.1, { outbound := frames ++ x.2.outbound
                          events := .streamOpened id :: x.2.events
                          submittedStreamId := some id }) : Step)) := by
    intro a b s frames id hab
    refine .bind (agree_emitPendingRequestBody hab s) fun c d hcd => ⟨hcd.1, ?_⟩
    rw [hcd.2.events, hcd.2.outbound trivial]
    exact .refl _ _
  obtain ⟨x, rfl, hx⟩ := h
  unfold openStream
  rw [show (p.beside x).newStream request = p.newStream request from rfl,
    show (p.beside x).hpack = p.hpack from rfl]
  obtain ⟨encoded, hpack⟩ := p.hpack.encode (buildRequestHeaderFields request)
  dsimp only
  -- the header frames are cut to the frame size, which is the same
  have hheaders : emitRequestHeaders { p.beside x with
        nextStreamId := (p.beside x).nextStreamId + 2
        streams := (p.beside x).streams.insert rehash (p.newStream request), hpack }
          (p.newStream request) encoded =
      emitRequestHeaders { p with
        nextStreamId := p.nextStreamId + 2
        streams := p.streams.insert rehash (p.newStream request), hpack }
          (p.newStream request) encoded := by
    unfold emitRequestHeaders
    dsimp only
    rw [show (p.beside x).maxFrameSize = p.maxFrameSize from (hx.same trivial).1]
  rw [hheaders]
  exact htail _ _ _ _ _ ⟨x, rfl, hx⟩

theorem agree_submitRequest (h : Twin True p q) (request : Request) (rehash : Reorder Stream) :
    Agree (TwinResult True) (p.submitRequest request rehash) (q.submitRequest request rehash) := by
  have hopen := agree_openStream h request rehash
  obtain ⟨x, rfl, hx⟩ := h
  unfold submitRequest
  rw [show (p.beside x).maxConcurrentStreams = p.maxConcurrentStreams from (hx.same trivial).2.1]
  -- the checks read members that twins share
  apply Agree.ite
  · intro _
    exact ⟨⟨x, rfl, hx⟩, .refl _ _⟩
  intro _
  apply Agree.ite
  · intro _
    exact ⟨⟨x, rfl, hx⟩, .refl _ _⟩
  intro _
  apply Agree.ite
  · intro _
    exact ⟨⟨x, rfl, hx⟩, .refl _ _⟩
  intro _
  apply Agree.ite
  · intro _
    exact ⟨⟨x, rfl, hx⟩, .refl _ _⟩
  · intro _
    exact hopen

theorem twin_cancelStream (h : Twin True p q) (id : StreamId) (code : ErrorCode) :
    TwinResult True (p.cancelStream id code) (q.cancelStream id code) := by
  have hfail := twin_failStream h id code true
  obtain ⟨x, rfl, hx⟩ := h
  unfold cancelStream
  exact twin_ite (fun _ => ⟨⟨x, rfl, hx⟩, .refl _ _⟩) fun _ => hfail

/-- The counter of a PING is not shown. -/
theorem shown_ping {header : FrameHeader} (h : header.hasAckFlag = false) (data : Bytes) :
    ({ outbound := [.ping { header, data }] } : ProtocolStepResult).shown =
      ([(OutboundBuffer.ping { header, data := toBigEndian 8 0 }).toBytes], []) := by
  simp [ProtocolStepResult.shown, OutboundBuffer.hideCounter, h]

theorem shownAlike_sendPing (h : Twin True p q) : ShownAlike p.sendPing q.sendPing := by
  obtain ⟨x, rfl, hx⟩ := h
  unfold sendPing
  rw [show (p.beside x).closed = p.closed from rfl, show (p.beside x).started = p.started from rfl]
  split
  · exact ⟨⟨x, rfl, hx⟩, rfl⟩
  · have hack : ({ type := .ping, streamId := 0, payloadLength := 8 } : FrameHeader).hasAckFlag =
        false := by decide
    refine ⟨⟨{ x with pingCounter := x.pingCounter + 1 }, rfl, hx.pos, hx.pos', hx.same⟩, ?_⟩
    exact (shown_ping hack _).trans (shown_ping hack _).symm

theorem twin_close (h : Twin True p q) : TwinResult True p.close q.close := by
  obtain ⟨x, rfl, hx⟩ := h
  unfold close
  apply twin_ite
  · intro _
    exact ⟨⟨x, rfl, hx⟩, .refl _ _⟩
  · intro _
    have hall := twin_failAllStreams (p := { p with sentGoaway := true })
      (q := { p.beside x with sentGoaway := true }) ⟨x, rfl, hx⟩
      (.refl True (if !p.sentGoaway then
        { outbound := [.goAway (buildGoAwayFrame p .noError [])]
          events := [.goAwaySent (buildGoAwayFrame p .noError []).lastStreamId .noError []] }
      else {})) .cancel
    obtain ⟨⟨y, hq, hy⟩, halike⟩ := hall
    refine ⟨⟨y, ?_, hy⟩, halike.merge (.refl _ _)⟩
    exact congrArg (fun p : ProtocolState => { p with closed := true }) hq

theorem twin_onTransportClosed (h : Twin True p q) :
    TwinResult True p.onTransportClosed q.onTransportClosed := by
  have hend : ∀ a b : ProtocolState × ProtocolStepResult, TwinResult True a b →
      TwinResult True
        ({ a.1 with closed := true },
          a.2.merge { events := [.transportClosed, .connectionClosed a.1.connectionErrorCode] })
        ({ b.1 with closed := true },
          b.2.merge
            { events := [.transportClosed, .connectionClosed b.1.connectionErrorCode] }) := by
    rintro ⟨a, r⟩ ⟨b, r'⟩ ⟨⟨y, hb, hy⟩, halike⟩
    dsimp only at hb
    rw [hb]
    exact ⟨⟨y, rfl, hy⟩, halike.merge (.refl _ _)⟩
  obtain ⟨x, rfl, hx⟩ := h
  have hlost : TwinResult True
      (if !p.closed then { p with transportClosed := true }.failAllStreams .cancel {}
        else ({ p with transportClosed := true }, {}))
      (if !p.closed then { p.beside x with transportClosed := true }.failAllStreams .cancel {}
        else ({ p.beside x with transportClosed := true }, {})) := by
    apply twin_ite
    · intro _
      exact twin_failAllStreams (p := { p with transportClosed := true }) ⟨x, rfl, hx⟩
        (.refl _ _) _
    · intro _
      exact ⟨⟨x, rfl, hx⟩, .refl _ _⟩
  exact hend _ _ hlost

end Local

end ProtocolState

namespace Http2Protocol

open ProtocolState

/-- The codecs are equal and the states are twins. -/
def Alike (p q : Http2Protocol) : Prop := q.frameCodec = p.frameCodec ∧ Twin True p.state q.state

/-- The results show the same, and the protocols are alike. -/
def ShownAlike (a b : Http2Protocol × ProtocolStepResult) : Prop :=
  Alike a.1 b.1 ∧ b.2.shown = a.2.shown

variable {p q : Http2Protocol}

theorem Twin.closed {framed : Prop} {p q : ProtocolState} (h : Twin framed p q) :
    q.closed = p.closed := by
  obtain ⟨x, rfl, -⟩ := h
  rfl

theorem agree_receiveFrames (fuel : Nat) :
    ∀ p q : Http2Protocol, p.Alike q →
      Agree (fun a b => Alike a.1 b.1 ∧ ProtocolState.Alike True a.2 b.2)
        (receiveFrames fuel p) (receiveFrames fuel q) := by
  induction fuel with
  | zero => exact fun p q h => ⟨h, .refl _ _⟩
  | succ fuel ih =>
    rintro ⟨codec, p⟩ ⟨codec', q⟩ ⟨hcodec, htwin⟩
    dsimp only at hcodec htwin
    subst hcodec
    unfold receiveFrames
    -- both codecs cut the same frame
    refine .bind_same _ fun popped _ => ?_
    cases popped with
    | none => exact ⟨⟨rfl, htwin⟩, .refl _ _⟩
    | some next =>
      obtain ⟨frame, codec⟩ := next
      refine .bind (agree_receiveFrame htwin (htwin.judgeAlike frame)) ?_
      rintro ⟨p', r⟩ ⟨q', r'⟩ ⟨htwin', halike⟩
      dsimp only
      rw [Twin.closed htwin']
      apply Agree.ite
      · intro _
        exact ⟨⟨rfl, htwin'⟩, halike⟩
      · intro _
        refine .bind (ih ⟨codec, p'⟩ ⟨codec, q'⟩ ⟨rfl, htwin'⟩) fun a b hab => ?_
        exact ⟨hab.1, halike.merge hab.2⟩

theorem agree_receiveBytes (h : p.Alike q) (data : Bytes) :
    Agree (fun a b => Alike a.1 b.1 ∧ ProtocolState.Alike True a.2 b.2)
      (p.receiveBytes data) (q.receiveBytes data) := by
  obtain ⟨codec, p⟩ := p
  obtain ⟨codec', q⟩ := q
  obtain ⟨hcodec, x, hq, hx⟩ := h
  dsimp only at hcodec hq hx
  subst hcodec hq
  unfold receiveBytes
  apply Agree.ite
  · intro _
    exact ⟨⟨rfl, x, rfl, hx⟩, .refl _ _⟩
  · intro _
    exact agree_receiveFrames _ _ _ ⟨rfl, x, rfl, hx⟩

theorem agree_lift (hcodec : q.frameCodec = p.frameCodec) {x y : Step}
    (h : Agree ProtocolState.ShownAlike x y) : Agree ShownAlike (p.lift x) (q.lift y) := by
  unfold lift
  exact .bind h fun a b hab => ⟨⟨hcodec, hab.1⟩, hab.2⟩

theorem agree_apply (h : p.Alike q) (op : Op) : Agree ShownAlike (p.apply op) (q.apply op) := by
  cases op with
  | start => exact agree_lift h.1 (twin_start h.2).shownAlike
  | submitRequest request rehash =>
    refine agree_lift h.1 ?_
    exact (agree_submitRequest h.2 request rehash).mono fun _ _ => TwinResult.shownAlike
  | receiveBytes data =>
    exact (agree_receiveBytes h data).mono fun _ _ hab => ⟨hab.1, hab.2.shown⟩
  | cancelStream id code => exact agree_lift h.1 (twin_cancelStream h.2 id code).shownAlike
  | sendPing => exact agree_lift h.1 (shownAlike_sendPing h.2)
  | close => exact agree_lift h.1 (twin_close h.2).shownAlike
  | onTransportClosed => exact agree_lift h.1 (twin_onTransportClosed h.2).shownAlike

theorem Alike.reset (h : p.Alike q) : p.reset.Alike q.reset := by
  obtain ⟨codec, p⟩ := p
  obtain ⟨codec', q⟩ := q
  obtain ⟨-, x, hq, -⟩ := h
  dsimp only at hq
  subst hq
  -- `reset` brings the limits of the peer back to their defaults
  exact ⟨rfl, ⟨Http2SettingInfo.defaultMaxFrameSize, Http2SettingInfo.defaultMaxConcurrentStreams,
    Http2SettingInfo.defaultMaxHeaderListSize, x.pingCounter, x.decodeLog⟩, rfl,
    (by decide : 0 < 16384), (by decide : 0 < 16384), fun _ => ⟨rfl, rfl, rfl⟩⟩

theorem agree_call (h : p.Alike q) (c : Call) : Agree ShownAlike (p.call c) (q.call c) := by
  cases c with
  | op op => exact agree_apply h op
  | reset => exact ⟨h.reset, rfl⟩

/-- No calls tell protocols apart whose states are twins. -/
theorem observe_of_alike (h : p.Alike q) (calls : List Call) :
    q.observe calls = p.observe calls := by
  refine (Machine.observe_eq (R := Alike) (fun p q c h => ?_) calls h).symm
  exact (agree_call h c).mono fun a b hab => ⟨hab.1, hab.2.symm⟩

end Http2Protocol

/-! ## The orphaned block -/

namespace ProtocolState

/-- The state with another orphaned header block. -/
def haunt (p : ProtocolState) (g : Bytes) : ProtocolState := { p with ghostHeaderBlock := g }

/-- The same result, and the state with another orphaned block. -/
def Haunts (g : Bytes) (a b : ProtocolState × ProtocolStepResult) : Prop :=
  b.1 = a.1.haunt g ∧ b.2 = a.2

theorem haunts_emitPendingRequestBody (p : ProtocolState) (g : Bytes) (s : Stream) :
    Agree (Haunts g) (p.emitPendingRequestBody s) ((p.haunt g).emitPendingRequestBody s) := by
  unfold emitPendingRequestBody
  apply Agree.ite
  · intro _
    exact ⟨rfl, rfl⟩
  intro _
  refine .bind_same _ fun sent _ => ?_
  obtain ⟨s', conn, frames⟩ := sent
  apply Agree.ite
  · intro _
    exact .ite (fun _ => ⟨rfl, rfl⟩) fun _ => ⟨rfl, rfl⟩
  · intro _
    exact ⟨rfl, rfl⟩

/-- A request is submitted without a look at the orphaned block. -/
theorem haunts_submitRequest (p : ProtocolState) (g : Bytes) (request : Request)
    (rehash : Reorder Stream) :
    Agree (Haunts g) (p.submitRequest request rehash)
      ((p.haunt g).submitRequest request rehash) := by
  unfold submitRequest
  apply Agree.ite
  · intro _
    exact ⟨rfl, rfl⟩
  intro _
  apply Agree.ite
  · intro _
    exact ⟨rfl, rfl⟩
  intro _
  apply Agree.ite
  · intro _
    exact ⟨rfl, rfl⟩
  intro _
  apply Agree.ite
  · intro _
    exact ⟨rfl, rfl⟩
  intro _
  unfold openStream
  refine .bind (haunts_emitPendingRequestBody _ g _) fun a b hab => ⟨hab.1, ?_⟩
  rw [hab.2]
  rfl

theorem submitRequest_haunt {p p' : ProtocolState} {r : ProtocolStepResult} {request : Request}
    {rehash : Reorder Stream} (h : p.submitRequest request rehash = .ok (p', r)) (g : Bytes) :
    (p.haunt g).submitRequest request rehash = .ok (p'.haunt g, r) := by
  have hagree := haunts_submitRequest p g request rehash
  rw [h] at hagree
  cases hq : (p.haunt g).submitRequest request rehash with
  | error e =>
    rw [hq] at hagree
    exact hagree.elim
  | ok x =>
    rw [hq] at hagree
    exact congrArg _ (Prod.ext hagree.1 hagree.2)

/-- HEADERS on stream 1 with an empty fragment and without END_HEADERS. -/
def emptyFragmentFrame : RawFrame :=
  .ofPayload { type := .headers, streamId := 1 } [] length_nil_lt first_streamId_lt

/-- CONTINUATION on stream 1 with one byte and without END_HEADERS. -/
def oneByteContinuation : RawFrame :=
  .ofPayload { type := .continuation, streamId := 1 } [0x88] length_okBlock_lt first_streamId_lt

/-- A limit of one byte on header lists is accepted from the peer. -/
theorem receive_headerListLimit {p : ProtocolState} (hstreams : p.streams = .empty)
    (hexp : p.expectingContinuation = false) (hmax : 6 ≤ p.localMaxFrameSize) :
    p.receiveFrame (settingsFrame 6 1) =
      .ok ({ p with gotPeerSettings := true, maxHeaderListSize := 1 },
        { outbound := [.settings settingsAck], events := [.settingsReceived] }) := by
  have hread : SettingFrame.ofRaw (settingsFrame 6 1) =
      .ok ⟨(settingsFrame 6 1).header, [(6, 1)]⟩ := by decide +kernel
  have htype : (settingsFrame 6 1).header.type = .settings := rfl
  have hlen : ¬ (settingsFrame 6 1).header.payloadLength > p.localMaxFrameSize := not_lt.2 hmax
  unfold receiveFrame
  rw [if_neg (by simp [htype]), if_neg hlen, if_neg (by simp [hexp])]
  show p.processSettingFrame (settingsFrame 6 1) = _
  unfold processSettingFrame
  rw [if_neg (by decide), if_neg (by decide), if_neg (by decide), hread]
  -- there is no stream whose body could be sent
  show (emitPendingBodies p.streams.keys _ >>= _) = _
  rw [hstreams]
  rfl

/-- A connection with stream 1 that waits for the peer, which has limited header lists to a byte. -/
structure Awaiting (p : ProtocolState) (s : Stream) : Prop where
  closed : p.closed = false
  transportClosed : p.transportClosed = false
  gotPeerSettings : p.gotPeerSettings = true
  expectingContinuation : p.expectingContinuation = false
  localMaxFrameSize : 0 < p.localMaxFrameSize
  maxHeaderListSize : p.maxHeaderListSize = 1
  find : p.streams.find? 1 = some s
  isClosed : s.isClosed = false
  remoteEndStreamReceived : s.remoteEndStreamReceived = false
  pendingHeaderBlock : s.pendingHeaderBlock = []

/-- The state after HEADERS without a byte of its block. -/
def blockBegun (p : ProtocolState) (s : Stream) : ProtocolState :=
  { p with expectingContinuation := true, continuationStreamId := s.streamId }.putStream
    { s with
      waitingForContinuation := true, pendingHeaderEndStream := false, pendingHeaderBlock := [] }

theorem Awaiting.receive_emptyFragment {p : ProtocolState} {s : Stream} (h : Awaiting p s) :
    p.act (.receiveFrame emptyFragmentFrame) = .ok (p.blockBegun s, {}) := by
  have hid : s.streamId = 1 := KeyedTable.key_of_find? h.find
  have hread : HeadersFrame.ofRaw emptyFragmentFrame =
      .ok { header := emptyFragmentFrame.header, data := [] } := by decide +kernel
  have hpad : validatePaddedPayload emptyFragmentFrame
      (if emptyFragmentFrame.header.hasAnyFlag .priority then 5 else 0) = .ok none := by
    decide +kernel
  have hlen : ¬ emptyFragmentFrame.header.payloadLength > p.localMaxFrameSize := Nat.not_lt_zero _
  have hend : emptyFragmentFrame.header.hasEndHeadersFlag = false := by decide
  have hlive : (s.isClosed || s.remoteEndStreamReceived) = false := by
    rw [h.isClosed, h.remoteEndStreamReceived]
    rfl
  have happend : ByteBuffer.append s.pendingHeaderBlock [] = .ok [] := by
    rw [h.pendingHeaderBlock]
    rfl
  unfold act
  dsimp only
  rw [h.closed, h.transportClosed, Bool.or_self, if_neg Bool.false_ne_true]
  unfold receiveFrame
  rw [h.gotPeerSettings, h.expectingContinuation, Bool.not_true, Bool.false_and,
    if_neg Bool.false_ne_true, if_neg hlen]
  show p.processHeadersFrame emptyFragmentFrame = _
  unfold processHeadersFrame
  rw [if_neg (by decide)]
  dsimp only
  rw [hpad]
  simp only [ok_bind, hread]
  rw [show emptyFragmentFrame.header.streamId = 1 from rfl, h.find]
  dsimp only
  rw [hlive, if_neg Bool.false_ne_true, happend, ok_bind, if_neg (by simp), hend, Bool.not_false,
    if_pos rfl]
  -- the record is put into the table twice
  have hset := p.streams.set_set (a := { s with pendingHeaderBlock := [] })
    (b := { s with
      waitingForContinuation := true
      pendingHeaderEndStream := false
      pendingHeaderBlock := [] }) rfl
  exact congrArg (fun streams : StreamTable => (Except.ok ({ p with
    streams, expectingContinuation := true, continuationStreamId := s.streamId }, {}) : Step)) hset

/-- The state after the stream has been cancelled. -/
def cancelled (p : ProtocolState) (s : Stream) : ProtocolState :=
  { p with
    streams := p.streams.erase s.streamId
    expectingContinuation := true
    continuationStreamId := s.streamId }

/-- A cancelled stream hands over its part of a header block only if there is one. -/
theorem Awaiting.cancel {p : ProtocolState} {s : Stream} (h : Awaiting p s) :
    (p.blockBegun s).act (.cancelStream 1 .cancel) = .ok (p.cancelled s,
      { outbound := [.rstStream (buildRstStreamFrame 1 .cancel)]
        events := [.streamClosed 1 .cancel, .responseFailed 1 .cancel] }) := by
  have hid : s.streamId = 1 := KeyedTable.key_of_find? h.find
  generalize hu : { s with
      waitingForContinuation := true
      pendingHeaderEndStream := false
      pendingHeaderBlock := [] } = u
  have huid : u.streamId = s.streamId := by rw [← hu]
  have hpending : u.pendingHeaderBlock = [] := by rw [← hu]
  have hsend : (true && !p.closed && !p.transportClosed) = true := by
    rw [h.closed, h.transportClosed]
    rfl
  have hbegun : p.blockBegun s = { p with
      streams := p.streams.set u
      expectingContinuation := true
      continuationStreamId := s.streamId } := by
    rw [← hu]
    rfl
  have hfind : (p.streams.set u).find? 1 = some u := by
    rw [KeyedTable.find?_set_of_find? h.find (huid.trans hid), if_pos rfl]
  have herase : (p.streams.set u).erase 1 = p.streams.erase s.streamId := by
    rw [← hid, ← huid]
    exact KeyedTable.erase_set _ _
  rw [hbegun]
  unfold act cancelStream failStream
  dsimp only
  rw [hfind, if_neg (by rw [h.closed]; exact Bool.false_ne_true)]
  dsimp only
  rw [herase, hpending, if_pos hsend, if_neg (by simp)]
  rfl

/-- A byte of CONTINUATION is kept silently if and only if no other byte came before it. -/
theorem Awaiting.receive_oneByte {p : ProtocolState} {s : Stream} (h : Awaiting p s) :
    (∃ p' r, (p.cancelled s).act (.receiveFrame oneByteContinuation) = .ok (p', r) ∧
      r.shown = ([], [])) ↔ p.ghostHeaderBlock = [] := by
  have hid : s.streamId = 1 := KeyedTable.key_of_find? h.find
  have hact : (p.cancelled s).act (.receiveFrame oneByteContinuation) =
      (p.cancelled s).processGhostContinuation (ContinuationFrame.ofRaw oneByteContinuation) := by
    have hlen : ¬ oneByteContinuation.header.payloadLength > p.localMaxFrameSize :=
      not_lt.2 h.localMaxFrameSize
    have hnone : (p.streams.erase s.streamId).find? 1 = none := by
      rw [hid]
      exact KeyedTable.find?_erase_self _ _
    have htype : oneByteContinuation.header.type = .continuation := rfl
    have hstream : oneByteContinuation.header.streamId = 1 := rfl
    unfold act cancelled
    dsimp only
    rw [h.closed, h.transportClosed, Bool.or_self, if_neg Bool.false_ne_true]
    unfold receiveFrame
    dsimp only
    rw [h.gotPeerSettings, Bool.not_true, Bool.false_and, if_neg Bool.false_ne_true, if_neg hlen,
      if_neg (by simp [htype])]
    show processContinuationFrame _ oneByteContinuation = _
    unfold processContinuationFrame
    dsimp only
    rw [if_neg (by decide), if_neg (by simp [hid, hstream]), hstream, hnone]
  rw [hact]
  unfold processGhostContinuation
  constructor
  · intro hsilent
    by_contra hghost
    obtain ⟨p', r, hstep, hshown⟩ := hsilent
    have hpos : 0 < p.ghostHeaderBlock.length := List.length_pos_iff.2 hghost
    cases happend : ByteBuffer.append (p.cancelled s).ghostHeaderBlock
        (ContinuationFrame.ofRaw oneByteContinuation).data with
    | error e =>
      rw [happend] at hstep
      cases hstep
    | ok out =>
      have hout : out = p.ghostHeaderBlock ++ [0x88] := (ByteBuffer.append_eq_ok.1 happend).1
      have hlong : (decide ((p.cancelled s).maxHeaderListSize > 0) &&
          decide (out.length > (p.cancelled s).maxHeaderListSize)) = true := by
        rw [show (p.cancelled s).maxHeaderListSize = 1 from h.maxHeaderListSize, hout,
          List.length_append]
        simpa using hpos
      rw [happend, ok_bind, if_pos hlong] at hstep
      -- a connection error is reported
      obtain ⟨ghost, hfail⟩ := failConnection_eq { p.cancelled s with ghostHeaderBlock := [] }
        .enhanceYourCalm "header block too large"
      rw [hfail] at hstep
      cases hstep
      have hevents := (Prod.mk.inj hshown).2
      simp [connectionFailure] at hevents
  · intro hghost
    have happend : ByteBuffer.append (p.cancelled s).ghostHeaderBlock
        (ContinuationFrame.ofRaw oneByteContinuation).data = .ok [0x88] := by
      rw [show (p.cancelled s).ghostHeaderBlock = [] from hghost]
      rfl
    have hshort : (decide ((p.cancelled s).maxHeaderListSize > 0) &&
        decide (([0x88] : Bytes).length > (p.cancelled s).maxHeaderListSize)) = false := by
      rw [show (p.cancelled s).maxHeaderListSize = 1 from h.maxHeaderListSize]
      rfl
    refine ⟨{ p.cancelled s with ghostHeaderBlock := [0x88] }, {}, ?_, rfl⟩
    rw [happend, ok_bind, hshort, if_neg Bool.false_ne_true, if_pos (by decide)]
    rfl

/-- The steps up to the last one: a stream is opened and cancelled in the middle of its headers. -/
def interruption (rehash : Reorder Stream) : List Action :=
  [.start, .receiveFrame (settingsFrame 6 1), .submitRequest getRequest rehash,
    .receiveFrame emptyFragmentFrame, .cancelStream 1 .cancel]

theorem Awaiting.haunt {p : ProtocolState} {s : Stream} (h : Awaiting p s) (g : Bytes) :
    Awaiting (p.haunt g) s :=
  ⟨h.closed, h.transportClosed, h.gotPeerSettings, h.expectingContinuation, h.localMaxFrameSize,
    h.maxHeaderListSize, h.find, h.isClosed, h.remoteEndStreamReceived, h.pendingHeaderBlock⟩

/-- A new connection whose peer has limited header lists to a byte. -/
def limited : ProtocolState :=
  { ({} : ProtocolState).start.1 with gotPeerSettings := true, maxHeaderListSize := 1 }

/-- The connection with the first request, before a byte of its response has arrived. -/
theorem exists_awaiting :
    ∃ (p : ProtocolState) (s : Stream) (r : ProtocolStepResult), Awaiting p s ∧
      limited.submitRequest getRequest (.id _) = .ok (p, r) := by
  have hrun : (limited.submitRequest getRequest (.id _)).map
        (fun x => (
          [x.1.closed, x.1.transportClosed, x.1.gotPeerSettings, x.1.expectingContinuation],
          [x.1.localMaxFrameSize, x.1.maxHeaderListSize], (x.1.streams.find? 1).map fun s =>
            ([s.isClosed, s.remoteEndStreamReceived], s.pendingHeaderBlock))) =
      .ok ([false, false, true, false], [16384, 1], some ([false, false], [])) := by decide +kernel
  cases hsubmit : limited.submitRequest getRequest (.id _) with
  | error e =>
    rw [hsubmit] at hrun
    cases hrun
  | ok x =>
    obtain ⟨p, r⟩ := x
    rw [hsubmit] at hrun
    simp only [Except.map, Except.ok.injEq, Prod.mk.injEq, List.cons.injEq, and_true,
      Option.map_eq_some_iff] at hrun
    obtain ⟨⟨hclosed, hlink, hgot, hexp⟩, ⟨hmax, hlimit⟩, s, hfind, ⟨hlive, hremote⟩, hpending⟩ :=
      hrun
    refine ⟨p, s, r, ⟨hclosed, hlink, hgot, hexp, ?_, hlimit, hfind, hlive, hremote, hpending⟩, rfl⟩
    rw [hmax]
    decide

/-- The first stream has no other one to be reordered with. -/
theorem submitRequest_reordered {p : ProtocolState} (hstreams : p.streams = .empty)
    (request : Request) (σ τ : Reorder Stream) :
    p.submitRequest request σ = p.submitRequest request τ := by
  have hopen : p.openStream request σ = p.openStream request τ := by
    simp only [openStream, hstreams, KeyedTable.insert_empty σ τ]
  unfold submitRequest
  rw [hopen]

/-- What the interruption does on a new connection, whatever the orphaned block is. -/
theorem exists_interruption :
    ∃ p s, Awaiting p s ∧ ∃ shown : List (List Bytes × List ProtocolEvent),
      ∀ g rehash, ∃ tr,
        Machine.run act (haunt {} g) (interruption rehash) = .ok ((p.haunt g).cancelled s, tr) ∧
          tr.map (fun e => e.output.shown) = shown := by
  obtain ⟨p, s, r, hp, hsubmit⟩ := exists_awaiting
  refine ⟨p, s, hp, [({} : ProtocolState).start.2.shown,
    ([settingsAck.toBytes], [.settingsReceived]), r.shown, ([], []),
    ([(buildRstStreamFrame 1 .cancel).toBytes],
      [.streamClosed 1 .cancel, .responseFailed 1 .cancel])], fun g rehash => ?_⟩
  -- the steps before the response never look at the block
  have hstart : (haunt {} g).act .start =
      .ok (({} : ProtocolState).start.1.haunt g, ({} : ProtocolState).start.2) := rfl
  have hsettings : (({} : ProtocolState).start.1.haunt g).act (.receiveFrame (settingsFrame 6 1)) =
      .ok (limited.haunt g,
        { outbound := [.settings settingsAck], events := [.settingsReceived] }) :=
    receive_headerListLimit (p := ({} : ProtocolState).start.1.haunt g) rfl rfl
      (by decide : 6 ≤ 16384)
  have hsubmit' : (limited.haunt g).act (.submitRequest getRequest rehash) =
      .ok (p.haunt g, r) := by
    show (limited.haunt g).submitRequest getRequest rehash = _
    rw [submitRequest_reordered rfl getRequest rehash (.id _)]
    exact submitRequest_haunt hsubmit g
  have hfragment := (hp.haunt g).receive_emptyFragment
  have hcancel := (hp.haunt g).cancel
  simp only [interruption, Machine.run, hstart, hsettings, hsubmit', hfragment, hcancel]
  exact ⟨_, rfl, rfl⟩

end ProtocolState

namespace Http2Protocol

open ProtocolState

/-- The call behind a step; a frame arrives in a chunk of its own. -/
def callOf : Action → Call
  | .start => .op .start
  | .submitRequest request rehash => .op (.submitRequest request rehash)
  | .receiveFrame frame => .op (.receiveBytes frame.toBytes)
  | .cancelStream id code => .op (.cancelStream id code)
  | .sendPing => .op .sendPing
  | .close => .op .close
  | .onTransportClosed => .op .onTransportClosed

/-- The type of a received frame is one that a byte encodes. -/
def FromBytes (a : Action) : Prop := ∀ f, a = .receiveFrame f → f.header.type.Canonical

theorem receiveBytes_toBytes (p : ProtocolState) {f : RawFrame} (hf : f.header.type.Canonical) :
    receiveBytes { state := p } f.toBytes =
      (p.act (.receiveFrame f)).map fun x => ({ state := x.1 }, x.2) := by
  have hpop : FrameCodec.tryPop { buffer := f.toBytes } = .ok (some (f, {})) := by
    have h := FrameCodec.tryPop_toBytes hf []
    rwa [List.append_nil] at h
  have hempty : FrameCodec.tryPop {} = .ok none := by decide
  -- the bytes of a frame start with its header, so that the loop makes a round
  obtain ⟨n, hn⟩ : ∃ n, f.toBytes.length = n + 1 := by
    refine Nat.exists_eq_succ_of_ne_zero ?_
    rw [RawFrame.toBytes, List.length_append, f.header.length_encode]
    exact Nat.ne_of_gt (Nat.add_pos_left (by decide) _)
  unfold receiveBytes act
  dsimp only
  by_cases hc : (p.closed || p.transportClosed) = true
  · rw [if_pos hc, if_pos hc]
    rfl
  rw [if_neg hc, if_neg hc]
  show receiveFrames f.toBytes.length ⟨⟨f.toBytes⟩, p⟩ = _
  rw [hn]
  unfold receiveFrames
  rw [hpop, ok_bind]
  dsimp only
  cases p.receiveFrame f with
  | error e => rfl
  | ok x =>
    obtain ⟨p', r⟩ := x
    rw [ok_bind]
    dsimp only
    split
    · rfl
    -- nothing is left in the codec
    have hrest : receiveFrames n ⟨{}, p'⟩ = .ok (⟨{}, p'⟩, {}) := by
      cases n with
      | zero => rfl
      | succ n =>
        unfold receiveFrames
        rw [hempty]
        rfl
    rw [hrest, ok_bind, ProtocolStepResult.merge_nil]
    rfl

theorem call_callOf (p : ProtocolState) {a : Action} (ha : FromBytes a) :
    call { state := p } (callOf a) = (p.act a).map fun x => ({ state := x.1 }, x.2) := by
  cases a with
  | receiveFrame f => exact receiveBytes_toBytes p (ha f rfl)
  | submitRequest request rehash =>
    show lift _ (p.submitRequest request rehash) = (p.submitRequest request rehash).map _
    cases p.submitRequest request rehash <;> rfl
  | _ => rfl

/-- Steps are observed as their results show. -/
theorem observe_callOf (as : List Action) (has : ∀ a ∈ as, FromBytes a) :
    ∀ p : ProtocolState, observe { state := p } (as.map callOf) =
      Machine.observe act ProtocolStepResult.shown p as := by
  induction as with
  | nil => exact fun _ => rfl
  | cons a as ih =>
    intro p
    have hrest := ih fun b hb => has b (List.mem_cons_of_mem _ hb)
    have hone := call_callOf p (has a (by simp))
    unfold observe at hrest ⊢
    simp only [List.map_cons, Machine.observe, hone]
    cases p.act a with
    | error e => rfl
    | ok x => exact congrArg (_ :: ·) (hrest x.1)

/-- The calls that tell a stale block from none. -/
def resumption (rehash : Reorder Stream) : List Call :=
  (interruption rehash ++ [Action.receiveFrame oneByteContinuation]).map callOf

/-- The order is left open at one of the calls. -/
theorem eq_resumption_of_reordered {σ : Reorder Stream} {calls : List Call}
    (h : List.Forall₂ Call.Reordered (resumption σ) calls) : ∃ τ, calls = resumption τ := by
  obtain - | ⟨⟨⟩, h⟩ := h
  obtain - | ⟨⟨⟩, h⟩ := h
  obtain - | ⟨hsubmit, h⟩ := h
  obtain - | ⟨⟨⟩, h⟩ := h
  obtain - | ⟨⟨⟩, h⟩ := h
  obtain - | ⟨⟨⟩, ⟨⟩⟩ := h
  cases hsubmit with
  | same => exact ⟨σ, rfl⟩
  | submitRequest request σ τ => exact ⟨τ, rfl⟩

theorem observe_resumption :
    ∃ p s, Awaiting p s ∧ ∃ before : List (Guarded (List Bytes × List ProtocolEvent)),
      ∀ g rehash, observe { state := haunt {} g } (resumption rehash) =
        before ++ Machine.observe act ProtocolStepResult.shown ((p.haunt g).cancelled s)
          [.receiveFrame oneByteContinuation] := by
  obtain ⟨p, s, hp, shown, hrun⟩ := exists_interruption
  refine ⟨p, s, hp, shown.map .ok, fun g rehash => ?_⟩
  have hbytes : ∀ a ∈ interruption rehash ++ [.receiveFrame oneByteContinuation], FromBytes a := by
    intro a ha f hf
    subst hf
    simp only [interruption, List.cons_append, List.nil_append, List.mem_cons,
      Action.receiveFrame.injEq, reduceCtorEq, List.not_mem_nil, false_or, or_false] at ha
    rcases ha with rfl | rfl | rfl
    all_goals rfl
  obtain ⟨tr, hfirst, hshown⟩ := hrun g rehash
  rw [resumption, observe_callOf _ hbytes, Machine.observe_append _ hfirst, ← hshown, List.map_map]
  rfl

/-- The counter and the record of decoded blocks make no difference. -/
theorem alike_reset (s : Http2Protocol) :
    Alike { state := haunt {} s.state.ghostHeaderBlock } s.reset :=
  ⟨rfl, ⟨Http2SettingInfo.defaultMaxFrameSize, Http2SettingInfo.defaultMaxConcurrentStreams,
    Http2SettingInfo.defaultMaxHeaderListSize, s.state.pingCounter, s.state.decodeLog⟩, rfl,
    (by decide : 0 < 16384), (by decide : 0 < 16384), fun _ => ⟨rfl, rfl, rfl⟩⟩

/-- With an orphaned block, `reset` does not lead back to a new object, in whatever order the tables
are iterated. -/
theorem observe_resumption_ne {s : Http2Protocol} (h : s.state.ghostHeaderBlock ≠ [])
    (σ τ : Reorder Stream) : s.reset.observe (resumption σ) ≠ observe {} (resumption τ) := by
  obtain ⟨p, u, hp, before, hobserve⟩ := observe_resumption
  have hfresh : observe {} (resumption τ) = observe { state := haunt {} [] } (resumption τ) := rfl
  rw [observe_of_alike s.alike_reset, hfresh, hobserve, hobserve]
  intro heq
  have hlast := List.append_cancel_left heq
  obtain ⟨p', r, hstep, hr⟩ := (hp.haunt []).receive_oneByte.2 rfl
  simp only [Machine.observe, hstep] at hlast
  -- a new object keeps silent, so that the other one would have to
  refine h ((hp.haunt s.state.ghostHeaderBlock).receive_oneByte.1 ?_)
  cases hstale : ((p.haunt s.state.ghostHeaderBlock).cancelled u).act
      (.receiveFrame oneByteContinuation) with
  | error e =>
    rw [hstale] at hlast
    cases hlast
  | ok x =>
    rw [hstale] at hlast
    exact ⟨x.1, x.2, rfl, (Except.ok.inj (List.singleton_inj.1 hlast)).trans hr⟩

theorem observe_reset {s : Http2Protocol} (h : s.state.ghostHeaderBlock = []) (calls : List Call) :
    s.reset.observe calls = observe {} calls := by
  have halike := s.alike_reset
  rw [h] at halike
  exact observe_of_alike halike calls

/-- A new object shows one thing on these calls, and the object after `reset` another. -/
theorem not_mayShow_resumption {s : Http2Protocol} (h : s.state.ghostHeaderBlock ≠ [])
    (rehash : Reorder Stream) : ¬ MayShow {} (resumption rehash)
      (s.reset.observe (resumption rehash)) := by
  rintro ⟨calls, hcalls, heq⟩
  obtain ⟨τ, rfl⟩ := eq_resumption_of_reordered hcalls
  exact observe_resumption_ne h rehash τ heq.symm

/-- After `reset` any calls may show just what they may show on a new object, up to the counter in
PING frames, if and only if no orphaned part of a header block was left. In one run the two may
still iterate over their streams in different orders (`MayShow`); where the orders agree, they show
the same (`observe_reset`). -/
theorem reset_forgets_iff (s : Http2Protocol) :
    (∀ calls shown, s.reset.MayShow calls shown ↔ MayShow {} calls shown) ↔
      s.state.ghostHeaderBlock = [] := by
  constructor
  · intro hall
    by_contra hghost
    refine not_mayShow_resumption hghost (.id _) ((hall _ _).1 ⟨resumption (.id _), ?_, rfl⟩)
    exact List.forall₂_same.2 fun c _ => .same c
  · rintro hghost calls shown
    simp only [MayShow, observe_reset hghost]

/-- A connection fails between HEADERS and CONTINUATION. The part of the block that has arrived is
there after `reset`, and the next connection ends with ENHANCE_YOUR_CALM where a new object waits
for the rest of the block, in whatever order it iterates over its streams. -/
theorem reset_keeps_interrupted_block :
    ∃ tr s calls, Machine.Runs call {} tr s ∧ s.state.closed = true ∧
      ¬ MayShow {} calls (s.reset.observe calls) := by
  have hrun : (Machine.run call {} (([.start, .receiveFrame emptySettingsFrame,
      .submitRequest getRequest (.id _), .receiveFrame (okResponseFrame 0),
      .receiveFrame emptySettingsFrame] : List Action).map callOf)).map
        (fun x => (x.1.state.closed, x.1.state.ghostHeaderBlock)) = .ok (true, [0x88]) := by
    decide +kernel
  obtain ⟨s, tr, hr, -, hresult⟩ := Machine.exists_runs_of_map hrun
  simp only [Prod.mk.injEq] at hresult
  refine ⟨tr, s, resumption (.id _), hr, hresult.1, not_mayShow_resumption ?_ (.id _)⟩
  rw [hresult.2]
  exact List.cons_ne_nil _ _

end Http2Protocol

end Chttp2
