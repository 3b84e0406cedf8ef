import Chttp2.Lib.Lockstep
import Chttp2.Protocol.Sound

/-!
# States that receive alike

Four members of the state decide nothing about a received frame: the frame size and the number of
streams that the peer allows, the PING counter and the record of decoded blocks. The limit on header
lists decides by its comparison with the sizes in `Checks` alone. States that differ in these five
members only are twins, and twins handle every frame alike whose sizes are judged alike
(`agree_receiveFrame`): they fail alike, or they report the same events, send the same frames up to
the division of request bodies into DATA frames, and end as twins. Where the limits of the peer
agree as well, the frames that are sent are the same; the proposition `framed` says whether they do.
-/

set_option autoImplicit false

namespace Chttp2

namespace ProtocolState

/-- The limits of the peer, and the members that no received frame depends on. -/
structure Side where
  maxFrameSize : Nat
  maxConcurrentStreams : Nat
  maxHeaderListSize : Nat
  pingCounter : Nat
  decodeLog : List DecodeCall

/-- The state with other such members. -/
def beside (p : ProtocolState) (x : Side) : ProtocolState :=
  { p with
    maxFrameSize := x.maxFrameSize
    maxConcurrentStreams := x.maxConcurrentStreams
    maxHeaderListSize := x.maxHeaderListSize
    pingCounter := x.pingCounter
    decodeLog := x.decodeLog }

/-- The limits allow to send, and agree if the frames that are sent are compared. -/
structure Side.Fits (framed : Prop) (maxFrameSize maxConcurrentStreams maxHeaderListSize : Nat)
    (x : Side) : Prop where
  pos : 0 < maxFrameSize
  pos' : 0 < x.maxFrameSize
  same : framed → x.maxFrameSize = maxFrameSize ∧
    x.maxConcurrentStreams = maxConcurrentStreams ∧ x.maxHeaderListSize = maxHeaderListSize

/-- The states differ in the members of `Side` only. -/
def Twin (framed : Prop) (p q : ProtocolState) : Prop :=
  ∃ x, q = p.beside x ∧ x.Fits framed p.maxFrameSize p.maxConcurrentStreams p.maxHeaderListSize

/-- The buffers without the DATA frames. -/
def commands (out : List OutboundBuffer) : List OutboundBuffer :=
  out.filter fun b => b.dataFrame?.isNone

/-- The results report the same, and send the same but for DATA frames. -/
structure Alike (framed : Prop) (r r' : ProtocolStepResult) : Prop where
  events : r'.events = r.events
  submittedStreamId : r'.submittedStreamId = r.submittedStreamId
  commands : commands r'.outbound = commands r.outbound
  outbound : framed → r'.outbound = r.outbound

/-- Twins with results that are alike. -/
def TwinResult (framed : Prop) (a b : ProtocolState × ProtocolStepResult) : Prop :=
  Twin framed a.1 b.1 ∧ Alike framed a.2 b.2

section Basics

variable {framed : Prop} {r r' s s' : ProtocolStepResult}

theorem Alike.refl (framed : Prop) (r : ProtocolStepResult) : Alike framed r r :=
  ⟨rfl, rfl, rfl, fun _ => rfl⟩

theorem Alike.merge (h : Alike framed r r') (hs : Alike framed s s') :
    Alike framed (r.merge s) (r'.merge s') where
  events := congrArg₂ (· ++ ·) h.events hs.events
  submittedStreamId := congrArg₂ Option.or hs.submittedStreamId h.submittedStreamId
  commands := by
    simp only [ProtocolStepResult.merge, ProtocolState.commands, List.filter_append]
    exact congrArg₂ (· ++ ·) h.commands hs.commands
  outbound hf := congrArg₂ (· ++ ·) (h.outbound hf) (hs.outbound hf)

theorem Twin.refl (framed : Prop) {p : ProtocolState} (hpos : 0 < p.maxFrameSize) :
    Twin framed p p :=
  ⟨⟨p.maxFrameSize, p.maxConcurrentStreams, p.maxHeaderListSize, p.pingCounter, p.decodeLog⟩, rfl,
    hpos, hpos, fun _ => ⟨rfl, rfl, rfl⟩⟩

theorem Twin.symm {p q : ProtocolState} (h : Twin framed p q) : Twin framed q p := by
  obtain ⟨x, rfl, hx⟩ := h
  refine ⟨⟨p.maxFrameSize, p.maxConcurrentStreams, p.maxHeaderListSize, p.pingCounter,
    p.decodeLog⟩, rfl, hx.pos', hx.pos, fun hf => ?_⟩
  exact ⟨(hx.same hf).1.symm, (hx.same hf).2.1.symm, (hx.same hf).2.2.symm⟩

theorem Twin.trans {p q q' : ProtocolState} (h : Twin framed p q) (h' : Twin framed q q') :
    Twin framed p q' := by
  obtain ⟨x, rfl, hx⟩ := h
  obtain ⟨y, rfl, hy⟩ := h'
  refine ⟨y, rfl, hx.pos, hy.pos', fun hf => ?_⟩
  obtain ⟨hframe, hconcurrent, hlist⟩ := hx.same hf
  obtain ⟨hframe', hconcurrent', hlist'⟩ := hy.same hf
  exact ⟨hframe'.trans hframe, hconcurrent'.trans hconcurrent, hlist'.trans hlist⟩

theorem Twin.streams {p q : ProtocolState} (h : Twin framed p q) : q.streams = p.streams := by
  obtain ⟨x, rfl, -⟩ := h
  rfl

theorem Twin.putStream {p q : ProtocolState} (h : Twin framed p q) (s : Stream) :
    Twin framed (p.putStream s) (q.putStream s) := by
  obtain ⟨x, rfl, hx⟩ := h
  exact ⟨x, rfl, hx⟩

theorem commands_map_data (frames : List DataFrame) : commands (frames.map .data) = [] := by
  simp [commands, OutboundBuffer.dataFrame?]

end Basics

/-! ## Failures -/

section Failures

variable {framed : Prop} {p q : ProtocolState} {r r' : ProtocolStepResult}

theorem twin_failStream (h : Twin framed p q) (id : StreamId) (code : ErrorCode) (sendRst : Bool) :
    TwinResult framed (p.failStream id code sendRst) (q.failStream id code sendRst) := by
  obtain ⟨x, rfl, hx⟩ := h
  unfold failStream
  rw [show (p.beside x).streams = p.streams from rfl]
  cases p.streams.find? id with
  | none => exact ⟨⟨x, rfl, hx⟩, .refl _ _⟩
  | some stream => exact ⟨⟨x, rfl, hx⟩, .refl _ _⟩

theorem twin_failStreams (code : ErrorCode) (ids : List StreamId) :
    ∀ {p q : ProtocolState} {r r' : ProtocolStepResult}, Twin framed p q → Alike framed r r' →
      TwinResult framed (failStreams code ids p r) (failStreams code ids q r') := by
  induction ids with
  | nil => exact fun h hr => ⟨h, hr⟩
  | cons id ids ih =>
    intro p q r r' h hr
    have hone := twin_failStream h id code false
    exact ih hone.1 (hr.merge hone.2)

theorem twin_failAllStreams (h : Twin framed p q) (hr : Alike framed r r') (code : ErrorCode) :
    TwinResult framed (p.failAllStreams code r) (q.failAllStreams code r') := by
  obtain ⟨x, rfl, hx⟩ := h
  exact twin_failStreams code p.streams.keys ⟨x, rfl, hx⟩ hr

theorem twin_failConnection (h : Twin framed p q) (code : ErrorCode) (text : String) :
    TwinResult framed (p.failConnection code text) (q.failConnection code text) := by
  obtain ⟨x, rfl, hx⟩ := h
  have hall := twin_failAllStreams
    (p := { p with
      sentGoaway := p.sentGoaway || !p.transportClosed
      connectionErrorCode := code
      connectionDebugData := ascii text
      closed := true
      expectingContinuation := false
      continuationStreamId := 0
      ghostHeaderBlock := [] }) ⟨x, rfl, hx⟩
    (.refl framed (if !p.sentGoaway && !p.transportClosed then
      { outbound := [.goAway (buildGoAwayFrame p code (ascii text))]
        events := [.goAwaySent (buildGoAwayFrame p code (ascii text)).lastStreamId code
          (ascii text)] }
      else {})) code
  exact ⟨hall.1, hall.2.merge (.refl _ _)⟩

end Failures

/-! ## Request bodies -/

section Bodies

variable {framed : Prop} {p q : ProtocolState}

theorem agree_emitPendingRequestBody (h : Twin framed p q) (s : Stream) :
    Agree (TwinResult framed) (p.emitPendingRequestBody s) (q.emitPendingRequestBody s) := by
  obtain ⟨x, rfl, hx⟩ := h
  unfold emitPendingRequestBody
  refine .ite (fun _ => ⟨⟨x, rfl, hx⟩, .refl _ _⟩) fun _ => ?_
  obtain ⟨n, frames, heq, hsent⟩ :=
    emitBodyLoop_eq p.maxFrameSize s.remainingBodySize s p.connectionOutFlow le_rfl
  obtain ⟨n', frames', heq', hsent'⟩ :=
    emitBodyLoop_eq x.maxFrameSize s.remainingBodySize s p.connectionOutFlow le_rfl
  -- the windows alone decide how much is sent
  obtain rfl : n = n' := (hsent.amount hx.pos).trans (hsent'.amount hx.pos').symm
  have hframes : framed → frames'.map OutboundBuffer.data = frames.map OutboundBuffer.data := by
    intro hf
    rw [(hx.same hf).1, heq] at heq'
    injection heq' with heq'
    exact (Prod.mk.inj (Prod.mk.inj heq').2).2.symm
  have halike : ∀ events : List ProtocolEvent,
      Alike framed { outbound := frames.map .data, events }
        { outbound := frames'.map .data, events } :=
    fun events => ⟨rfl, rfl, (commands_map_data _).trans (commands_map_data _).symm, hframes⟩
  show Agree _ (emitBodyLoop p.maxFrameSize s.remainingBodySize s p.connectionOutFlow >>= _)
    (emitBodyLoop x.maxFrameSize s.remainingBodySize s p.connectionOutFlow >>= _)
  rw [heq, heq']
  refine .ite (fun _ => ?_) fun _ => ⟨⟨x, rfl, hx⟩, halike []⟩
  exact .ite (fun _ => ⟨⟨x, rfl, hx⟩, halike _⟩) fun _ => ⟨⟨x, rfl, hx⟩, halike []⟩

theorem agree_emitPendingBodies (ids : List StreamId) :
    ∀ {p q : ProtocolState}, Twin framed p q →
      Agree (TwinResult framed) (emitPendingBodies ids p) (emitPendingBodies ids q) := by
  induction ids with
  | nil => exact fun h => ⟨h, .refl _ _⟩
  | cons id ids ih =>
    rintro p q ⟨x, rfl, hx⟩
    unfold emitPendingBodies
    rw [show (p.beside x).streams = p.streams from rfl]
    cases p.streams.find? id with
    | none => exact ih ⟨x, rfl, hx⟩
    | some s =>
      refine .bind (agree_emitPendingRequestBody ⟨x, rfl, hx⟩ s) fun a b hone => ?_
      refine .bind (ih hone.1) fun c d hmore => ?_
      exact ⟨hmore.1, hone.2.merge hmore.2⟩

end Bodies

/-! ## Checks of header blocks -/

/-- The comparison of a size with a limit on header lists; a limit of zero is none. -/
def exceeds (limit size : Nat) : Bool := limit > 0 && size > limit

/-- The frame gets past the checks of `receiveFrame`, and it is on a stream. -/
structure Dispatched (p : ProtocolState) (f : RawFrame) : Prop where
  gotPeerSettings : p.gotPeerSettings = true
  payloadLength : f.header.payloadLength ≤ p.localMaxFrameSize
  streamId : f.header.streamId ≠ 0

/-- The frame adds its bytes to a header block, which is thereby given, and whose length is checked;
it belongs to the given stream, or to a stream that is not in the table. -/
inductive Extends (p : ProtocolState) (f : RawFrame) : Option Stream → Bytes → Prop
  | headers (s : Stream) (hf : Dispatched p f) (ht : f.header.type = .headers)
      (hexp : p.expectingContinuation = false) (hpad : f.PaddingOk f.priorityPrefix)
      (hfind : p.streams.find? f.header.streamId = some s) (hopen : ¬ s.Refuses)
      (hgrow : (s.pendingHeaderBlock ++ f.headerFragment).length ≤ 2 ^ 31) :
      Extends p f (some s) (s.pendingHeaderBlock ++ f.headerFragment)
  | continuation (s : Stream) (hf : Dispatched p f) (ht : f.header.type = .continuation)
      (hexp : p.expectingContinuation = true) (hid : p.continuationStreamId = f.header.streamId)
      (hfind : p.streams.find? f.header.streamId = some s)
      (hgrow : (s.pendingHeaderBlock ++ f.data).length ≤ 2 ^ 31) :
      Extends p f (some s) (s.pendingHeaderBlock ++ f.data)
  | ghost (hf : Dispatched p f) (ht : f.header.type = .continuation)
      (hexp : p.expectingContinuation = true) (hid : p.continuationStreamId = f.header.streamId)
      (hnone : p.streams.find? f.header.streamId = none)
      (hgrow : (p.ghostHeaderBlock ++ f.data).length ≤ 2 ^ 31) :
      Extends p f none (p.ghostHeaderBlock ++ f.data)

/-- The sizes that are compared with `maxHeaderListSize` while the frame is handled: the length of
the block, and the size of the header list if a block of a stream is complete. -/
inductive Checks (p : ProtocolState) (f : RawFrame) : Nat → Prop
  | block {o : Option Stream} {block : Bytes} (h : Extends p f o block) : Checks p f block.length
  | list {s : Stream} {block : Bytes} {headers : List HeaderField} (h : Extends p f (some s) block)
      (hfits : exceeds p.maxHeaderListSize block.length = false)
      (hend : f.header.hasEndHeadersFlag = true)
      (hd : (p.decodedBlock block).2 = some headers) : Checks p f (headerListSize headers)

/-- The limits of both states judge the sizes of the frame alike. -/
def JudgeAlike (p q : ProtocolState) (f : RawFrame) : Prop :=
  ∀ size, Checks p f size → exceeds q.maxHeaderListSize size = exceeds p.maxHeaderListSize size

/-- Equal limits judge everything alike. -/
theorem Twin.judgeAlike {p q : ProtocolState} (h : Twin True p q) (f : RawFrame) :
    JudgeAlike p q f := by
  obtain ⟨x, rfl, hx⟩ := h
  intro size _
  rw [show (p.beside x).maxHeaderListSize = p.maxHeaderListSize from (hx.same trivial).2.2]

/-! ## Header blocks -/

section Blocks

variable {framed : Prop} {p q : ProtocolState}

theorem agree_finalizeRemoteStream (h : Twin framed p q) (s : Stream) :
    Agree (TwinResult framed) (p.finalizeRemoteStream s) (q.finalizeRemoteStream s) := by
  obtain ⟨x, rfl, hx⟩ := h
  unfold finalizeRemoteStream
  refine .bind_same _ fun mismatch _ => ?_
  apply Agree.ite
  · intro _
    exact twin_failStream (p := p.putStream { s with remoteEndStreamReceived := true })
      ⟨x, rfl, hx⟩ _ _ _
  · intro _
    exact .ite (fun _ => ⟨⟨x, rfl, hx⟩, .refl _ _⟩) fun _ => ⟨⟨x, rfl, hx⟩, .refl _ _⟩

theorem agree_reportHeaders (h : Twin framed p q) (s : Stream) (endStream : Bool) :
    Agree (TwinResult framed) (p.reportHeaders s endStream) (q.reportHeaders s endStream) := by
  obtain ⟨x, rfl, hx⟩ := h
  unfold reportHeaders
  apply Agree.ite
  · intro _
    refine .bind (agree_finalizeRemoteStream (p := p.putStream s) ⟨x, rfl, hx⟩ s) fun a b hab => ?_
    exact ⟨hab.1, (Alike.refl framed _).merge hab.2⟩
  · intro _
    exact ⟨⟨x, rfl, hx⟩, .refl _ _⟩

theorem agree_hpackDecode (h : Twin framed p q) (id : StreamId) (block : Bytes) :
    Agree (fun a b => Twin framed a.1 b.1 ∧ b.2 = a.2) (p.hpackDecode id block)
      (q.hpackDecode id block) := by
  obtain ⟨x, rfl, hx⟩ := h
  unfold hpackDecode
  refine .bind_same _ fun a _ => ?_
  -- both logs get the same entry
  exact ⟨⟨{ x with decodeLog := x.decodeLog ++ [⟨id, block, a.2⟩] }, rfl, hx.pos, hx.pos', hx.same⟩,
    rfl⟩

theorem agree_decodeResponseHeaders (h : Twin framed p q) (s : Stream) (endStream : Bool)
    (hlen : s.pendingHeaderBlock.length < 2 ^ 32)
    (hjudge : ∀ headers, (p.decodedBlock s.pendingHeaderBlock).2 = some headers →
      exceeds q.maxHeaderListSize (headerListSize headers) =
        exceeds p.maxHeaderListSize (headerListSize headers)) :
    Agree (fun a b => Twin framed a.1 b.1 ∧ Alike framed a.2.1 b.2.1 ∧ b.2.2 = a.2.2)
      (p.decodeResponseHeaders s endStream) (q.decodeResponseHeaders s endStream) := by
  unfold decodeResponseHeaders
  refine .bind_ok (agree_hpackDecode h _ _) ?_
  intro a b ha hb hab
  rw [hpackDecode_eq _ _ hlen] at ha hb
  cases ha
  cases hb
  obtain ⟨htwin, hfields⟩ := hab
  dsimp only at htwin hfields ⊢
  rw [hfields]
  cases hd : (p.decodedBlock s.pendingHeaderBlock).2 with
  | none => exact ⟨htwin, .refl _ _, rfl⟩
  | some headers =>
    have hsize := hjudge headers hd
    -- decoding leaves the limits alone
    have hp : (p.afterDecode s.streamId s.pendingHeaderBlock).maxHeaderListSize =
        p.maxHeaderListSize := rfl
    have hq : (q.afterDecode s.streamId s.pendingHeaderBlock).maxHeaderListSize =
        q.maxHeaderListSize := rfl
    rw [← hp, ← hq] at hsize
    revert htwin hsize
    generalize p.afterDecode s.streamId s.pendingHeaderBlock = p'
    generalize q.afterDecode s.streamId s.pendingHeaderBlock = q'
    rintro ⟨x, rfl, hx⟩ hsize
    apply Agree.ite_iff (iff_of_eq (congrArg (· = true) hsize.symm))
    · intro _
      exact ⟨⟨x, rfl, hx⟩, .refl _ _, rfl⟩
    intro _
    cases validateResponseHeaderBlock s.clearBlock headers endStream with
    | rejected code => exact ⟨⟨x, rfl, hx⟩, .refl _ _, rfl⟩
    | informational cl => exact ⟨⟨x, rfl, hx⟩, .refl _ _, rfl⟩
    | accepted cl =>
      have hreport : ∀ u : Stream, Agree
          (fun a b => Twin framed a.1 b.1 ∧ Alike framed a.2.1 b.2.1 ∧ b.2.2 = a.2.2)
          (p'.reportHeaders u endStream >>= fun a =>
            Pure.pure (a.1, a.2, (none : Option ErrorCode)))
          ((p'.beside x).reportHeaders u endStream >>= fun a => Pure.pure (a.1, a.2, none)) := by
        intro u
        refine .bind (agree_reportHeaders ⟨x, rfl, hx⟩ u endStream) fun a b hab => ?_
        exact ⟨hab.1, hab.2, rfl⟩
      apply Agree.ite
      · intro _
        exact hreport _
      intro _
      apply Agree.ite
      · intro _
        exact ⟨⟨x, rfl, hx⟩, .refl _ _, rfl⟩
      · intro _
        exact hreport _

theorem twin_ite {c : Prop} [Decidable c] {a b a' b' : ProtocolState × ProtocolStepResult}
    (hpos : c → TwinResult framed a b) (hneg : ¬ c → TwinResult framed a' b') :
    TwinResult framed (if c then a else a') (if c then b else b') := by
  split
  · exact hpos ‹_›
  · exact hneg ‹_›

theorem twin_handleHeaderBlockError (h : Twin framed p q) (id : StreamId) (code : ErrorCode) :
    TwinResult framed (p.handleHeaderBlockError id code) (q.handleHeaderBlockError id code) := by
  unfold handleHeaderBlockError
  exact twin_ite (fun _ => twin_failConnection h _ _) fun _ => twin_failStream h _ _ _

theorem agree_completeHeaderBlock (h : Twin framed p q) (s : Stream) (endStream : Bool)
    (hlen : s.pendingHeaderBlock.length < 2 ^ 32)
    (hjudge : ∀ headers, (p.decodedBlock s.pendingHeaderBlock).2 = some headers →
      exceeds q.maxHeaderListSize (headerListSize headers) =
        exceeds p.maxHeaderListSize (headerListSize headers)) :
    Agree (TwinResult framed) (p.completeHeaderBlock s endStream)
      (q.completeHeaderBlock s endStream) := by
  unfold completeHeaderBlock
  refine .bind (agree_decodeResponseHeaders h s endStream hlen hjudge) ?_
  rintro ⟨p', r, code⟩ ⟨q', r', code'⟩ ⟨htwin, halike, rfl⟩
  cases code' with
  | none => exact ⟨htwin, halike⟩
  | some code => exact twin_handleHeaderBlockError htwin s.streamId code

end Blocks

/-! ## Settings -/

section Settings

variable {framed : Prop} {p q : ProtocolState}

theorem twin_adjustWindows (delta : Int) (ids : List StreamId) :
    ∀ {p q : ProtocolState}, Twin framed p q →
      Twin framed (adjustWindows delta ids p).1 (adjustWindows delta ids q).1 ∧
        (adjustWindows delta ids q).2 = (adjustWindows delta ids p).2 := by
  induction ids with
  | nil => exact fun h => ⟨h, rfl⟩
  | cons id ids ih =>
    rintro p q ⟨x, rfl, hx⟩
    unfold adjustWindows
    rw [show (p.beside x).streams = p.streams from rfl]
    cases p.streams.find? id with
    | none => exact ih ⟨x, rfl, hx⟩
    | some s =>
      dsimp only
      cases s.outflow.add delta with
      | none => exact ⟨⟨x, rfl, hx⟩, rfl⟩
      | some outflow => exact ih ⟨x, rfl, hx⟩

theorem twin_applyPeerSetting (h : Twin framed p q) (parameter : Http2SettingParameter)
    (value : Nat) :
    Twin framed (p.applyPeerSetting parameter value).1 (q.applyPeerSetting parameter value).1 ∧
      (q.applyPeerSetting parameter value).2 = (p.applyPeerSetting parameter value).2 := by
  obtain ⟨x, rfl, hx⟩ := h
  cases parameter with
  | maxConcurrentStreams =>
    refine ⟨⟨{ x with maxConcurrentStreams := value }, rfl, hx.pos, hx.pos', fun hf => ?_⟩, rfl⟩
    exact ⟨(hx.same hf).1, rfl, (hx.same hf).2.2⟩
  | headerTableSize => exact ⟨⟨x, rfl, hx⟩, rfl⟩
  | enablePush =>
    simp only [applyPeerSetting]
    split <;> exact ⟨⟨x, rfl, hx⟩, rfl⟩
  | maxFrameSize =>
    simp only [applyPeerSetting]
    split
    · exact ⟨⟨x, rfl, hx⟩, rfl⟩
    · rename_i hrange
      -- an announced frame size is at least the minimum
      have hpos : 0 < value :=
        lt_of_lt_of_le (by decide) (not_lt.1 fun hlt => hrange (Or.inl hlt))
      refine ⟨⟨{ x with maxFrameSize := value }, rfl, hpos, hpos, fun hf => ?_⟩, rfl⟩
      exact ⟨rfl, (hx.same hf).2⟩
  | initialWindowSize =>
    simp only [applyPeerSetting]
    split
    · exact ⟨⟨x, rfl, hx⟩, rfl⟩
    · have hloop := twin_adjustWindows
        (wrapInt32 (wrapInt32 value - wrapInt32 p.initialWindowSize)) p.streams.keys
        (p := { p with initialWindowSize := value }) ⟨x, rfl, hx⟩
      exact ⟨hloop.1, congrArg
        (fun ok => if ok = true then none else some ErrorCode.flowControlError) hloop.2⟩
  | maxHeaderListSize =>
    refine ⟨⟨{ x with maxHeaderListSize := value }, rfl, hx.pos, hx.pos', fun hf => ?_⟩, rfl⟩
    exact ⟨(hx.same hf).1, (hx.same hf).2.1, rfl⟩
  | other _ => exact ⟨⟨x, rfl, hx⟩, rfl⟩

theorem twin_applyPeerSettings (settings : List (Nat × Nat)) :
    ∀ {p q : ProtocolState}, Twin framed p q →
      Twin framed (applyPeerSettings settings p).1 (applyPeerSettings settings q).1 ∧
        (applyPeerSettings settings q).2 = (applyPeerSettings settings p).2 := by
  induction settings with
  | nil => exact fun h => ⟨h, rfl⟩
  | cons setting settings ih =>
    intro p q h
    obtain ⟨id, value⟩ := setting
    have hone := twin_applyPeerSetting h (Http2SettingParameter.ofNat id) value
    simp only [applyPeerSettings]
    cases hp : p.applyPeerSetting (Http2SettingParameter.ofNat id) value with
    | mk p₁ code =>
      cases hq : q.applyPeerSetting (Http2SettingParameter.ofNat id) value with
      | mk q₁ code' =>
        rw [hp, hq] at hone
        obtain ⟨htwin, rfl⟩ := hone
        cases code' with
        | some code => exact ⟨htwin, rfl⟩
        | none => exact ih htwin

/-- The lines of `processSettingFrame` after `applyPeerSettings`. -/
def afterSettings : ProtocolState × Option ErrorCode → Step
  | (p, some applyCode) => return p.failConnection applyCode "invalid peer settings"
  | (p, none) => do
    let (p, result) ← emitPendingBodies p.streams.keys p
    return (p, result.merge { outbound := [.settings settingsAck], events := [.settingsReceived] })

theorem agree_afterSettings {a b : ProtocolState × Option ErrorCode}
    (h : Twin framed a.1 b.1 ∧ b.2 = a.2) :
    Agree (TwinResult framed) (afterSettings a) (afterSettings b) := by
  obtain ⟨p, code⟩ := a
  obtain ⟨q, code'⟩ := b
  obtain ⟨htwin, hcode⟩ := h
  dsimp only at htwin hcode
  subst hcode
  cases code' with
  | some code => exact twin_failConnection htwin _ _
  | none =>
    simp only [afterSettings, htwin.streams]
    refine .bind (agree_emitPendingBodies p.streams.keys htwin) fun a b hab => ?_
    exact ⟨hab.1, hab.2.merge (.refl _ _)⟩

theorem agree_processSettingFrame (h : Twin framed p q) (f : RawFrame) :
    Agree (TwinResult framed) (p.processSettingFrame f) (q.processSettingFrame f) := by
  obtain ⟨x, rfl, hx⟩ := h
  unfold processSettingFrame
  apply Agree.ite
  · intro _
    exact twin_failConnection ⟨x, rfl, hx⟩ _ _
  intro _
  apply Agree.ite
  · intro _
    exact twin_failConnection ⟨x, rfl, hx⟩ _ _
  intro _
  apply Agree.ite
  · intro _
    apply Agree.ite
    · intro _
      exact twin_failConnection ⟨x, rfl, hx⟩ _ _
    · intro _
      exact ⟨⟨x, rfl, hx⟩, .refl _ _⟩
  intro _
  refine .bind_same _ fun settingsFrame _ => ?_
  have happly := twin_applyPeerSettings settingsFrame.settings
    (p := { p with gotPeerSettings := true }) (q := { p.beside x with gotPeerSettings := true })
    ⟨x, rfl, hx⟩
  exact agree_afterSettings happly

end Settings

/-! ## Data -/

section Data

variable {framed : Prop} {p q : ProtocolState}

theorem twin_processDataOnUnknownStream (h : Twin framed p q) (d : DataFrame) :
    TwinResult framed (p.processDataOnUnknownStream d) (q.processDataOnUnknownStream d) := by
  obtain ⟨x, rfl, hx⟩ := h
  unfold processDataOnUnknownStream
  apply twin_ite
  · intro _
    exact twin_failConnection ⟨x, rfl, hx⟩ _ _
  intro _
  apply twin_ite
  · intro _
    exact twin_failConnection ⟨x, rfl, hx⟩ _ _
  intro _
  rw [show (p.beside x).connectionInflow = p.connectionInflow from rfl]
  cases p.connectionInflow.take d.header.payloadLength with
  | none => exact twin_failConnection ⟨x, rfl, hx⟩ _ _
  | some inflow =>
    apply twin_ite
    · intro _
      exact twin_failConnection (p := { p with connectionInflow := inflow }) ⟨x, rfl, hx⟩ _ _
    · intro _
      exact ⟨⟨x, rfl, hx⟩, .refl _ _⟩

theorem agree_storeData (h : Twin framed p q) (s : Stream) (d : DataFrame) :
    Agree (TwinResult framed) (p.storeData s d) (q.storeData s d) := by
  obtain ⟨x, rfl, hx⟩ := h
  unfold storeData
  -- the record with the bytes of the frame is put back before the windows are looked at
  generalize { s with
    resp := { s.resp with body := s.resp.body ++ d.data }
    receivedContentLength := s.receivedContentLength + d.data.length } = u
  have hput : Twin framed (p.putStream u) ((p.beside x).putStream u) := ⟨x, rfl, hx⟩
  dsimp only
  revert hput
  generalize p.putStream u = a
  generalize (p.beside x).putStream u = b
  rintro ⟨y, rfl, hy⟩
  rw [show (a.beside y).connectionInflow = a.connectionInflow from rfl]
  obtain ⟨connRefresh, connectionInflow⟩ := a.connectionInflow.add d.header.payloadLength
  apply Agree.ite
  · intro _
    exact twin_failConnection ⟨y, rfl, hy⟩ _ _
  intro _
  obtain ⟨streamRefresh, inflow⟩ := u.inflow.add d.header.payloadLength
  apply Agree.ite
  · intro _
    exact twin_failStream (p := { a with connectionInflow }) ⟨y, rfl, hy⟩ _ _ _
  intro _
  apply Agree.ite
  · intro _
    have hcharged : Twin framed { a with connectionInflow } { a.beside y with connectionInflow } :=
      ⟨y, rfl, hy⟩
    refine .bind (agree_finalizeRemoteStream (hcharged.putStream { u with inflow }) _) ?_
    intro c e hfin
    exact ⟨hfin.1, (Alike.refl framed _).merge hfin.2⟩
  · intro _
    exact ⟨⟨y, rfl, hy⟩, .refl _ _⟩

/-- The lines of `processDataFrame` after both windows have been charged. -/
def chargedData (p : ProtocolState) (stream : Stream) (dataFrame : DataFrame) : Step := do
  let noBody ← if dataFrame.data ≠ [] then stream.expectsNoBody else pure false
  if noBody then return p.failStream stream.streamId .protocolError true
  else p.storeData stream dataFrame

theorem agree_chargedData (h : Twin framed p q) (s : Stream) (d : DataFrame) :
    Agree (TwinResult framed) (p.chargedData s d) (q.chargedData s d) := by
  unfold chargedData
  apply Agree.ite
  · intro _
    refine .bind_same _ fun noBody _ => ?_
    apply Agree.ite
    · intro _
      exact twin_failStream h _ _ _
    · intro _
      exact agree_storeData h s d
  · intro _
    exact agree_storeData h s d

theorem agree_processDataFrame (h : Twin framed p q) (f : RawFrame) :
    Agree (TwinResult framed) (p.processDataFrame f) (q.processDataFrame f) := by
  obtain ⟨x, rfl, hx⟩ := h
  unfold processDataFrame
  apply Agree.ite
  · intro _
    exact twin_failConnection ⟨x, rfl, hx⟩ _ _
  intro _
  refine .bind_same _ fun padding _ => ?_
  cases padding with
  | some error => exact twin_failConnection ⟨x, rfl, hx⟩ _ _
  | none =>
    refine .bind_same _ fun d _ => ?_
    rw [show (p.beside x).streams = p.streams from rfl,
      show (p.beside x).connectionInflow = p.connectionInflow from rfl]
    cases p.streams.find? f.header.streamId with
    | none => exact twin_processDataOnUnknownStream ⟨x, rfl, hx⟩ d
    | some s =>
      apply Agree.ite
      · intro _
        exact twin_failStream ⟨x, rfl, hx⟩ _ _ _
      intro _
      apply Agree.ite
      · intro _
        exact twin_failStream ⟨x, rfl, hx⟩ _ _ _
      intro _
      dsimp only
      cases InFlow.takeInflows p.connectionInflow s.inflow d.header.payloadLength with
      | none => exact twin_failConnection ⟨x, rfl, hx⟩ _ _
      | some windows =>
        obtain ⟨connectionInflow, inflow⟩ := windows
        have hcharged : Twin framed { p with connectionInflow }
            { p.beside x with connectionInflow } := ⟨x, rfl, hx⟩
        exact agree_chargedData (hcharged.putStream _) { s with inflow } d

end Data

/-! ## Headers -/

section Headers

variable {framed : Prop} {p q : ProtocolState}

theorem agree_processGhostHeaders (h : Twin framed p q) (f : HeadersFrame) :
    Agree (TwinResult framed) (p.processGhostHeaders f) (q.processGhostHeaders f) := by
  obtain ⟨x, rfl, hx⟩ := h
  unfold processGhostHeaders
  apply Agree.ite
  · intro _
    exact twin_failConnection ⟨x, rfl, hx⟩ _ _
  intro _
  apply Agree.ite
  · intro _
    exact twin_failConnection ⟨x, rfl, hx⟩ _ _
  intro _
  apply Agree.ite
  · intro _
    refine .bind (agree_hpackDecode ⟨x, rfl, hx⟩ _ _) ?_
    rintro ⟨p', fields⟩ ⟨q', fields'⟩ ⟨htwin, hfields⟩
    dsimp only at htwin hfields
    subst hfields
    cases fields' with
    | none => exact twin_failConnection htwin _ _
    | some headers => exact ⟨htwin, .refl _ _⟩
  · intro _
    refine .bind_same _ fun ghostHeaderBlock _ => ?_
    exact ⟨⟨x, rfl, hx⟩, .refl _ _⟩

/-- The handler has read an accepted HEADERS frame. -/
theorem headerFragment_of_ofRaw {f : RawFrame} {headersFrame : HeadersFrame}
    (hpad : validatePaddedPayload f f.priorityPrefix = .ok none)
    (hread : HeadersFrame.ofRaw f = .ok headersFrame) :
    f.PaddingOk f.priorityPrefix ∧ headersFrame.header = f.header ∧
      headersFrame.data = f.headerFragment := by
  rcases validatePaddedPayload_cases f f.priorityPrefix with ⟨hok, -⟩ | ⟨-, code, text, heq, -⟩
  · obtain ⟨frame, heq, hheader, hdata, -⟩ := HeadersFrame.ofRaw_eq hok
    rw [hread] at heq
    cases heq
    exact ⟨hok, hheader, hdata⟩
  · rw [hpad] at heq
    cases heq

theorem agree_processHeadersFrame (h : Twin framed p q) {f : RawFrame}
    (ht : f.header.type = .headers) (hexp : p.expectingContinuation = false)
    (hf : f.header.streamId ≠ 0 → Dispatched p f) (hjudge : JudgeAlike p q f) :
    Agree (TwinResult framed) (p.processHeadersFrame f) (q.processHeadersFrame f) := by
  obtain ⟨x, rfl, hx⟩ := h
  unfold processHeadersFrame
  apply Agree.ite
  · intro _
    exact twin_failConnection ⟨x, rfl, hx⟩ _ _
  intro hid
  refine .bind_same _ fun padding hpad => ?_
  cases padding with
  | some error => exact twin_failConnection ⟨x, rfl, hx⟩ _ _
  | none =>
    refine .bind_same _ fun headersFrame hread => ?_
    obtain ⟨hok, hheader, hdata⟩ := headerFragment_of_ofRaw hpad hread
    rw [show (p.beside x).streams = p.streams from rfl]
    cases hfind : p.streams.find? f.header.streamId with
    | none => exact agree_processGhostHeaders ⟨x, rfl, hx⟩ _
    | some s =>
      apply Agree.ite
      · intro _
        exact twin_failStream ⟨x, rfl, hx⟩ _ _ _
      intro hopen
      refine .bind_same _ fun pendingHeaderBlock happend => ?_
      obtain ⟨rfl, hgrow⟩ := ByteBuffer.append_eq_ok.1 happend
      rw [hdata] at hgrow ⊢
      -- the length check is the first place where the limits of the two matter
      have hextends : Extends p f (some s) (s.pendingHeaderBlock ++ f.headerFragment) :=
        .headers s (hf hid) ht hexp hok hfind (by simpa [Stream.Refuses] using hopen) hgrow
      apply Agree.ite_iff (iff_of_eq (congrArg (· = true) (hjudge _ (.block hextends)).symm))
      · intro _
        exact twin_failConnection
          (p := p.putStream (s.withFragment f.headerFragment)) ⟨x, rfl, hx⟩ _ _
      intro hfits
      apply Agree.ite
      · intro _
        exact ⟨⟨x, rfl, hx⟩, .refl _ _⟩
      · intro hend
        refine agree_completeHeaderBlock (p := p.putStream (s.withFragment f.headerFragment))
          ⟨x, rfl, hx⟩ _ _ (lt_of_le_of_lt hgrow (by decide)) fun headers hd => ?_
        refine hjudge _ (.list hextends (Bool.eq_false_iff.2 hfits) ?_ hd)
        rw [← hheader]
        simpa using hend

theorem agree_processGhostContinuation (h : Twin framed p q) (c : ContinuationFrame)
    (hjudge : (p.ghostHeaderBlock ++ c.data).length ≤ 2 ^ 31 →
      exceeds q.maxHeaderListSize (p.ghostHeaderBlock ++ c.data).length =
        exceeds p.maxHeaderListSize (p.ghostHeaderBlock ++ c.data).length) :
    Agree (TwinResult framed) (p.processGhostContinuation c) (q.processGhostContinuation c) := by
  obtain ⟨x, rfl, hx⟩ := h
  unfold processGhostContinuation
  refine .bind_same _ fun ghostHeaderBlock happend => ?_
  obtain ⟨rfl, hgrow⟩ := ByteBuffer.append_eq_ok.1 happend
  apply Agree.ite_iff (iff_of_eq (congrArg (· = true) (hjudge hgrow).symm))
  · intro _
    exact twin_failConnection (p := { p with ghostHeaderBlock := [] }) ⟨x, rfl, hx⟩ _ _
  intro _
  apply Agree.ite
  · intro _
    exact ⟨⟨x, rfl, hx⟩, .refl _ _⟩
  intro _
  refine .bind (agree_hpackDecode (p := { p with
    expectingContinuation := false, continuationStreamId := 0 }) ⟨x, rfl, hx⟩ _ _) ?_
  rintro ⟨p', fields⟩ ⟨q', fields'⟩ ⟨⟨y, hq, hy⟩, hfields⟩
  dsimp only at hq hy hfields
  subst hq hfields
  cases fields' with
  | none => exact twin_failConnection (p := { p' with ghostHeaderBlock := [] }) ⟨y, rfl, hy⟩ _ _
  | some headers => exact ⟨⟨y, rfl, hy⟩, .refl _ _⟩

theorem agree_processContinuationFrame (h : Twin framed p q) {f : RawFrame}
    (ht : f.header.type = .continuation) (hf : f.header.streamId ≠ 0 → Dispatched p f)
    (hjudge : JudgeAlike p q f) :
    Agree (TwinResult framed) (p.processContinuationFrame f) (q.processContinuationFrame f) := by
  obtain ⟨x, rfl, hx⟩ := h
  unfold processContinuationFrame
  apply Agree.ite
  · intro _
    exact twin_failConnection ⟨x, rfl, hx⟩ _ _
  intro hid
  apply Agree.ite
  · intro _
    exact twin_failConnection ⟨x, rfl, hx⟩ _ _
  intro hexpected
  obtain ⟨hexp, hcont⟩ : p.expectingContinuation = true ∧
      p.continuationStreamId = f.header.streamId := by
    simpa using hexpected
  rw [show (p.beside x).streams = p.streams from rfl]
  cases hfind : p.streams.find? f.header.streamId with
  | none =>
    exact agree_processGhostContinuation ⟨x, rfl, hx⟩ _ fun hgrow =>
      hjudge _ (.block (.ghost (hf hid) ht hexp hcont hfind hgrow))
  | some s =>
    refine .bind_same _ fun pendingHeaderBlock happend => ?_
    obtain ⟨rfl, hgrow⟩ := ByteBuffer.append_eq_ok.1 happend
    have hextends : Extends p f (some s) (s.pendingHeaderBlock ++ f.data) :=
      .continuation s (hf hid) ht hexp hcont hfind hgrow
    have hlen : (s.endBlock f.data).pendingHeaderBlock.length < 2 ^ 32 :=
      lt_of_le_of_lt hgrow (by decide)
    apply Agree.ite_iff (iff_of_eq (congrArg (· = true) (hjudge _ (.block hextends)).symm))
    · intro _
      exact twin_failConnection (p := p.putStream (s.withFragment f.data)) ⟨x, rfl, hx⟩ _ _
    intro hfits
    apply Agree.ite
    · intro _
      exact ⟨⟨x, rfl, hx⟩, .refl _ _⟩
    · intro hlast
      have hend : f.header.hasEndHeadersFlag = true := by
        simpa [ContinuationFrame.ofRaw] using hlast
      refine agree_completeHeaderBlock (p := { p.putStream (s.withFragment f.data) with
        expectingContinuation := false, continuationStreamId := 0 }.putStream
          (s.endBlock f.data)) ⟨x, rfl, hx⟩ _ _ hlen fun headers hd => ?_
      exact hjudge _ (.list hextends (Bool.eq_false_iff.2 hfits) hend hd)

end Headers

/-! ## The other frames -/

section Others

variable {framed : Prop} {p q : ProtocolState}

theorem twin_processPriorityFrame (h : Twin framed p q) (f : RawFrame) :
    TwinResult framed (p.processPriorityFrame f) (q.processPriorityFrame f) := by
  unfold processPriorityFrame
  apply twin_ite
  · intro _
    exact twin_failConnection h _ _
  intro _
  exact twin_ite (fun _ => ⟨h, .refl _ _⟩) fun _ => ⟨h, .refl _ _⟩

theorem agree_processRstStreamFrame (h : Twin framed p q) (f : RawFrame) :
    Agree (TwinResult framed) (p.processRstStreamFrame f) (q.processRstStreamFrame f) := by
  obtain ⟨x, rfl, hx⟩ := h
  unfold processRstStreamFrame
  apply Agree.ite
  · intro _
    exact twin_failConnection ⟨x, rfl, hx⟩ _ _
  intro _
  apply Agree.ite
  · intro _
    exact twin_failConnection ⟨x, rfl, hx⟩ _ _
  intro _
  rw [show (p.beside x).streams = p.streams from rfl]
  cases p.streams.find? f.header.streamId with
  | none =>
    apply Agree.ite
    · intro _
      exact twin_failConnection ⟨x, rfl, hx⟩ _ _
    · intro _
      exact ⟨⟨x, rfl, hx⟩, .refl _ _⟩
  | some s =>
    refine .bind_same _ fun rst _ => ?_
    have hfail : TwinResult framed
        (p.failStream f.header.streamId (ErrorCode.ofNat rst.errorCode) false)
        ((p.beside x).failStream f.header.streamId (ErrorCode.ofNat rst.errorCode) false) :=
      twin_failStream ⟨x, rfl, hx⟩ _ _ _
    exact ⟨hfail.1, (Alike.refl framed _).merge hfail.2⟩

theorem agree_processPushPromiseFrame (h : Twin framed p q) (f : RawFrame) :
    Agree (TwinResult framed) (p.processPushPromiseFrame f) (q.processPushPromiseFrame f) := by
  obtain ⟨x, rfl, hx⟩ := h
  unfold processPushPromiseFrame
  apply Agree.ite
  · intro _
    exact twin_failConnection ⟨x, rfl, hx⟩ _ _
  intro _
  refine .bind_same _ fun padding _ => ?_
  cases padding with
  | some error => exact twin_failConnection ⟨x, rfl, hx⟩ _ _
  | none =>
    refine .bind_same _ fun push _ => ?_
    apply Agree.ite
    · intro _
      exact twin_failConnection ⟨x, rfl, hx⟩ _ _
    intro _
    apply Agree.ite
    · intro _
      exact twin_failConnection ⟨x, rfl, hx⟩ _ _
    intro _
    apply Agree.ite
    · intro _
      have hfail : TwinResult framed (p.failConnection .protocolError "server push disabled")
          ((p.beside x).failConnection .protocolError "server push disabled") :=
        twin_failConnection ⟨x, rfl, hx⟩ _ _
      exact ⟨hfail.1, (Alike.refl framed _).merge hfail.2⟩
    · intro _
      exact ⟨⟨x, rfl, hx⟩, .refl _ _⟩

theorem twin_processPingFrame (h : Twin framed p q) (f : RawFrame) :
    TwinResult framed (p.processPingFrame f) (q.processPingFrame f) := by
  unfold processPingFrame
  apply twin_ite
  · intro _
    exact twin_failConnection h _ _
  intro _
  apply twin_ite
  · intro _
    exact twin_failConnection h _ _
  intro _
  exact twin_ite (fun _ => ⟨h, .refl _ _⟩) fun _ => ⟨h, .refl _ _⟩

theorem agree_processGoAwayFrame (h : Twin framed p q) (f : RawFrame) :
    Agree (TwinResult framed) (p.processGoAwayFrame f) (q.processGoAwayFrame f) := by
  obtain ⟨x, rfl, hx⟩ := h
  unfold processGoAwayFrame
  apply Agree.ite
  · intro _
    exact twin_failConnection ⟨x, rfl, hx⟩ _ _
  intro _
  apply Agree.ite
  · intro _
    exact twin_failConnection ⟨x, rfl, hx⟩ _ _
  intro _
  refine .bind_same _ fun goaway _ => ?_
  exact twin_failStreams _ _ (p := { p with receivedGoaway := true }) ⟨x, rfl, hx⟩ (.refl _ _)

theorem agree_processWindowUpdateFrame (h : Twin framed p q) (f : RawFrame) :
    Agree (TwinResult framed) (p.processWindowUpdateFrame f) (q.processWindowUpdateFrame f) := by
  obtain ⟨x, rfl, hx⟩ := h
  unfold processWindowUpdateFrame
  apply Agree.ite
  · intro _
    exact twin_failConnection ⟨x, rfl, hx⟩ _ _
  intro _
  refine .bind_same _ fun window _ => ?_
  apply Agree.ite
  · intro _
    apply Agree.ite
    · intro _
      exact twin_failConnection ⟨x, rfl, hx⟩ _ _
    · intro _
      exact twin_failStream ⟨x, rfl, hx⟩ _ _ _
  intro _
  apply Agree.ite
  · intro _
    rw [show (p.beside x).connectionOutFlow = p.connectionOutFlow from rfl]
    cases p.connectionOutFlow.add ((window.windowSizeIncrement % 2 ^ 31 : Nat) : Int) with
    | none => exact twin_failConnection ⟨x, rfl, hx⟩ _ _
    | some connectionOutFlow =>
      refine .bind (agree_emitPendingBodies p.streams.keys
        (p := { p with connectionOutFlow }) ⟨x, rfl, hx⟩) fun a b hab => ?_
      exact ⟨hab.1, (Alike.refl framed _).merge hab.2⟩
  · intro _
    rw [show (p.beside x).streams = p.streams from rfl]
    cases p.streams.find? f.header.streamId with
    | none =>
      apply Agree.ite
      · intro _
        exact twin_failConnection ⟨x, rfl, hx⟩ _ _
      · intro _
        exact ⟨⟨x, rfl, hx⟩, .refl _ _⟩
    | some s =>
      dsimp only
      cases s.outflow.add ((window.windowSizeIncrement % 2 ^ 31 : Nat) : Int) with
      | none => exact twin_failStream ⟨x, rfl, hx⟩ _ _ _
      | some outflow =>
        refine .bind (agree_emitPendingRequestBody (p := p.putStream { s with outflow })
          ⟨x, rfl, hx⟩ _) fun a b hab => ?_
        exact ⟨hab.1, (Alike.refl framed _).merge hab.2⟩

end Others

/-- Twins handle every frame alike whose sizes their limits judge alike. -/
theorem agree_receiveFrame {framed : Prop} {p q : ProtocolState} (h : Twin framed p q)
    {f : RawFrame} (hjudge : JudgeAlike p q f) :
    Agree (TwinResult framed) (p.receiveFrame f) (q.receiveFrame f) := by
  obtain ⟨x, rfl, hx⟩ := h
  unfold receiveFrame
  apply Agree.ite
  · intro _
    exact twin_failConnection ⟨x, rfl, hx⟩ _ _
  intro hfirst
  apply Agree.ite
  · intro _
    exact twin_failConnection ⟨x, rfl, hx⟩ _ _
  intro hlen
  apply Agree.ite
  · intro _
    exact twin_failConnection ⟨x, rfl, hx⟩ _ _
  intro hinterrupt
  cases ht : f.header.type with
  | data => exact agree_processDataFrame ⟨x, rfl, hx⟩ f
  | headers =>
    refine agree_processHeadersFrame ⟨x, rfl, hx⟩ ht ?_ (fun hid => ⟨?_, not_lt.1 hlen, hid⟩) hjudge
    · simpa [ht] using hinterrupt
    · simpa [ht] using hfirst
  | priority => exact twin_processPriorityFrame ⟨x, rfl, hx⟩ f
  | rstStream => exact agree_processRstStreamFrame ⟨x, rfl, hx⟩ f
  | settings => exact agree_processSettingFrame ⟨x, rfl, hx⟩ f
  | pushPromise => exact agree_processPushPromiseFrame ⟨x, rfl, hx⟩ f
  | ping => exact twin_processPingFrame ⟨x, rfl, hx⟩ f
  | goAway => exact agree_processGoAwayFrame ⟨x, rfl, hx⟩ f
  | windowUpdate => exact agree_processWindowUpdateFrame ⟨x, rfl, hx⟩ f
  | continuation =>
    refine agree_processContinuationFrame ⟨x, rfl, hx⟩ ht (fun hid => ⟨?_, not_lt.1 hlen, hid⟩)
      hjudge
    simpa [ht] using hfirst
  | other _ => exact ⟨⟨x, rfl, hx⟩, .refl _ _⟩

end ProtocolState

end Chttp2
