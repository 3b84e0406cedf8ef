import Chttp2.Protocol.Twins

/-!
# Verdicts on received frames

The verdict on a frame is what the owner and the peer learn about its acceptance: the header lists
and responses that are reported, the errors, and the RST_STREAM and GOAWAY frames that are sent
(`ProtocolStepResult.verdict`). `verdicts` lists the verdicts on a sequence of frames.

A block that exceeds the limit on header lists is answered with ENHANCE_YOUR_CALM, and nothing else
is (`receiveFrame_of_extends`). So twins give different verdicts as soon as their limits judge a
size differently, and `verdicts_eq_iff` holds in both directions.
-/

set_option autoImplicit false

namespace Chttp2

/-- The events that tell how a frame has been received. -/
def ProtocolEvent.isVerdict : ProtocolEvent → Bool
  | .streamHeadersReceived .. | .responseCompleted .. | .responseFailed .. | .connectionError _ =>
    true
  | _ => false

/-- The frames that reject what has been received. -/
def OutboundBuffer.isRejection : OutboundBuffer → Bool
  | .rstStream _ | .goAway _ => true
  | _ => false

/-- The verdict on a frame: the events and the outbound frames that tell how it has been received. -/
def ProtocolStepResult.verdict (r : ProtocolStepResult) :
    List ProtocolEvent × List OutboundBuffer :=
  (r.events.filter ProtocolEvent.isVerdict, r.outbound.filter OutboundBuffer.isRejection)

namespace ProtocolState

/-- A frame arrives. -/
def receive (p : ProtocolState) (f : RawFrame) : Step := p.act (.receiveFrame f)

/-- The verdicts on frames that arrive one after the other. -/
def verdicts (p : ProtocolState) (frames : List RawFrame) :
    List (Guarded (List ProtocolEvent × List OutboundBuffer)) :=
  Machine.observe receive ProtocolStepResult.verdict p frames

/-- As long as the connection is up, the limits judge the sizes of the frame alike. -/
def ReceiveAlike (p q : ProtocolState) (f : RawFrame) : Prop :=
  p.closed = false → p.transportClosed = false → JudgeAlike p q f

section Verdict

variable {p q : ProtocolState} {f : RawFrame} {r r' : ProtocolStepResult}

/-- A rejection is no DATA frame. -/
theorem filter_commands (out : List OutboundBuffer) :
    (commands out).filter OutboundBuffer.isRejection = out.filter OutboundBuffer.isRejection := by
  unfold commands
  rw [List.filter_filter]
  refine List.filter_congr fun b _ => ?_
  cases b <;> rfl

theorem Alike.verdict {framed : Prop} (h : Alike framed r r') : r.verdict = r'.verdict := by
  unfold ProtocolStepResult.verdict
  rw [← filter_commands r.outbound, ← filter_commands r'.outbound, h.commands, h.events]

/-- Equal verdicts contain the same events of the kinds that matter. -/
theorem mem_events_iff {e : ProtocolEvent} (he : e.isVerdict = true) (h : r.verdict = r'.verdict) :
    e ∈ r.events ↔ e ∈ r'.events := by
  have hevents : r.events.filter ProtocolEvent.isVerdict =
      r'.events.filter ProtocolEvent.isVerdict := (Prod.mk.inj h).1
  have hiff : e ∈ r.events.filter ProtocolEvent.isVerdict ↔
      e ∈ r'.events.filter ProtocolEvent.isVerdict := by rw [hevents]
  simpa [List.mem_filter, he] using hiff

end Verdict

/-! ## ENHANCE_YOUR_CALM -/

section Calm

variable {p p' q : ProtocolState} {s : Stream} {f : RawFrame} {r : ProtocolStepResult}

/-- Nothing is answered with ENHANCE_YOUR_CALM. -/
def Uncritical (r : ProtocolStepResult) : Prop :=
  .connectionError .enhanceYourCalm ∉ r.events ∧
    ∀ id, .responseFailed id .enhanceYourCalm ∉ r.events

theorem uncritical_streamFailure (p : ProtocolState) (id : StreamId) {code : ErrorCode}
    (h : code ≠ .enhanceYourCalm) (rst : Bool) : Uncritical (p.streamFailure id code rst) := by
  constructor
  · simp [streamFailure, failureEvents]
  · intro other
    simp [streamFailure, failureEvents, h.symm]

theorem uncritical_ending {b : Bool} (h : Ending p s b p' r) : Uncritical r := by
  cases h with
  | goesOn => simp [Uncritical]
  | mismatch => exact uncritical_streamFailure _ _ (by decide) _
  | finished => simp [Uncritical]
  | answered => simp [Uncritical]

theorem Uncritical.merge_headers (h : Uncritical r) (id : StreamId) (response : Response) :
    Uncritical (ProtocolStepResult.merge { events := [.streamHeadersReceived id response] } r) := by
  constructor
  · simpa using h.1
  · intro other
    simpa using h.2 other

/-- A connection fails with the error it reports. -/
theorem connectionError_mem_connectionFailure (p : ProtocolState) (code code' : ErrorCode)
    (debugData : Bytes) :
    .connectionError code' ∈ (p.connectionFailure code debugData).events ↔ code' = code := by
  simp [connectionFailure, failureEvents]

/-- A complete block is answered with ENHANCE_YOUR_CALM if and only if its list exceeds the limit,
and then on its stream. -/
theorem completeHeaderBlock_calm (hkey : s.streamId ∈ p.streams.keys) (hst : s.StatusOk)
    (hlen : s.pendingHeaderBlock.length < 2 ^ 32) (endStream : Bool) :
    ∃ p' r, (p.putStream s).completeHeaderBlock s endStream = .ok (p', r) ∧
      .connectionError .enhanceYourCalm ∉ r.events ∧
      ∀ headers, (p.decodedBlock s.pendingHeaderBlock).2 = some headers →
        (.responseFailed s.streamId .enhanceYourCalm ∈ r.events ↔
          exceeds p.maxHeaderListSize (headerListSize headers) = true) := by
  cases hd : (p.decodedBlock s.pendingHeaderBlock).2 with
  | none =>
    obtain ⟨ghost, hfail⟩ := failConnection_eq
      ((p.afterDecode s.streamId s.pendingHeaderBlock).putStream s) .compressionError
      "HPACK decode error"
    refine ⟨_, _, (completeHeaderBlock_undecodable hlen hd endStream).trans
      (congrArg _ hfail), ?_, fun _ h => by cases h⟩
    rw [connectionError_mem_connectionFailure]
    decide
  | some headers =>
    obtain ⟨p', r, heq, hstep⟩ := completeHeaderBlock_eq hkey hst hlen hd endStream
    refine ⟨p', r, heq, ?_⟩
    -- the way that the block took has decoded the same list
    have hfits : ∀ {headers'}, (p.decodedBlock s.pendingHeaderBlock).2 = some headers' →
        ¬ p.HeaderListTooLarge headers' → Uncritical r →
        .connectionError .enhanceYourCalm ∉ r.events ∧ ∀ headers'', some headers = some headers'' →
          (.responseFailed s.streamId .enhanceYourCalm ∈ r.events ↔
            exceeds p.maxHeaderListSize (headerListSize headers'') = true) := by
      intro headers' hd' hsize hr
      rw [hd] at hd'
      cases hd'
      refine ⟨hr.1, fun headers'' heq => ?_⟩
      cases heq
      exact iff_of_false (hr.2 _) hsize
    cases hstep with
    | tooLarge headers' hd' hsize =>
      rw [hd] at hd'
      cases hd'
      refine ⟨by simp [streamFailure, failureEvents], fun headers'' heq => ?_⟩
      cases heq
      exact iff_of_true (by simp [streamFailure, failureEvents]) hsize
    | rejected headers' hd' hsize =>
      exact hfits hd' hsize (uncritical_streamFailure _ _ (by decide) _)
    | informational headers' cl hd' hsize =>
      exact hfits hd' hsize (by simp [Uncritical])
    | headers headers' cl hd' hsize _ _ hend =>
      exact hfits hd' hsize ((uncritical_ending hend).merge_headers _ _)
    | trailers headers' cl hd' hsize _ _ _ hend =>
      exact hfits hd' hsize ((uncritical_ending hend).merge_headers _ _)

/-- The answer to a frame that brings the block to its length check. -/
def Answers (p : ProtocolState) (f : RawFrame) (o : Option Stream) (block : Bytes) (x : Step) :
    Prop :=
  ∃ p' r, x = .ok (p', r) ∧
    (.connectionError .enhanceYourCalm ∈ r.events ↔
      exceeds p.maxHeaderListSize block.length = true) ∧
    ∀ s headers, o = some s → exceeds p.maxHeaderListSize block.length = false →
      f.header.hasEndHeadersFlag = true → (p.decodedBlock block).2 = some headers →
      (.responseFailed s.streamId .enhanceYourCalm ∈ r.events ↔
        exceeds p.maxHeaderListSize (headerListSize headers) = true)

/-- The check comes first. -/
theorem Answers.check {o : Option Stream} {block : Bytes} {rest : Step} (text : String)
    (h : exceeds p.maxHeaderListSize block.length = false → ∃ p' r, rest = .ok (p', r) ∧
      .connectionError .enhanceYourCalm ∉ r.events ∧
      ∀ s headers, o = some s → f.header.hasEndHeadersFlag = true →
        (p.decodedBlock block).2 = some headers →
        (.responseFailed s.streamId .enhanceYourCalm ∈ r.events ↔
          exceeds p.maxHeaderListSize (headerListSize headers) = true)) :
    Answers p f o block (if exceeds p.maxHeaderListSize block.length = true then
      return q.failConnection .enhanceYourCalm text else rest) := by
  cases hsize : exceeds p.maxHeaderListSize block.length with
  | true =>
    obtain ⟨ghost, hfail⟩ := failConnection_eq q .enhanceYourCalm text
    refine ⟨_, _, congrArg Except.ok hfail, iff_of_true ?_ hsize, fun _ _ _ hfits => ?_⟩
    · exact (connectionError_mem_connectionFailure q _ _ _).2 rfl
    · rw [hsize] at hfits
      cases hfits
  | false =>
    obtain ⟨p', r, heq, hno, hlist⟩ := h hsize
    refine ⟨p', r, heq, iff_of_false hno (by rw [hsize]; decide), ?_⟩
    exact fun s headers hs _ => hlist s headers hs

theorem receiveFrame_headers (hf : Dispatched p f) (ht : f.header.type = .headers)
    (hexp : p.expectingContinuation = false) : p.receiveFrame f = p.processHeadersFrame f := by
  unfold receiveFrame
  rw [if_neg (by simp [hf.gotPeerSettings]), if_neg (not_lt.2 hf.payloadLength),
    if_neg (by simp [hexp]), ht]

theorem receiveFrame_continuation (hf : Dispatched p f) (ht : f.header.type = .continuation) :
    p.receiveFrame f = p.processContinuationFrame f := by
  unfold receiveFrame
  rw [if_neg (by simp [hf.gotPeerSettings]), if_neg (not_lt.2 hf.payloadLength),
    if_neg (by simp [ht]), ht]

/-- A frame that brings a block to its length check is answered with ENHANCE_YOUR_CALM if and only
if the check, or the check of the header list, fails. -/
theorem receiveFrame_of_extends (hp : p.Sound) {o : Option Stream} {block : Bytes}
    (h : Extends p f o block) : Answers p f o block (p.receiveFrame f) := by
  cases h with
  | headers s hf ht hexp hpad hfind hopen hgrow =>
    have hid : s.streamId = f.header.streamId := KeyedTable.key_of_find? hfind
    have hst : s.StatusOk := hp.status s (KeyedTable.mem_of_find? hfind)
    have hkey : s.streamId ∈ p.streams.keys := hid ▸ KeyedTable.mem_keys_of_find? hfind
    have hok : validatePaddedPayload f f.priorityPrefix = .ok none := by
      rcases validatePaddedPayload_cases f f.priorityPrefix with ⟨-, h⟩ | ⟨hbad, -⟩
      · exact h
      · exact absurd hpad hbad
    obtain ⟨headersFrame, hread, hheader, hdata, -⟩ := HeadersFrame.ofRaw_eq hpad
    have happend : ByteBuffer.append s.pendingHeaderBlock headersFrame.data =
        .ok (s.pendingHeaderBlock ++ f.headerFragment) := by
      rw [hdata]
      exact ByteBuffer.append_eq_ok.2 ⟨rfl, hgrow⟩
    -- the handler reads the frame and appends its fragment to the block
    rw [receiveFrame_headers hf ht hexp]
    unfold processHeadersFrame
    rw [if_neg hf.streamId]
    show Answers p f _ _ (validatePaddedPayload f f.priorityPrefix >>= _)
    rw [hok, ok_bind]
    dsimp only
    rw [hread, ok_bind, hfind]
    dsimp only
    rw [if_neg (by simpa [Stream.Refuses] using hopen), happend, ok_bind]
    refine Answers.check "header block too large" fun _ => ?_
    by_cases hend : f.header.hasEndHeadersFlag = true
    · rw [if_neg (by simp [hheader, hend])]
      -- the block is complete: its list is judged
      obtain ⟨p', r, heq, hno, hlist⟩ := completeHeaderBlock_calm
        (s := s.withFragment f.headerFragment) hkey hst (lt_of_le_of_lt hgrow (by decide))
        headersFrame.header.hasEndStreamFlag
      refine ⟨p', r, heq, hno, fun u headers hu _ hd => ?_⟩
      cases hu
      exact hlist headers hd
    · rw [if_pos (by simp [hheader, hend])]
      exact ⟨_, _, rfl, by simp, fun _ _ _ hend' => absurd hend' hend⟩
  | continuation s hf ht hexp hid hfind hgrow =>
    have hkey : s.streamId ∈ p.streams.keys :=
      KeyedTable.key_of_find? hfind ▸ KeyedTable.mem_keys_of_find? hfind
    have hst : s.StatusOk := hp.status s (KeyedTable.mem_of_find? hfind)
    have happend : ByteBuffer.append s.pendingHeaderBlock (ContinuationFrame.ofRaw f).data =
        .ok (s.pendingHeaderBlock ++ f.data) := ByteBuffer.append_eq_ok.2 ⟨rfl, hgrow⟩
    rw [receiveFrame_continuation hf ht]
    unfold processContinuationFrame
    rw [if_neg hf.streamId, if_neg (by simp [hexp, hid])]
    dsimp only
    rw [hfind]
    dsimp only
    rw [happend, ok_bind]
    refine Answers.check "header block too large" fun _ => ?_
    by_cases hend : f.header.hasEndHeadersFlag = true
    · rw [if_neg (by simp [ContinuationFrame.ofRaw, hend])]
      have hkey' : s.streamId ∈ (p.putStream (s.withFragment f.data)).streams.keys := by
        rw [keys_putStream]
        exact hkey
      -- the record keeps the whole block while it is decoded
      obtain ⟨p', r, heq, hno, hlist⟩ := completeHeaderBlock_calm
        (p := { p.putStream (s.withFragment f.data) with
          expectingContinuation := false, continuationStreamId := 0 })
        (s := s.endBlock f.data) hkey' hst (lt_of_le_of_lt hgrow (by decide))
        s.pendingHeaderEndStream
      refine ⟨p', r, heq, hno, fun u headers hu _ hd => ?_⟩
      cases hu
      exact hlist headers hd
    · rw [if_pos (by simp [ContinuationFrame.ofRaw, hend])]
      exact ⟨_, _, rfl, by simp, fun _ _ _ hend' => absurd hend' hend⟩
  | ghost hf ht hexp hid hnone hgrow =>
    have happend : ByteBuffer.append p.ghostHeaderBlock (ContinuationFrame.ofRaw f).data =
        .ok (p.ghostHeaderBlock ++ f.data) := ByteBuffer.append_eq_ok.2 ⟨rfl, hgrow⟩
    rw [receiveFrame_continuation hf ht]
    unfold processContinuationFrame
    rw [if_neg hf.streamId, if_neg (by simp [hexp, hid])]
    dsimp only
    rw [hnone]
    dsimp only
    -- no stream holds the block, so its list is never judged
    unfold processGhostContinuation
    rw [happend, ok_bind]
    refine Answers.check "header block too large" fun _ => ?_
    split
    · exact ⟨_, _, rfl, by simp, fun _ _ hs => by cases hs⟩
    dsimp only
    rw [hpackDecode_eq _ _ (lt_of_le_of_lt hgrow (by decide)), ok_bind]
    cases (decodedBlock { p with expectingContinuation := false, continuationStreamId := 0 }
        (p.ghostHeaderBlock ++ f.data)).2 with
    | none =>
      obtain ⟨ghost, hfail⟩ := failConnection_eq { afterDecode
        { p with expectingContinuation := false, continuationStreamId := 0 } f.header.streamId
        (p.ghostHeaderBlock ++ f.data) with ghostHeaderBlock := [] } .compressionError
        "HPACK decode failed on closed-stream CONTINUATION"
      refine ⟨_, _, congrArg Except.ok hfail, ?_, fun _ _ hs => by cases hs⟩
      rw [connectionError_mem_connectionFailure]
      decide
    | some headers => exact ⟨_, _, rfl, by simp, fun _ _ hs => by cases hs⟩

end Calm

/-! ## Observations -/

section Observations

variable {p q : ProtocolState} {f : RawFrame}

theorem Twin.sound {framed : Prop} (h : Twin framed p q) (hp : p.Sound) : q.Sound := by
  obtain ⟨x, rfl, -⟩ := h
  exact ⟨hp.connectionInflow, hp.inflow, hp.status⟩

/-- A frame brings the same block to the check of a twin. -/
theorem Twin.extends {framed : Prop} (h : Twin framed p q) {o : Option Stream} {block : Bytes}
    (hf : Extends p f o block) : Extends q f o block := by
  obtain ⟨x, rfl, -⟩ := h
  cases hf with
  | headers s hf ht hexp hpad hfind hopen hgrow =>
    exact .headers s ⟨hf.1, hf.2, hf.3⟩ ht hexp hpad hfind hopen hgrow
  | continuation s hf ht hexp hid hfind hgrow =>
    exact .continuation s ⟨hf.1, hf.2, hf.3⟩ ht hexp hid hfind hgrow
  | ghost hf ht hexp hid hnone hgrow =>
    exact .ghost ⟨hf.1, hf.2, hf.3⟩ ht hexp hid hnone hgrow

/-- Twins with the same verdict on a frame have judged its sizes alike. -/
theorem judgeAlike_of_verdict (h : Twin False p q) (hp : p.Sound)
    (heq : (p.receiveFrame f).map (fun x => x.2.verdict) =
      (q.receiveFrame f).map fun x => x.2.verdict) : JudgeAlike p q f := by
  have hblock : ∀ o block, Extends p f o block →
      Answers p f o block (p.receiveFrame f) ∧ Answers q f o block (q.receiveFrame f) :=
    fun o block hf =>
      ⟨receiveFrame_of_extends hp hf, receiveFrame_of_extends (h.sound hp) (h.extends hf)⟩
  have hlength : ∀ o block, Extends p f o block →
      exceeds q.maxHeaderListSize block.length = exceeds p.maxHeaderListSize block.length := by
    intro o block hf
    obtain ⟨⟨p', r, hpr, hcalm, -⟩, q', r', hqr, hcalm', -⟩ := hblock o block hf
    rw [hpr, hqr] at heq
    have hverdict : r.verdict = r'.verdict := Except.ok.inj heq
    rw [Bool.eq_iff_iff, ← hcalm', ← hcalm]
    exact (mem_events_iff rfl hverdict).symm
  intro size hsize
  cases hsize with
  | block hf => exact hlength _ _ hf
  | @list s block headers hf hfits hend hd =>
    have hfits' : exceeds q.maxHeaderListSize block.length = false := by
      rw [hlength _ _ hf, hfits]
    have hd' : (q.decodedBlock block).2 = some headers := by
      obtain ⟨x, rfl, -⟩ := h
      exact hd
    obtain ⟨⟨p', r, hpr, -, hlist⟩, q', r', hqr, -, hlist'⟩ := hblock _ _ hf
    rw [hpr, hqr] at heq
    have hverdict : r.verdict = r'.verdict := Except.ok.inj heq
    rw [Bool.eq_iff_iff, ← hlist' s headers rfl hfits' hend hd', ← hlist s headers rfl hfits hend hd]
    exact (mem_events_iff rfl hverdict).symm

theorem agree_receive {framed : Prop} (h : Twin framed p q) (halike : ReceiveAlike p q f) :
    Agree (TwinResult framed) (p.receive f) (q.receive f) := by
  have hframe : p.closed = false → p.transportClosed = false →
      Agree (TwinResult framed) (p.receiveFrame f) (q.receiveFrame f) :=
    fun hopen hup => agree_receiveFrame h (halike hopen hup)
  obtain ⟨x, rfl, hx⟩ := h
  unfold receive act
  apply Agree.ite
  · intro _
    exact ⟨⟨x, rfl, hx⟩, .refl _ _⟩
  · intro hup
    obtain ⟨hopen, hlink⟩ : p.closed = false ∧ p.transportClosed = false := by simpa using hup
    exact hframe hopen hlink

/-- Twins give the same verdicts on a sequence of frames if and only if their limits judge alike
every size that is checked on the way. -/
theorem verdicts_eq_iff (h : Twin False p q) (hp : p.Sound) (frames : List RawFrame) :
    p.verdicts frames = q.verdicts frames ↔ Machine.Meets receive ReceiveAlike p q frames := by
  refine Machine.observe_eq_iff (R := fun p q => Twin False p q ∧ p.Sound) ?_ ?_ frames p q ⟨h, hp⟩
  · intro p q f hpq halike
    refine (agree_receive hpq.1 halike).mono_ok fun a b ha _ hab => ⟨⟨hab.1, ?_⟩, hab.2.verdict⟩
    exact (actionStep_of_act hpq.2 ha).sound hpq.2
  · intro p q f hpq hnot heq
    refine hnot fun hopen hup => judgeAlike_of_verdict hpq.1 hpq.2 ?_
    obtain ⟨x, rfl, -⟩ := hpq.1
    have hdown : ¬ (p.closed || p.transportClosed) = true := by simp [hopen, hup]
    unfold receive act at heq
    dsimp only at heq
    rwa [if_neg hdown, if_neg (show ¬ ((p.beside x).closed || (p.beside x).transportClosed) = true
      from hdown)] at heq

end Observations

end ProtocolState

end Chttp2
