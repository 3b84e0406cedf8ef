import Chttp2.Protocol.DeadStreams
import Chttp2.Protocol.StreamTable

/-!
# Streams are isolated

A frame on one stream, a cancellation or a submission leaves all other streams alone
(`streams_isolated`): their records are unchanged, and no event or outbound frame is about them.
`LeavesAlone` is the frame condition that is proved case by case; streams have odd ids, so that
events about the connection and about promised streams are about none of them.
-/

set_option autoImplicit false

namespace Chttp2

/-! ## What a result is about -/

/-- The streams that an event is about. -/
def ProtocolEvent.streamIds : ProtocolEvent → List StreamId
  | .streamOpened id => [id]
  | .streamHeadersReceived id _ => [id]
  | .streamResetReceived id _ => [id]
  | .streamClosed id _ => [id]
  | .windowUpdateReceived id _ => [id]
  | .pushPromiseReceived id promised => [id, promised]
  | .unknownFrameReceived _ id _ _ => [id]
  | .responseCompleted id _ => [id]
  | .responseFailed id _ => [id]
  | .connectionStarted | .settingsReceived | .settingsAckReceived | .pingReceived _
  | .pingAckReceived _ | .goAwaySent _ _ _ | .goAwayReceived _ _ _ | .connectionError _
  | .connectionClosed _ | .transportClosed => []

/-- The id is not the id of another stream of this client than `id`. -/
def Own (id t : StreamId) : Prop := t = id ∨ t % 2 = 0

/-- The result is about the stream `id`, the connection or promised streams. -/
structure AboutOnly (id : StreamId) (r : ProtocolStepResult) : Prop where
  events : ∀ e ∈ r.events, ∀ t ∈ e.streamIds, Own id t
  outbound : ∀ b ∈ r.outbound, Own id b.streamId

section AboutOnly

variable {id : StreamId} {r r' : ProtocolStepResult}

theorem AboutOnly.empty (id : StreamId) : AboutOnly id {} := ⟨by simp, by simp⟩

theorem AboutOnly.merge (h : AboutOnly id r) (h' : AboutOnly id r') : AboutOnly id (r.merge r') where
  events := by
    intro e he
    rcases List.mem_append.1 he with he | he
    · exact h.events e he
    · exact h'.events e he
  outbound := by
    intro b hb
    rcases List.mem_append.1 hb with hb | hb
    · exact h.outbound b hb
    · exact h'.outbound b hb

theorem AboutOnly.event {e : ProtocolEvent} (h : ∀ t ∈ e.streamIds, Own id t) :
    AboutOnly id { events := [e] } := ⟨by simpa using h, by simp⟩

/-- An event about the stream. -/
theorem AboutOnly.streamEvent {e : ProtocolEvent} (h : e.streamIds = [id]) :
    AboutOnly id { events := [e] } :=
  .event fun _ ht => Or.inl (List.mem_singleton.1 (h ▸ ht))

/-- An event about no stream. -/
theorem AboutOnly.connectionEvent {e : ProtocolEvent} (h : e.streamIds = []) :
    AboutOnly id { events := [e] } :=
  .event fun _ ht => (List.not_mem_nil (h ▸ ht)).elim

theorem AboutOnly.outboundOnly {out : List OutboundBuffer} (h : ∀ b ∈ out, Own id b.streamId) :
    AboutOnly id { outbound := out } := ⟨by simp, h⟩

end AboutOnly

namespace ProtocolState

/-- All other streams than `id` keep their records, and the result is not about them. -/
structure LeavesAlone (p : ProtocolState) (id : StreamId) (p' : ProtocolState)
    (r : ProtocolStepResult) : Prop where
  others : ∀ t, t ≠ id → p'.streams.find? t = p.streams.find? t
  about : AboutOnly id r

variable {p p' : ProtocolState} {s : Stream} {f : RawFrame} {r : ProtocolStepResult}

/-! ## The parts of a step -/

theorem aboutOnly_streamFailure (p : ProtocolState) (id : StreamId) (code : ErrorCode) (rst : Bool) :
    AboutOnly id (p.streamFailure id code rst) where
  events := by
    have hclosed : AboutOnly id { events := [.streamClosed id code] } := .streamEvent rfl
    have hfailed : AboutOnly id { events := [.responseFailed id code] } := .streamEvent rfl
    exact (hclosed.merge hfailed).events
  outbound := by
    intro b hb
    rcases p.streamFailure_outbound id code rst with h | h
    · rw [h] at hb
      exact (List.not_mem_nil hb).elim
    · rw [h] at hb
      obtain rfl := List.mem_singleton.1 hb
      exact Or.inl rfl

theorem own_refreshFrames {id k : StreamId} (hk : Own id k) (n : Int) :
    ∀ b ∈ refreshFrames k n, Own id b.streamId := by
  intro b hb
  rcases refreshFrames_cases k n with h | h
  · rw [h] at hb
    exact (List.not_mem_nil hb).elim
  · rw [h] at hb
    obtain rfl := List.mem_singleton.1 hb
    exact hk

theorem leavesAlone_bodyStep (h : BodyStep p s p' r) : LeavesAlone p s.streamId p' r := by
  have hframes : ∀ b ∈ r.outbound, Own s.streamId b.streamId := by
    obtain ⟨frames, heq, hid⟩ := h.outbound
    rw [heq]
    intro b hb
    obtain ⟨f, hf, rfl⟩ := List.mem_map.1 hb
    exact Or.inl (hid f hf)
  cases h with
  | idle => exact ⟨fun _ _ => rfl, .empty _⟩
  | partly => exact ⟨fun t ht => KeyedTable.find?_set_ne _ ht, .outboundOnly hframes⟩
  | wholly => exact ⟨fun t ht => KeyedTable.find?_set_ne _ ht, .outboundOnly hframes⟩
  | finished =>
    exact ⟨fun t ht => KeyedTable.find?_erase_ne _ ht,
      ⟨(AboutOnly.streamEvent rfl).events, hframes⟩⟩

theorem leavesAlone_ending {b : Bool} (h : Ending p s b p' r) : LeavesAlone p s.streamId p' r := by
  cases h with
  | goesOn => exact ⟨fun t ht => KeyedTable.find?_set_ne _ ht, .empty _⟩
  | mismatch =>
    exact ⟨fun t ht => KeyedTable.find?_erase_ne _ ht, aboutOnly_streamFailure _ _ _ _⟩
  | finished =>
    exact ⟨fun t ht => KeyedTable.find?_erase_ne _ ht,
      (AboutOnly.streamEvent (e := .responseCompleted s.streamId s.resp) rfl).merge
        (.streamEvent (e := .streamClosed s.streamId .noError) rfl)⟩
  | answered =>
    exact ⟨fun t ht => KeyedTable.find?_set_ne _ ht, .streamEvent rfl⟩

theorem BlockStep.leavesAlone {b : Bool} (h : BlockStep p s b p' r) :
    LeavesAlone p s.streamId p' r := by
  cases h with
  | tooLarge =>
    exact ⟨fun t ht => KeyedTable.find?_erase_ne _ ht, aboutOnly_streamFailure _ _ _ _⟩
  | rejected =>
    exact ⟨fun t ht => KeyedTable.find?_erase_ne _ ht, aboutOnly_streamFailure _ _ _ _⟩
  | informational =>
    exact ⟨fun t ht => KeyedTable.find?_set_ne _ ht, .streamEvent rfl⟩
  | headers headers cl hd hsize hv hfinal hend =>
    have hrest := (leavesAlone_ending hend :)
    exact ⟨hrest.others, (AboutOnly.streamEvent rfl).merge hrest.about⟩
  | trailers headers cl hd hsize hv hfinal hconnect hend =>
    have hrest := (leavesAlone_ending hend :)
    exact ⟨hrest.others, (AboutOnly.streamEvent rfl).merge hrest.about⟩

/-! ## Received frames -/

theorem closed_of_failConnection {code : ErrorCode} {text : String}
    (h : (.ok (p.failConnection code text) : Step) = .ok (p', r)) : p'.closed = true := by
  obtain ⟨ghost, hfailed⟩ := p.failConnection_eq code text
  rw [hfailed] at h
  cases h
  rfl

/-- SETTINGS, PING and GOAWAY frames on a stream close the connection. -/
theorem closed_of_streamFrame (hid : f.header.streamId ≠ 0)
    (ht : f.header.type = .settings ∨ f.header.type = .ping ∨ f.header.type = .goAway)
    (h : p.receiveFrame f = .ok (p', r)) : p'.closed = true := by
  unfold receiveFrame at h
  split at h
  · exact closed_of_failConnection h
  split at h
  · exact closed_of_failConnection h
  split at h
  · exact closed_of_failConnection h
  rcases ht with ht | ht | ht
  · simp only [ht, processSettingFrame, if_pos hid] at h
    exact closed_of_failConnection h
  · simp only [ht, processPingFrame, if_pos hid] at h
    exact closed_of_failConnection h
  · simp only [ht, processGoAwayFrame, if_pos hid] at h
    exact closed_of_failConnection h

/-- A PUSH_PROMISE frame that the connection survives promises a stream with an even id. -/
theorem leavesAlone_pushPromise (ht : f.header.type = .pushPromise)
    (h : p.receiveFrame f = .ok (p', r)) (hopen : p'.closed = false) :
    LeavesAlone p f.header.streamId p' r := by
  have hfail : ∀ {code text}, (.ok (p.failConnection code text) : Step) ≠ .ok (p', r) := by
    intro code text heq
    rw [closed_of_failConnection heq] at hopen
    cases hopen
  unfold receiveFrame at h
  split at h
  · exact (hfail h).elim
  split at h
  · exact (hfail h).elim
  split at h
  · exact (hfail h).elim
  simp only [ht, processPushPromiseFrame] at h
  split at h
  · exact (hfail h).elim
  obtain ⟨verdict, -, h⟩ := bind_eq_ok.1 h
  cases verdict with
  | some code => exact (hfail h).elim
  | none =>
    obtain ⟨push, -, h⟩ := bind_eq_ok.1 h
    split at h
    · exact (hfail h).elim
    rename_i hparity
    split at h
    · exact (hfail h).elim
    split at h
    · obtain ⟨ghost, heq⟩ := p.failConnection_eq .protocolError "server push disabled"
      rw [heq] at h
      cases h
      cases hopen
    · cases h
      have heven : push.promisedStreamId % 2 = 0 := by omega
      refine ⟨fun _ _ => rfl, .event fun t ht => ?_⟩
      rcases List.mem_cons.1 ht with rfl | ht
      · exact Or.inl rfl
      · exact Or.inr (List.mem_singleton.1 ht ▸ heven)

/-- Frames that are answered or reported are about their stream or the connection. -/
theorem Report.aboutOnly (h : Report p f r) (ht : f.header.type ≠ .pushPromise) :
    AboutOnly f.header.streamId r := by
  cases h with
  | priority => exact .empty _
  | priorityLength => exact .outboundOnly fun b hb => Or.inl (List.mem_singleton.1 hb ▸ rfl)
  | lateReset => exact .empty _
  | settingsAck => exact .connectionEvent rfl
  | pushPromise ht' => exact (ht ht').elim
  | pingAck => exact .connectionEvent rfl
  | ping ht' hack frame hid =>
    have hout : ∀ b ∈ [OutboundBuffer.ping frame], Own f.header.streamId b.streamId := by
      intro b hb
      obtain rfl := List.mem_singleton.1 hb
      exact Or.inr (by rw [OutboundBuffer.streamId, hid])
    exact ⟨(AboutOnly.connectionEvent rfl).events, hout⟩
  | lateZeroWindow => exact .empty _
  | lateWindow => exact .streamEvent rfl
  | unknown => exact .streamEvent rfl

/-- Failing a stream leaves the others alone. -/
theorem leavesAlone_removed {q q' : ProtocolState} {id : StreamId}
    (hfind : p.streams.find? id = some s) (hq : q.streams = p.streams.erase s.streamId)
    (code : ErrorCode) (rst : Bool) : LeavesAlone p id q (q'.streamFailure id code rst) := by
  refine ⟨fun t hne => ?_, aboutOnly_streamFailure _ _ _ _⟩
  rw [hq, KeyedTable.key_of_find? hfind]
  exact KeyedTable.find?_erase_ne _ hne

/-- A frame on a stream leaves the other streams alone unless it closes the connection. -/
theorem leavesAlone_of_receiveFrame (hp : p.Sound) (hid : f.header.streamId ≠ 0)
    (h : p.receiveFrame f = .ok (p', r)) (hopen : p'.closed = false) :
    LeavesAlone p f.header.streamId p' r := by
  by_cases hpush : f.header.type = .pushPromise
  · exact leavesAlone_pushPromise hpush h hopen
  have hkey : ∀ {s : Stream}, p.streams.find? f.header.streamId = some s →
      s.streamId = f.header.streamId := KeyedTable.key_of_find?
  rcases receiveFrame_cases hp f with ⟨q, o, heq, hstep⟩ | ⟨e, heq, -⟩
  · rw [h] at heq
    cases heq
    cases hstep with
    | reported hr => exact ⟨fun _ _ => rfl, hr.aboutOnly hpush⟩
    | connectionFailed => cases hopen
    | dataRefused s ht hfind => exact leavesAlone_removed hfind rfl _ _
    | dataOnRemoved =>
      exact ⟨fun _ _ => rfl, .outboundOnly (own_refreshFrames (Or.inr rfl) _)⟩
    | dataOnBodiless s ht hfind => exact leavesAlone_removed hfind rfl _ _
    | dataStored s ht hfind hrefuses hfinal htake hbody hend =>
      have hrest : LeavesAlone _ s.streamId _ _ := (leavesAlone_ending hend :)
      rw [hkey hfind] at hrest
      refine ⟨hrest.others, AboutOnly.merge (.outboundOnly fun b hb => ?_) hrest.about⟩
      rcases List.mem_append.1 hb with hb | hb
      · exact own_refreshFrames (Or.inr rfl) _ b hb
      · exact own_refreshFrames (Or.inl rfl) _ b hb
    | headersRefused s ht hfind => exact leavesAlone_removed hfind rfl _ _
    | ghostHeaders => exact ⟨fun _ _ => rfl, .empty _⟩
    | ghostHeadersOpen => exact ⟨fun _ _ => rfl, .empty _⟩
    | headersOpen s ht hfind =>
      refine ⟨fun t hne => KeyedTable.find?_set_ne _ ?_, .empty _⟩
      show t ≠ s.streamId
      rwa [hkey hfind]
    | headersBlock s ht hfind hrefuses hend hblock =>
      have hrest : LeavesAlone _ s.streamId _ _ := (hblock.leavesAlone :)
      rwa [hkey hfind] at hrest
    | streamReset s code ht hfind =>
      have hrest : LeavesAlone p f.header.streamId (p.removeStream s)
          (p.streamFailure f.header.streamId code false) := leavesAlone_removed hfind rfl _ _
      exact ⟨hrest.others, (AboutOnly.streamEvent rfl).merge hrest.about⟩
    -- settings and GOAWAY belong on stream 0, so here they close the connection
    | settingsApplied ht =>
      rw [closed_of_streamFrame hid (Or.inl ht) h] at hopen
      cases hopen
    | goAway ht =>
      have hclosed := closed_of_streamFrame hid (Or.inr (Or.inr ht)) h
      rw [hclosed] at hopen
      cases hopen
    | connectionWindow ht hzero => exact (hid hzero).elim
    | windowRefused s ht hne hfind => exact leavesAlone_removed hfind rfl _ _
    | streamWindow s ht hne hfind hadd hbody =>
      have hrest : LeavesAlone _ s.streamId _ _ := (leavesAlone_bodyStep hbody :)
      rw [hkey hfind] at hrest
      refine ⟨fun t hne => ?_, (AboutOnly.streamEvent rfl).merge hrest.about⟩
      rw [hrest.others t hne]
      refine KeyedTable.find?_set_ne _ ?_
      show t ≠ s.streamId
      rwa [hkey hfind]
    | ghostContinuationOpen => exact ⟨fun _ _ => rfl, .empty _⟩
    | ghostContinuation => exact ⟨fun _ _ => rfl, .empty _⟩
    | continuationOpen s ht hexp hcont hfind =>
      refine ⟨fun t hne => KeyedTable.find?_set_ne _ ?_, .empty _⟩
      show t ≠ s.streamId
      rwa [hkey hfind]
    | continuationBlock s ht hexp hcont hfind hend hblock =>
      have hrest : LeavesAlone _ s.streamId _ _ := (hblock.leavesAlone :)
      rw [hkey hfind] at hrest
      exact ⟨hrest.others, hrest.about⟩
  · rw [h] at heq
    cases heq

/-! ## Local operations -/

theorem leavesAlone_cancelStream (p : ProtocolState) (id : StreamId) (code : ErrorCode) :
    LeavesAlone p id (p.cancelStream id code).1 (p.cancelStream id code).2 := by
  unfold cancelStream
  split
  · exact ⟨fun _ _ => rfl, .empty _⟩
  cases hfind : p.streams.find? id with
  | none =>
    rw [failStream_of_none hfind]
    exact ⟨fun _ _ => rfl, .empty _⟩
  | some s =>
    rw [failStream_eq hfind]
    exact leavesAlone_removed hfind rfl _ _

theorem streamId_emitContinuations (maxFrameSize : Nat) (id : StreamId) (fuel : Nat) :
    ∀ span, ∀ b ∈ emitContinuations maxFrameSize id fuel span, b.streamId = id := by
  induction fuel with
  | zero => exact fun _ _ hb => (List.not_mem_nil hb).elim
  | succ fuel ih =>
    intro span b hb
    rw [emitContinuations] at hb
    split at hb
    · exact (List.not_mem_nil hb).elim
    · rcases List.mem_cons.1 hb with rfl | hb
      · dsimp only [OutboundBuffer.streamId]
        split <;> rfl
      · exact ih _ b hb

/-- The request headers are sent on the stream that is opened. -/
theorem streamId_requestHeaderFrames (request : Request) :
    ∀ b ∈ p.requestHeaderFrames request, b.streamId = p.nextStreamId := by
  intro b hb
  simp only [requestHeaderFrames, emitRequestHeaders] at hb
  rcases List.mem_cons.1 hb with rfl | hb
  · dsimp only [OutboundBuffer.streamId]
    split_ifs <;> rfl
  · rw [streamId_emitContinuations _ _ _ _ b hb]
    split <;> rfl

theorem leavesAlone_submitRequest {request : Request} {rehash : Reorder Stream}
    (h : ActionStep p (.submitRequest request rehash) p' r) :
    LeavesAlone p p.nextStreamId p' r := by
  cases h with
  | refused =>
    refine ⟨fun _ _ => rfl, .event fun t ht => Or.inr ?_⟩
    rw [List.mem_singleton.1 ht]
  | @opened _ _ _ r hcan hvalid hroom hpos hmax hbody =>
    have hrest : LeavesAlone _ p.nextStreamId _ _ := (leavesAlone_bodyStep hbody :)
    have hopened : AboutOnly p.nextStreamId
        { outbound := p.requestHeaderFrames request, events := [.streamOpened p.nextStreamId] } :=
      ⟨(AboutOnly.streamEvent rfl).events,
        fun b hb => Or.inl (streamId_requestHeaderFrames request b hb)⟩
    have hall := hopened.merge hrest.about
    refine ⟨fun t hne => ?_, hall.events, hall.outbound⟩
    rw [hrest.others t hne, find?_opening, if_neg hne]

/-! ## All other streams -/

/-- The record of the stream is unchanged, and the result is not about it. -/
structure Untouched (t : StreamId) (p p' : ProtocolState) (r : ProtocolStepResult) : Prop where
  record : p'.streams.find? t = p.streams.find? t
  events : ∀ e ∈ r.events, t ∉ e.streamIds
  outbound : ∀ b ∈ r.outbound, b.streamId ≠ t

theorem LeavesAlone.untouched {id t : StreamId} (h : LeavesAlone p id p' r) (hp : p.Tidy)
    (ht : t ∈ p.streams.keys) (hne : t ≠ id) : Untouched t p p' r := by
  have hodd := hp.odd t ht
  have hother : ¬ Own id t := by
    rintro (heq | heven)
    · exact hne heq
    · rw [hodd] at heven
      cases heven
  exact ⟨h.others t hne, fun e he hmem => hother (h.about.events e he t hmem),
    fun b hb heq => hother (heq ▸ h.about.outbound b hb)⟩

/-- In every reached state, a frame on another stream that does not close the connection, the
cancellation of another stream and the submission of a request leave a stream of the table untouched. -/
theorem streams_isolated {config : ClientConfig} {tr : List OperationEntry}
    (h : Machine.Runs operate (ofConfig config) tr p) {t : StreamId} (ht : t ∈ p.streams.keys) :
    (∀ f p' r, f.header.streamId ≠ 0 → t ≠ f.header.streamId →
      p.act (.receiveFrame f) = .ok (p', r) → p'.closed = false → Untouched t p p' r) ∧
    (∀ id code p' r, t ≠ id → p.act (.cancelStream id code) = .ok (p', r) →
      Untouched t p p' r) ∧
    ∀ request rehash p' r, p.act (.submitRequest request rehash) = .ok (p', r) →
      Untouched t p p' r := by
  have hinv := tableInvariant_of_runs h
  refine ⟨?_, ?_, ?_⟩
  · intro f p' r hid hne hact hopen
    have hstep := actionStep_of_act hinv.sound hact
    have hwas : p.closed = false := hstep.open_of_open hopen
    cases hstep with
    | frameIgnored f => exact ⟨rfl, by simp, by simp⟩
    | frame f hopen' hup =>
      have hreceive : p.receiveFrame f = .ok (p', r) := by
        simpa [act, hwas, hup] using hact
      exact (leavesAlone_of_receiveFrame hinv.sound hid hreceive hopen).untouched hinv.tidy ht hne
  · intro id code p' r hne hact
    have hcancel : p.cancelStream id code = (p', r) := Except.ok.inj hact
    have hleaves := p.leavesAlone_cancelStream id code
    rw [hcancel] at hleaves
    exact hleaves.untouched hinv.tidy ht hne
  · intro request rehash p' r hact
    have hne : t ≠ p.nextStreamId := (hinv.tidy.lt_next t ht).ne
    exact (leavesAlone_submitRequest (actionStep_of_act hinv.sound hact)).untouched hinv.tidy ht hne

/-- Of two streams one is reset, and the other is untouched. -/
theorem streams_isolated_from_reset :
    ∃ tr p, Machine.Runs operate (ofConfig {}) tr p ∧ 1 ∈ p.streams.keys ∧ 3 ∈ p.streams.keys ∧
      ∃ p' r, p.act (.receiveFrame resetFrame) = .ok (p', r) ∧ p'.streams.keys = [3] ∧
        Untouched 3 p p' r := by
  have hrun : (Machine.run operate (ofConfig {}) [.act .start,
      .act (.submitRequest getRequest (.id _)), .act (.submitRequest postRequest (.id _)),
      .act (.receiveFrame emptySettingsFrame)]).map (fun x => (decide (1 ∈ x.1.streams.keys),
        decide (3 ∈ x.1.streams.keys), (x.1.act (.receiveFrame resetFrame)).map fun y =>
          (y.1.closed, y.1.streams.keys))) = .ok (true, true, .ok (false, [3])) := by
    decide +kernel
  obtain ⟨p, tr, hr, -, hresult⟩ := Machine.exists_runs_of_map hrun
  simp only [Prod.mk.injEq, decide_eq_true_eq] at hresult
  obtain ⟨h1, h3, hreset⟩ := hresult
  cases hact : p.act (.receiveFrame resetFrame) with
  | error e =>
    rw [hact] at hreset
    cases hreset
  | ok result =>
    rw [hact] at hreset
    obtain ⟨hopen, hrest⟩ := Prod.mk.inj (Except.ok.inj hreset)
    exact ⟨tr, p, hr, h1, h3, result.1, result.2, hact, hrest,
      (streams_isolated hr h3).1 resetFrame result.1 result.2 (by decide) (by decide) hact hopen⟩

end ProtocolState

end Chttp2
