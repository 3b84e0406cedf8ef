import Chttp2.Protocol.Outcome
import Chttp2.Protocol.Safety

/-!
# Streams whose response is awaited

A stream is awaited while it is in the table and its peer has not ended it. A step takes an awaited
stream away exactly when it reports an outcome of it, and makes a stream awaited only by opening it
(`ActionStep.awaited_iff`). Along the frames of a chunk of bytes a stream stays awaited as long as
no outcome is reported (`Received.awaited_iff`), and a response is reported as complete only if
nothing has been reported of its stream before (`Received.completed_first`). The events that end a
connection come with the loss of all streams (`Received.empty_of_fatal`).
-/

set_option autoImplicit false

namespace Chttp2

open ProtocolState

/-- The stream is in the table and its peer has not ended it. -/
def Awaited (t : StreamTable) (id : StreamId) : Prop :=
  ∃ s, t.find? id = some s ∧ s.remoteEndStreamReceived = false

/-- CONNECTION_ERROR, CONNECTION_CLOSED and TRANSPORT_CLOSED: the events that end a connection. -/
def ProtocolEvent.fatal : ProtocolEvent → Bool
  | .connectionError _ | .connectionClosed _ | .transportClosed => true
  | _ => false

section Awaited

variable {id : StreamId} {t : StreamTable} {s : Stream}

theorem awaited_of_find? (h : t.find? id = some s) :
    Awaited t id ↔ s.remoteEndStreamReceived = false := by
  constructor
  · rintro ⟨u, hu, hremote⟩
    rw [h, Option.some.injEq] at hu
    exact hu ▸ hremote
  · exact fun hremote => ⟨s, h, hremote⟩

theorem not_awaited_of_none (h : t.find? id = none) : ¬ Awaited t id := by
  rintro ⟨s, hs, -⟩
  rw [h] at hs
  cases hs

theorem Awaited.mem_keys (h : Awaited t id) : id ∈ t.keys :=
  KeyedTable.mem_keys_of_find? h.choose_spec.1

theorem not_awaited_empty : ¬ Awaited .empty id := not_awaited_of_none rfl

theorem pending_eq_one_iff : pending id t = 1 ↔ Awaited t id := by
  cases h : t.find? id with
  | none =>
    rw [pending_of_find?_none h]
    exact iff_of_false Nat.zero_ne_one (not_awaited_of_none h)
  | some s =>
    rw [pending_of_find? h, awaited_of_find? h]
    cases s.remoteEndStreamReceived <;> simp

theorem pending_eq_zero_iff : pending id t = 0 ↔ ¬ Awaited t id := by
  rw [← pending_eq_one_iff]
  have hle : pending id t ≤ 1 := by
    unfold pending
    split
    · split <;> decide
    · decide
  omega

instance (t : StreamTable) (id : StreamId) : Decidable (Awaited t id) :=
  decidable_of_iff _ pending_eq_one_iff

end Awaited

/-! ## Steps -/

section Steps

variable {clean : Prop} {id : StreamId} {p p' : ProtocolState} {a : Action} {f : RawFrame}
  {r : ProtocolStepResult}

/-- A stream that its peer has ended stays so. -/
theorem ProtocolState.ActionStep.ended (hstep : ActionStep p a p' r) (hid : id ≠ p.nextStreamId)
    (h : ∀ s ∈ p.streams.entries, s.streamId = id → s.remoteEndStreamReceived = true) :
    ∀ s ∈ p'.streams.entries, s.streamId = id → s.remoteEndStreamReceived = true := by
  refine AllStreams.actionStep (P := fun s => s.streamId = id → s.remoteEndStreamReceived = true)
    ⟨fun _ _ hs _ _ _ => hs, fun _ _ hs _ _ _ _ => hs⟩ ?_ (fun _ _ hs => hs)
    (fun _ hnew => absurd hnew.symm hid) hstep h
  exact
    { answered := fun _ _ _ _ => rfl
      openBlock := fun _ _ _ hs _ => hs
      withFragment := fun _ _ hs => hs
      endBlock := fun _ _ hs => hs
      withInformational := fun _ _ hs => hs
      withHeaders := fun _ _ _ hs _ _ => hs
      withTrailers := fun _ _ _ hs _ => hs
      withData := fun _ _ _ _ _ _ hs _ _ => hs }

theorem opened_le_one (id : StreamId) (p : ProtocolState) : Chttp2.opened id p ≤ 1 := by
  rw [Chttp2.opened]
  split <;> decide

/-- A stream is opened only under the next id. -/
theorem openings_eq_zero (htidy : p.Tidy) (haccount : Account id (id ≠ 0 ∧ Fair p a id) p p' r.events)
    (hmem : id ∈ p.streams.keys) : openings id r.events = 0 := by
  have hone : Chttp2.opened id p = 1 := if_pos ⟨htidy.odd id hmem, htidy.lt_next id hmem⟩
  have hle := opened_le_one id p'
  have hbalance := haccount.openings
  omega

/-- A step ends the wait for a stream by reporting an outcome, and starts it by opening the
stream. -/
theorem ProtocolState.ActionStep.awaited_iff (hstep : ActionStep p a p' r) (htidy : p.Tidy)
    (hp : p.closed = true ∨ HeaderState clean p) (hid : id ≠ 0) :
    Awaited p'.streams id ↔
      (Awaited p.streams id ∨ 0 < openings id r.events) ∧ outcomes id r.events = 0 := by
  have haccount := hstep.account htidy hp id
  have hopened : openings id r.events ≤ 1 := by
    have hle := opened_le_one id p'
    have hbalance := haccount.openings
    omega
  -- steps are fair to streams that are not in the table or whose response is pending
  have hbalance : Fair p a id → outcomes id r.events + pending id p'.streams =
      openings id r.events + pending id p.streams := fun hfair => haccount.outcomes ⟨hid, hfair⟩
  rw [← pending_eq_one_iff, ← pending_eq_one_iff]
  cases hfind : p.streams.find? id with
  | none =>
    have h := hbalance fun s hs => by rw [hfind] at hs; cases hs
    rw [pending_of_find?_none hfind] at h ⊢
    omega
  | some s =>
    have hzero := openings_eq_zero htidy haccount (KeyedTable.mem_keys_of_find? hfind)
    by_cases hremote : s.remoteEndStreamReceived = true
    · -- the peer has ended the stream, and nothing starts the wait again
      have hne : id ≠ p.nextStreamId := by
        intro h
        exact absurd (htidy.lt_next id (KeyedTable.mem_keys_of_find? hfind)) (not_lt.2 h.ge)
      have hended := ActionStep.ended hstep hne fun u hu hkey => by
        rw [KeyedTable.mem_iff_find?, hkey, hfind] at hu
        cases hu
        exact hremote
      have hnot : pending id p'.streams = 0 := by
        rw [pending_eq_zero_iff]
        rintro ⟨u, hu, hopen⟩
        have hu' := hended u (KeyedTable.mem_of_find? hu) (KeyedTable.key_of_find? hu)
        rw [hopen] at hu'
        cases hu'
      rw [hnot, pending_of_find? hfind, if_pos hremote, hzero]
      simp
    · have h := hbalance fun u hu hu' => by
        rw [hfind] at hu
        cases hu
        exact absurd hu' hremote
      rw [pending_of_find? hfind, if_neg hremote] at h ⊢
      omega

/-- Nothing is reported twice in a step of a stream that is awaited or not yet there. -/
theorem ProtocolState.ActionStep.outcomes_le (hstep : ActionStep p a p' r) (htidy : p.Tidy)
    (hp : p.closed = true ∨ HeaderState clean p) (hawaited : Awaited p.streams id) :
    outcomes id r.events ≤ 1 := by
  have hmem := hawaited.mem_keys
  have hid : id ≠ 0 := by
    rintro rfl
    cases htidy.odd 0 hmem
  have haccount := hstep.account htidy hp id
  have hfair : Fair p a id := by
    intro s hs hremote
    rw [(awaited_of_find? hs).1 hawaited] at hremote
    cases hremote
  have h := haccount.outcomes ⟨hid, hfair⟩
  rw [openings_eq_zero htidy haccount hmem, pending_eq_one_iff.2 hawaited] at h
  omega

end Steps

/-! ## Completed responses -/

namespace ProtocolState

section Completed

variable {id : StreamId} {resp : Response} {p p' : ProtocolState} {s : Stream} {a : Action}
  {f : RawFrame} {r : ProtocolStepResult}

theorem completed_ending {b : Bool} (hend : Ending p s b p' r)
    (hmem : ProtocolEvent.responseCompleted id resp ∈ r.events) :
    id = s.streamId ∧ resp = s.resp := by
  cases hend with
  | goesOn => cases hmem
  | mismatch => simp [streamFailure, failureEvents] at hmem
  | finished => simpa using hmem
  | answered => simpa using hmem

/-- The block of a stream completes no response of another one. -/
theorem streamId_of_completed {b : Bool} (h : BlockStep p s b p' r)
    (hmem : ProtocolEvent.responseCompleted id resp ∈ r.events) : id = s.streamId := by
  cases h with
  | tooLarge => simp [streamFailure, failureEvents] at hmem
  | rejected => simp [streamFailure, failureEvents] at hmem
  | informational => simp at hmem
  | headers headers cl hd hsize hv hfinal hend =>
    exact (completed_ending hend (by simpa using hmem)).1
  | trailers headers cl hd hsize hv hfinal hconnect hend =>
    exact (completed_ending hend (by simpa using hmem)).1

theorem not_completed_streamFailure (q : ProtocolState) (k : StreamId) (code : ErrorCode)
    (rst : Bool) : .responseCompleted id resp ∉ (q.streamFailure k code rst).events := by
  simp [streamFailure, failureEvents]

theorem not_completed_connectionFailure (q : ProtocolState) (code : ErrorCode) (text : Bytes) :
    .responseCompleted id resp ∉ (q.connectionFailure code text).events := by
  simp only [connectionFailure]
  split <;> simp [failureEvents]

theorem not_completed_bodyStep (h : BodyStep p s p' r) :
    .responseCompleted id resp ∉ r.events := by
  intro hmem
  cases h.events _ hmem

theorem not_completed_bodySteps {ids : List StreamId} (h : BodySteps ids p p' r) :
    .responseCompleted id resp ∉ r.events := by
  intro hmem
  obtain ⟨k, hk⟩ := h.events _ hmem
  cases hk

/-- Frames without header or body bytes complete no response. -/
theorem FrameStep.not_completed (hstep : FrameStep p f p' r) (hdata : f.header.type ≠ .data)
    (hheaders : f.header.type ≠ .headers) (hcontinuation : f.header.type ≠ .continuation) :
    .responseCompleted id resp ∉ r.events := by
  have hfailure : ∀ k code rst, .responseCompleted id resp ∉ (p.streamFailure k code rst).events :=
    not_completed_streamFailure p
  cases hstep with
  | reported h => cases h <;> simp
  | @connectionFailed p₁ _ code text _ hv hd hpre =>
    have hno : .responseCompleted id resp ∉ (p₁.connectionFailure code text).events :=
      not_completed_connectionFailure p₁ code text
    rw [ProtocolStepResult.events_merge, List.mem_append]
    rcases hpre with rfl | ⟨promised, rfl⟩ <;> exact not_or.2 ⟨by simp, hno⟩
  | streamReset =>
    rw [ProtocolStepResult.events_merge, List.mem_append]
    exact not_or.2 ⟨by simp, hfailure _ _ _⟩
  | settingsApplied ht hack happ hbodies =>
    rw [ProtocolStepResult.events_merge, List.mem_append]
    exact not_or.2 ⟨not_completed_bodySteps hbodies, by simp⟩
  | goAway => simp [failureEvents]
  | connectionWindow ht hid hadd hbodies =>
    rw [ProtocolStepResult.events_merge, List.mem_append]
    exact not_or.2 ⟨by simp, not_completed_bodySteps hbodies⟩
  | windowRefused => exact hfailure _ _ _
  | streamWindow s ht hid hfind hadd hbody =>
    rw [ProtocolStepResult.events_merge, List.mem_append]
    exact not_or.2 ⟨by simp, not_completed_bodyStep hbody⟩
  | _ => contradiction

/-- A local operation completes no response. -/
theorem ActionStep.not_completed (hstep : ActionStep p a p' r) (ha : ∀ f, a ≠ .receiveFrame f) :
    .responseCompleted id resp ∉ r.events := by
  cases hstep with
  | opened request rehash hcan hvalid hroom hpos hmax hbody =>
    exact fun hmem => not_completed_bodyStep hbody (by simpa using hmem)
  | cancelled => exact not_completed_streamFailure p _ _ _
  | closed => simp only [closeResult]; split <;> simp [failureEvents]
  | transportLost => simp [failureEvents]
  | frame f => exact absurd rfl (ha f)
  | _ => simp

/-- Only a response that is awaited is completed. -/
theorem FrameStep.awaited_of_completed {clean : Prop} (hstep : FrameStep p f p' r)
    (hp : HeaderState clean p) (hmem : .responseCompleted id resp ∈ r.events) :
    Awaited p.streams id := by
  have hfailure : ∀ k code rst, .responseCompleted id resp ∉ (p.streamFailure k code rst).events :=
    not_completed_streamFailure p
  have hother : f.header.type = .data ∨ f.header.type = .headers ∨
      f.header.type = .continuation := by
    by_contra ht
    rw [not_or, not_or] at ht
    exact hstep.not_completed ht.1 ht.2.1 ht.2.2 hmem
  cases hstep with
  | reported h => cases h <;> simp at hmem
  | @connectionFailed p₁ _ code text _ hv hd hpre =>
    have hno : .responseCompleted id resp ∉ (p₁.connectionFailure code text).events :=
      not_completed_connectionFailure p₁ code text
    rw [ProtocolStepResult.events_merge, List.mem_append] at hmem
    rcases hpre with rfl | ⟨promised, rfl⟩ <;> exact absurd (hmem.resolve_left (by simp)) hno
  | dataStored s ht hfind hopen hfinal htake hbody hend =>
    have hkey := KeyedTable.key_of_find? hfind
    obtain ⟨rfl, -⟩ := completed_ending hend (by simpa using hmem)
    exact ⟨s, hkey ▸ hfind, pending_of_not_refuses hopen⟩
  | headersBlock s ht hfind hopen hend hblock =>
    have hkey := KeyedTable.key_of_find? hfind
    have hid : id = s.streamId := (streamId_of_completed hblock hmem :)
    exact ⟨s, by rw [hid, hkey]; exact hfind, pending_of_not_refuses hopen⟩
  | continuationBlock s ht hexp hid hfind hend hblock =>
    -- the stream has waited for this frame, so its peer has not ended it
    have hkey := KeyedTable.key_of_find? hfind
    have hok := hp.streams.find hfind
    have hsid : id = s.streamId := (streamId_of_completed hblock hmem :)
    exact ⟨s, by rw [hsid, hkey]; exact hfind, hok.remote (hok.waiting.2 ⟨hexp, hid.trans hkey.symm⟩)⟩
  | dataRefused | dataOnBodiless | headersRefused => exact absurd hmem (hfailure _ _ _)
  | dataOnRemoved | ghostHeaders | ghostHeadersOpen | headersOpen | ghostContinuationOpen
  | ghostContinuation | continuationOpen => cases hmem
  | _ => simp_all

end Completed

end ProtocolState

/-! ## The end of the connection -/

section Harmless

variable {id : StreamId} {p p' : ProtocolState} {f : RawFrame} {r : ProtocolStepResult}

/-- None of the events ends the connection. -/
def Harmless (events : List ProtocolEvent) : Prop := ∀ e ∈ events, e.fatal = false

theorem harmless_nil : Harmless [] := by simp [Harmless]

@[simp] theorem harmless_cons {e : ProtocolEvent} {events : List ProtocolEvent} :
    Harmless (e :: events) ↔ e.fatal = false ∧ Harmless events := by
  simp [Harmless]

@[simp] theorem harmless_append {a b : List ProtocolEvent} :
    Harmless (a ++ b) ↔ Harmless a ∧ Harmless b := by
  simp [Harmless, or_imp, forall_and]

theorem harmless_failureEvents (code : ErrorCode) (ids : List StreamId) :
    Harmless (ids.flatMap (failureEvents code)) := by
  intro e he
  obtain ⟨id, -, hmem⟩ := List.mem_flatMap.1 he
  simp only [failureEvents, List.mem_cons, List.not_mem_nil, or_false] at hmem
  rcases hmem with rfl | rfl <;> rfl

theorem harmless_streamFailure (p : ProtocolState) (k : StreamId) (code : ErrorCode) (rst : Bool) :
    Harmless (p.streamFailure k code rst).events := by
  simp [Harmless, ProtocolEvent.fatal, streamFailure, failureEvents]

theorem harmless_bodyStep {s : Stream} (hstep : BodyStep p s p' r) : Harmless r.events := by
  intro e he
  rw [hstep.events e he]
  rfl

theorem harmless_bodySteps {ids : List StreamId} (hsteps : BodySteps ids p p' r) :
    Harmless r.events := by
  intro e he
  obtain ⟨id, rfl⟩ := hsteps.events e he
  rfl

theorem harmless_ending {s : Stream} {b : Bool} (hend : Ending p s b p' r) :
    Harmless r.events := by
  cases hend <;> simp [Harmless, ProtocolEvent.fatal, streamFailure, failureEvents]

theorem harmless_blockStep {s : Stream} {b : Bool} (hstep : BlockStep p s b p' r) :
    Harmless r.events := by
  cases hstep with
  | tooLarge => exact harmless_streamFailure p _ _ _
  | rejected => exact harmless_streamFailure p _ _ _
  | informational => simp [Harmless, ProtocolEvent.fatal]
  | headers headers cl hd hsize hv hfinal hend =>
    exact harmless_cons.2 ⟨rfl, (harmless_ending hend :)⟩
  | trailers headers cl hd hsize hv hfinal hconnect hend =>
    exact harmless_cons.2 ⟨rfl, (harmless_ending hend :)⟩

/-- A frame that ends the connection takes all its streams away, and completes no response. -/
theorem ProtocolState.FrameStep.harmless_or_closed (hstep : FrameStep p f p' r) :
    Harmless r.events ∨ (p'.closed = true ∧ p'.streams = .empty ∧
      ∀ id response, .responseCompleted id response ∉ r.events) := by
  cases hstep with
  | reported h =>
    refine Or.inl ?_
    cases h <;> simp [Harmless, ProtocolEvent.fatal]
  | connectionFailed hv hd hpre =>
    refine Or.inr ⟨rfl, rfl, fun id response => ?_⟩
    rw [ProtocolStepResult.merge, List.mem_append, not_or]
    refine ⟨?_, not_completed_connectionFailure _ _ _⟩
    rcases hpre with rfl | ⟨promised, rfl⟩ <;> simp
  | dataRefused => exact Or.inl (harmless_streamFailure p _ _ _)
  | dataOnRemoved => exact Or.inl harmless_nil
  | dataOnBodiless => exact Or.inl (harmless_streamFailure p _ _ _)
  | dataStored s ht hfind hopen hfinal htake hbody hend => exact Or.inl (harmless_ending hend :)
  | headersRefused => exact Or.inl (harmless_streamFailure p _ _ _)
  | ghostHeaders => exact Or.inl harmless_nil
  | ghostHeadersOpen => exact Or.inl harmless_nil
  | headersOpen => exact Or.inl harmless_nil
  | headersBlock s ht hfind hopen hend hblock => exact Or.inl (harmless_blockStep hblock :)
  | streamReset => exact Or.inl (harmless_cons.2 ⟨rfl, harmless_streamFailure p _ _ _⟩)
  | settingsApplied ht hack happ hbodies =>
    exact Or.inl (harmless_append.2
      ⟨(harmless_bodySteps hbodies :), harmless_cons.2 ⟨rfl, harmless_nil⟩⟩)
  | goAway ht hg => exact Or.inl (harmless_cons.2 ⟨rfl, harmless_failureEvents _ _⟩)
  | connectionWindow ht hid hadd hbodies =>
    exact Or.inl (harmless_cons.2 ⟨rfl, (harmless_bodySteps hbodies :)⟩)
  | windowRefused => exact Or.inl (harmless_streamFailure p _ _ _)
  | streamWindow s ht hid hfind hadd hbody =>
    exact Or.inl (harmless_cons.2 ⟨rfl, (harmless_bodyStep hbody :)⟩)
  | ghostContinuationOpen => exact Or.inl harmless_nil
  | ghostContinuation => exact Or.inl harmless_nil
  | continuationOpen => exact Or.inl harmless_nil
  | continuationBlock s ht hexp hid hfind hend hblock => exact Or.inl (harmless_blockStep hblock :)

end Harmless

/-! ## Runs of frames -/

/-- The state is reached by some run of actions. -/
def Reached (config : ClientConfig) (p : ProtocolState) : Prop :=
  ∃ tr, Runs (ofConfig config) tr p

/-- The state is reached from another one by receiving frames, with the given events. -/
inductive Received : ProtocolState → List ProtocolEvent → ProtocolState → Prop
  | nil (p : ProtocolState) : Received p [] p
  | cons {p p₁ p' : ProtocolState} {f : RawFrame} {r : ProtocolStepResult}
      {events : List ProtocolEvent} (hact : p.act (.receiveFrame f) = .ok (p₁, r))
      (hrest : Received p₁ events p') : Received p (r.events ++ events) p'

section Received

variable {config : ClientConfig} {id : StreamId} {p p' : ProtocolState} {a : Action}
  {r : ProtocolStepResult} {events : List ProtocolEvent}

theorem Reached.ofConfig (config : ClientConfig) : Reached config (ofConfig config) :=
  ⟨[], .nil⟩

theorem Reached.act (h : Reached config p) (hact : p.act a = .ok (p', r)) : Reached config p' := by
  obtain ⟨tr, hr⟩ := h
  exact ⟨_, .snoc hr hact⟩

theorem Reached.sound (h : Reached config p) : p.Sound := by
  obtain ⟨tr, hr⟩ := h
  exact sound_of_runs hr

theorem Reached.tidy (h : Reached config p) : p.Tidy := by
  obtain ⟨tr, hr⟩ := h
  exact tidy_of_runs hr

theorem Reached.headers (h : Reached config p) : p.closed = true ∨ HeaderState True p := by
  obtain ⟨tr, hr⟩ := h
  exact headerState_of_runs hr

theorem Reached.step (h : Reached config p) (hact : p.act a = .ok (p', r)) :
    ActionStep p a p' r :=
  actionStep_of_act h.sound hact

/-- A closed connection awaits nothing. -/
theorem Reached.not_awaited (h : Reached config p) (hclosed : p.closed = true) :
    ¬ Awaited p.streams id := by
  intro hawaited
  have hmem := hawaited.mem_keys
  rw [h.tidy.closed hclosed] at hmem
  exact List.not_mem_nil hmem

theorem Awaited.ne_zero (h : Reached config p) (hawaited : Awaited p.streams id) : id ≠ 0 := by
  rintro rfl
  cases h.tidy.odd 0 hawaited.mem_keys

/-- An operation of the protocol stays within the reached states. -/
theorem Reached.apply {p p' : Http2Protocol} {op : Http2Protocol.Op}
    (h : Reached config p.state) (hop : p.apply op = .ok (p', r)) : Reached config p'.state := by
  rcases Http2Protocol.apply_refined h.sound op with ⟨q, o, more, heq, hmore, -, -⟩ | ⟨e, heq, -⟩
  · rw [hop] at heq
    cases heq
    obtain ⟨tr, hr⟩ := h
    exact ⟨_, hr.append hmore⟩
  · rw [hop] at heq
    cases heq

/-- A local operation is one action. -/
theorem act_of_lift {p p' : Http2Protocol} (hop : p.lift (p.state.act a) = .ok (p', r)) :
    p.state.act a = .ok (p'.state, r) := by
  unfold Http2Protocol.lift at hop
  cases hact : p.state.act a with
  | error e =>
    rw [hact] at hop
    cases hop
  | ok result =>
    rw [hact] at hop
    cases hop
    rfl

theorem received_of_receiveFrames (fuel : Nat) :
    ∀ p p' : Http2Protocol, ∀ r, Reached config p.state → p.state.closed = false →
      p.state.transportClosed = false → Http2Protocol.receiveFrames fuel p = .ok (p', r) →
      Received p.state r.events p'.state := by
  induction fuel with
  | zero =>
    intro p p' r _ _ _ h
    cases h
    exact .nil _
  | succ fuel ih =>
    intro p p' r hp hopen hup h
    rcases p.frameCodec.tryPop_cases with hpop | ⟨f, codec, hpop, -⟩
    · simp only [Http2Protocol.receiveFrames, hpop, ok_bind] at h
      cases h
      exact .nil _
    simp only [Http2Protocol.receiveFrames, hpop, ok_bind] at h
    rcases receiveFrame_cases hp.sound f with ⟨state, first, heq, hstep⟩ | ⟨e, heq, -⟩
    · have hact : p.state.act (.receiveFrame f) = .ok (state, first) := by
        simpa [ProtocolState.act, hopen, hup] using heq
      rw [heq] at h
      simp only [ok_bind] at h
      by_cases hclosed : state.closed = true
      · rw [if_pos hclosed] at h
        cases h
        rw [← List.append_nil r.events]
        exact .cons hact (.nil _)
      rw [if_neg hclosed] at h
      cases hrest : Http2Protocol.receiveFrames fuel ⟨codec, state⟩ with
      | error e =>
        rw [hrest] at h
        cases h
      | ok result =>
        rw [hrest] at h
        cases h
        refine .cons hact (ih ⟨codec, state⟩ _ _ (hp.act hact) (by simpa using hclosed) ?_ hrest)
        exact hstep.steady.transportClosed.trans hup
    · rw [heq] at h
      cases h

/-- A chunk of bytes is received frame by frame. -/
theorem received_of_receiveBytes {p p' : Http2Protocol} {data : Bytes} (hp : Reached config p.state)
    (h : p.receiveBytes data = .ok (p', r)) : Received p.state r.events p'.state := by
  unfold Http2Protocol.receiveBytes at h
  by_cases hdead : (p.state.closed || p.state.transportClosed) = true
  · rw [if_pos hdead] at h
    cases h
    exact .nil _
  · rw [if_neg hdead] at h
    have hlive : p.state.closed = false ∧ p.state.transportClosed = false := by simpa using hdead
    exact received_of_receiveFrames _ { p with frameCodec := p.frameCodec.feed data } p' r hp
      hlive.1 hlive.2 h

/-- Receiving a frame opens no stream. -/
theorem openings_receiveFrame {f : RawFrame} (hp : Reached config p)
    (hact : p.act (.receiveFrame f) = .ok (p', r)) : openings id r.events = 0 := by
  have hstep := hp.step hact
  have hbalance := (hstep.account hp.tidy hp.headers id).openings
  cases hstep with
  | frameIgnored => rfl
  | frame f hopen hup hframe =>
    have hsame : opened id p' = opened id p := by
      rw [opened, opened, hframe.steady.nextStreamId]
    rw [hsame] at hbalance
    exact Nat.add_eq_right.1 hbalance

/-- Along received frames a stream is awaited as long as no outcome of it is reported. -/
theorem Received.awaited_iff (h : Received p events p') (hp : Reached config p) (hid : id ≠ 0) :
    Awaited p'.streams id ↔ Awaited p.streams id ∧ outcomes id events = 0 := by
  induction h with
  | nil => simp
  | cons hact hrest ih =>
    have hstep := (hp.step hact).awaited_iff hp.tidy hp.headers hid
    rw [openings_receiveFrame hp hact] at hstep
    rw [ih (hp.act hact), hstep, outcomes_append]
    simp only [lt_irrefl, or_false, Nat.add_eq_zero_iff, and_assoc]

theorem Received.reached (h : Received p events p') (hp : Reached config p) : Reached config p' := by
  induction h with
  | nil => exact hp
  | cons hact _ ih => exact ih (hp.act hact)

/-- A closed connection receives nothing. -/
theorem Received.nil_of_closed (h : Received p events p') (hclosed : p.closed = true) :
    events = [] ∧ p' = p := by
  induction h with
  | nil => exact ⟨rfl, rfl⟩
  | cons hact hrest ih =>
    simp only [ProtocolState.act, hclosed, Bool.true_or, if_true] at hact
    cases hact
    exact ih hclosed

/-- Frames that end the connection leave no streams. -/
theorem Received.harmless_or_closed (h : Received p events p') (hp : Reached config p) :
    Harmless events ∨ p'.closed = true := by
  induction h with
  | nil => exact Or.inl harmless_nil
  | @cons p p₁ p' f r events hact hrest ih =>
    have hstep := hp.step hact
    have hfirst : Harmless r.events ∨ p₁.closed = true := by
      cases hstep with
      | frameIgnored => exact Or.inl harmless_nil
      | frame f hopen hup hframe => exact hframe.harmless_or_closed.imp_right And.left
    rcases hfirst with hharmless | hclosed
    · exact (ih (hp.act hact)).imp_left fun hmore => harmless_append.2 ⟨hharmless, hmore⟩
    · obtain ⟨-, rfl⟩ := hrest.nil_of_closed hclosed
      exact Or.inr hclosed

/-- Only responses that are awaited are completed. -/
theorem Received.awaited_of_completed (h : Received p events p') (hp : Reached config p)
    {response : Response} (hmem : .responseCompleted id response ∈ events) :
    Awaited p.streams id := by
  induction h with
  | nil => cases hmem
  | @cons p p₁ p' f r events hact hrest ih =>
    have hstep := hp.step hact
    rcases List.mem_append.1 hmem with hmem | hmem
    · cases hstep with
      | frameIgnored => cases hmem
      | frame f hopen hup hframe =>
        have hstate : HeaderState True p := hp.headers.resolve_left (by simp [hopen])
        exact hframe.awaited_of_completed hstate hmem
    · have hnext := ih (hp.act hact) hmem
      have hiff := hstep.awaited_iff hp.tidy hp.headers (hnext.ne_zero (hp.act hact))
      rw [openings_receiveFrame hp hact] at hiff
      exact (hiff.1 hnext).1.resolve_right (lt_irrefl 0)

/-- Before a response is reported as complete, nothing has been reported of its stream and the
connection has not ended. -/
theorem Received.completed_first (h : Received p events p') (hp : Reached config p)
    {response : Response} {before after : List ProtocolEvent}
    (heq : events = before ++ .responseCompleted id response :: after) :
    outcomes id before = 0 ∧ Harmless before := by
  induction h generalizing before with
  | nil => cases before <;> cases heq
  | @cons p p₁ p' f r events hact hrest ih =>
    have hstep := hp.step hact
    have hawaited := (Received.cons hact hrest).awaited_of_completed hp
      (heq ▸ List.mem_append_right _ List.mem_cons_self)
    have hid := hawaited.ne_zero hp
    -- a later frame completes the response
    have hlater : ∀ mid, before = r.events ++ mid →
        events = mid ++ .responseCompleted id response :: after →
        outcomes id before = 0 ∧ Harmless before := by
      rintro mid rfl hrest'
      have hnext := hrest.awaited_of_completed (hp.act hact)
        (hrest' ▸ List.mem_append_right _ List.mem_cons_self)
      have hfirst : Harmless r.events := by
        rcases (Received.cons hact (.nil p₁)).harmless_or_closed hp with hharmless | hclosed
        · simpa using hharmless
        · exact absurd hnext ((hp.act hact).not_awaited hclosed)
      have hzero := ((hstep.awaited_iff hp.tidy hp.headers hid).1 hnext).2
      obtain ⟨hmid, hharmless⟩ := ih (hp.act hact) hrest'
      exact ⟨by rw [outcomes_append, hzero, hmid], harmless_append.2 ⟨hfirst, hharmless⟩⟩
    rcases List.append_eq_append_iff.1 heq with ⟨mid, hbefore, hrest'⟩ | ⟨mid, hr, hmid⟩
    · exact hlater mid hbefore hrest'
    cases mid with
    | nil => exact hlater [] (by simpa using hr.symm) (by simpa using hmid.symm)
    | cons e mid =>
      obtain rfl : e = .responseCompleted id response := (List.cons.inj hmid).1.symm
      -- the frame itself completes the response, and reports nothing else of the stream
      refine ⟨?_, ?_⟩
      · have hone := hstep.outcomes_le hp.tidy hp.headers hawaited
        have hself : outcomes id (.responseCompleted id response :: mid) = outcomes id mid + 1 :=
          List.countP_cons_of_pos (by simp [ProtocolEvent.settles])
        rw [hr, outcomes_append, hself] at hone
        omega
      · cases hstep with
        | frameIgnored => cases before <;> cases hr
        | frame f hopen hup hframe =>
          rcases hframe.harmless_or_closed with hharmless | ⟨-, -, hno⟩
          · rw [hr] at hharmless
            exact (harmless_append.1 hharmless).1
          · exact absurd (hr ▸ List.mem_append_right _ List.mem_cons_self) (hno id response)

/-! ## Operations -/

/-- What an operation does to the streams that are awaited: it ends the wait for those of which it
reports an outcome, and starts it for the one that it opens. -/
structure Settled (p p' : ProtocolState) (submitted : Option StreamId)
    (events : List ProtocolEvent) : Prop where
  awaited : ∀ id, Awaited p'.streams id ↔
    (Awaited p.streams id ∨ submitted = some id) ∧ outcomes id events = 0
  harmless_or_closed : Harmless events ∨ p'.closed = true

theorem settled_receiveBytes {p p' : Http2Protocol} {data : Bytes} (hp : Reached config p.state)
    (hop : p.apply (.receiveBytes data) = .ok (p', r)) :
    Settled p.state p'.state none r.events := by
  have hreceived := received_of_receiveBytes hp hop
  refine ⟨fun id => ?_, hreceived.harmless_or_closed hp⟩
  simp only [reduceCtorEq, or_false]
  by_cases hid : id = 0
  · subst hid
    exact iff_of_false (fun h => h.ne_zero (hp.apply hop) rfl) fun h => h.1.ne_zero hp rfl
  · exact hreceived.awaited_iff hp hid

/-- An action that opens the stream it has submitted. -/
theorem settled_of_act (hp : Reached config p) (hact : p.act a = .ok (p', r))
    (hopened : ∀ id, 0 < openings id r.events ↔ r.submittedStreamId = some id)
    (hharmless : Harmless r.events) : Settled p p' r.submittedStreamId r.events := by
  refine ⟨fun id => ?_, Or.inl hharmless⟩
  rw [← hopened id]
  by_cases hid : id = 0
  · subst hid
    refine iff_of_false (fun h => h.ne_zero (hp.act hact) rfl) fun h => ?_
    have hbalance := ((hp.step hact).account hp.tidy hp.headers 0).openings
    have hnever : ∀ q : ProtocolState, opened 0 q = 0 := fun q => if_neg (by simp)
    rw [hnever, hnever] at hbalance
    exact h.1.elim (fun h => h.ne_zero hp rfl) fun h => absurd hbalance (Nat.ne_of_gt h)
  · exact (hp.step hact).awaited_iff hp.tidy hp.headers hid

/-- A submitted stream is awaited from then on. -/
theorem settled_submitted {request : Request} {rehash : Reorder Stream} (hp : Reached config p)
    (hact : p.act (.submitRequest request rehash) = .ok (p', r)) :
    Settled p p' r.submittedStreamId r.events := by
  refine settled_of_act hp hact (fun id => ?_) ?_
  · cases hp.step hact with
    | refused => simp [openings, ProtocolEvent.opens]
    | opened _ _ hcan hvalid hroom hpos hmax hbody =>
      have hself := KeyedTable.find?_set_self (t := (p.opening request rehash).streams)
        (a := p.openedStream request) (KeyedTable.mem_keys_insert.2 (Or.inl rfl))
      have hzero := (@ledger_bodyStep id True _ _ _ _ hbody hself).openings
      by_cases hid : p.nextStreamId = id
      · simp [openings, ProtocolEvent.opens, hid]
      · simpa [openings, ProtocolEvent.opens, hid] using hzero
  · cases hp.step hact with
    | refused => simp [Harmless, ProtocolEvent.fatal]
    | opened _ _ hcan hvalid hroom hpos hmax hbody =>
      exact harmless_cons.2 ⟨rfl, harmless_bodyStep hbody⟩

theorem settled_submitRequest {p p' : Http2Protocol} {request : Request} {rehash : Reorder Stream}
    (hp : Reached config p.state) (hop : p.apply (.submitRequest request rehash) = .ok (p', r)) :
    Settled p.state p'.state r.submittedStreamId r.events :=
  settled_submitted hp (act_of_lift hop)

/-- A cancelled stream is awaited no more. -/
theorem settled_cancelled {id : StreamId} {code : ErrorCode} (hp : Reached config p)
    (hact : p.act (.cancelStream id code) = .ok (p', r)) :
    Settled p p' none r.events ∧ ¬ Awaited p'.streams id := by
  have hsettled := settled_of_act hp hact
  cases hp.step hact with
  | cancelIgnored _ _ h =>
    refine ⟨hsettled (by simp) harmless_nil, ?_⟩
    exact h.elim hp.not_awaited not_awaited_of_none
  | cancelled _ _ s hopen hfind =>
    refine ⟨hsettled (fun k => ?_) (harmless_streamFailure p id code true), ?_⟩
    · simp [streamFailure, failureEvents, openings, ProtocolEvent.opens]
    · refine not_awaited_of_none ?_
      rw [← KeyedTable.key_of_find? hfind]
      exact KeyedTable.find?_erase_self _ _

theorem settled_cancelStream {p p' : Http2Protocol} {id : StreamId} {code : ErrorCode}
    (hp : Reached config p.state) (hop : p.apply (.cancelStream id code) = .ok (p', r)) :
    Settled p.state p'.state none r.events ∧ ¬ Awaited p'.state.streams id :=
  settled_cancelled hp (act_of_lift hop)

/-- Closing a connection, and losing its transport, leaves nothing awaited. -/
theorem closed_of_shutdown {op : Http2Protocol.Op} {p p' : Http2Protocol}
    (hp : Reached config p.state) (hshut : op = .close ∨ op = .onTransportClosed)
    (hop : p.apply op = .ok (p', r)) : p'.state.closed = true := by
  have hclosed : ∀ {q q' : ProtocolState}, Reached config q →
      q.act .close = .ok (q', r) ∨ q.act .onTransportClosed = .ok (q', r) → q'.closed = true := by
    rintro q q' hq (hact | hact)
    · cases hq.step hact with
      | closedAgain h => exact h
      | closed => rfl
    · cases hq.step hact with
      | transportLost => rfl
      | transportLostAgain => rfl
  rcases hshut with rfl | rfl
  · exact hclosed hp (Or.inl (act_of_lift hop))
  · exact hclosed hp (Or.inr (act_of_lift hop))

/-- Starting a connection and sending a PING leave the streams as they are. -/
theorem streams_of_quiet {op : Http2Protocol.Op} {p p' : Http2Protocol}
    (hp : Reached config p.state) (hquiet : op = .start ∨ op = .sendPing)
    (hop : p.apply op = .ok (p', r)) : p'.state.streams = p.state.streams := by
  have hstreams : ∀ {q q' : ProtocolState}, Reached config q →
      q.act .start = .ok (q', r) ∨ q.act .sendPing = .ok (q', r) → q'.streams = q.streams := by
    rintro q q' hq (hact | hact)
    · cases hq.step hact <;> rfl
    · cases hq.step hact <;> rfl
  rcases hquiet with rfl | rfl
  · exact hstreams hp (Or.inl (act_of_lift hop))
  · exact hstreams hp (Or.inr (act_of_lift hop))

end Received

end Chttp2
