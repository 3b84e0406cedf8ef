import Chttp2.Session.Agreement

/-!
# Submitting a request

A submission that the protocol accepts registers its context or, if the request has been cancelled
meanwhile, reports it as done (`submit_accepted`). A submission that the protocol refuses ends in
neither: the refusal is an event of stream 0, and no context is registered for that stream
(`submit_refused`). `submit_reports_iff` puts the cases together.

The events of a submission say nothing about other requests, and nothing about the connection
(`reportsOnly_submit`).
-/

set_option autoImplicit false

namespace Chttp2

namespace ProtocolState

variable {p : ProtocolState} {request : Request}

/-- The checks of `submitRequest` let the request through. -/
structure Accepts (p : ProtocolState) (request : Request) : Prop where
  canSubmit : p.canSubmitRequests = true
  valid : request.isValid = true
  room : p.streams.size < p.maxConcurrentStreams
  id_ne : p.nextStreamId ≠ 0
  id_le : p.nextStreamId ≤ 0x7fffffff - 1

theorem submitRequest_accepted (h : p.Accepts request) (rehash : Reorder Stream) :
    ∃ p' r, p.submitRequest request rehash = .ok (p', r) ∧
      r.submittedStreamId = some p.nextStreamId := by
  obtain ⟨p', r, heq, -⟩ := p.openStream_eq request rehash
  have hid : ¬ (p.nextStreamId = 0 ∨ p.nextStreamId > 0x7fffffff - 1) :=
    not_or.2 ⟨h.id_ne, not_lt.2 h.id_le⟩
  refine ⟨p', { outbound := p.requestHeaderFrames request ++ r.outbound
                events := .streamOpened p.nextStreamId :: r.events
                submittedStreamId := some p.nextStreamId }, ?_, rfl⟩
  rw [submitRequest, if_neg (by simp [h.canSubmit]), if_neg (by simp [h.valid]),
    if_neg (not_le.2 h.room), if_neg hid, heq]

/-- A refusal changes nothing and is reported for stream 0. -/
theorem submitRequest_refused (h : ¬ p.Accepts request) (rehash : Reorder Stream) :
    ∃ code, p.submitRequest request rehash = .ok (p, { events := [.responseFailed 0 code] }) := by
  unfold submitRequest
  split
  · exact ⟨_, rfl⟩
  rename_i hcan
  split
  · exact ⟨_, rfl⟩
  rename_i hvalid
  split
  · exact ⟨_, rfl⟩
  rename_i hroom
  split
  · exact ⟨_, rfl⟩
  rename_i hid
  exact (h ⟨by simpa using hcan, by simpa using hvalid, not_le.1 hroom, fun h0 => hid (Or.inl h0),
    not_lt.1 fun hlt => hid (Or.inr hlt)⟩).elim

end ProtocolState

/-- A context that has been registered for a stream, after it had not been for any, is there once. -/
theorem registrations_insert_self {κ : Type} [DecidableEq κ] {t : ContextTable κ} {context : κ}
    (h : registrations context t = 0) (σ : Reorder (StreamId × κ)) (k : StreamId) :
    registrations context (t.insert σ (k, context)) = 1 := by
  have hle := registrations_erase_le (c := context) t k
  have hrest : registrations context (t.erase k) = 0 := Nat.le_zero.1 (hle.trans h.le)
  rw [registrations, (KeyedTable.perm_insert t σ _).countP_eq, List.countP_cons]
  exact congrArg₂ (· + ·) hrest (if_pos (decide_eq_true rfl))

namespace Http2Session

open ProtocolState

variable {κ : Type} {s : Http2Session κ} {request : Request} {context : κ}

/-- The context is registered for a stream, or it is reported as done exactly once. -/
def Answered [DecidableEq κ] (context : κ) (s' : Http2Session κ) (events : List (SessionEvent κ)) :
    Prop :=
  0 < registrations context s'.streamContexts ∨ completions context events = 1

variable [DecidableEq κ]

/-- A refused request is not reported, and its context is not registered. -/
theorem submit_refused (hnew : registrations context s.streamContexts = 0)
    (hhealthy : s.isHealthy = true) (h : ¬ s.protocol.state.Accepts request)
    (canceled finished : Bool) (rehash : Reorder Stream) (rehashContexts : Reorder (StreamId × κ)) :
    ∃ s' events, s.submit request context canceled finished rehash rehashContexts =
        .ok (s', events) ∧
      completions context events = 0 ∧ registrations context s'.streamContexts = 0 := by
  obtain ⟨code, hrefused⟩ := submitRequest_refused h rehash
  have happly : s.protocol.apply (.submitRequest request rehash) =
      .ok (s.protocol, { events := [.responseFailed 0 code] }) := by
    rw [Http2Protocol.apply, hrefused]
    rfl
  have hbalance := completions_absorb (c := context) s s.protocol
    { events := [.responseFailed 0 code] }
  rw [hnew] at hbalance
  refine ⟨_, _, ?_, (Nat.add_eq_zero_iff.1 hbalance).1, (Nat.add_eq_zero_iff.1 hbalance).2⟩
  rw [submit, if_neg (by simp [hhealthy]), happly]
  rfl

/-- An accepted request is registered or reported, and not both. -/
theorem submit_accepted (hnew : registrations context s.streamContexts = 0)
    (hhealthy : s.isHealthy = true) (h : s.protocol.state.Accepts request)
    (canceled finished : Bool) (rehash : Reorder Stream) (rehashContexts : Reorder (StreamId × κ)) :
    ∃ s' events, s.submit request context canceled finished rehash rehashContexts =
        .ok (s', events) ∧
      completions context events + registrations context s'.streamContexts = 1 := by
  obtain ⟨state, r, haccepted, hid⟩ := submitRequest_accepted h rehash
  have happly : s.protocol.apply (.submitRequest request rehash) =
      .ok ({ s.protocol with state }, r) := by
    rw [Http2Protocol.apply, haccepted]
    rfl
  have hbalance := completions_absorb (c := context)
    (s.register rehashContexts s.protocol.state.nextStreamId context) { s.protocol with state } r
  rw [register, registrations_insert_self hnew] at hbalance
  rw [submit, if_neg (by simp [hhealthy]), happly]
  simp only [ok_bind, hid]
  split
  · obtain ⟨s', more, hcancel⟩ : ∃ s' more, ((s.register rehashContexts
        s.protocol.state.nextStreamId context).absorb { s.protocol with state } r).1.cancelStream
          s.protocol.state.nextStreamId = .ok (s', more) := ⟨_, _, rfl⟩
    have hmore := completions_cancelStream (c := context) hcancel
    rw [register] at hcancel hmore
    rw [hcancel]
    refine ⟨s', _, rfl, ?_⟩
    rw [completions_append, Nat.add_assoc, hmore, hbalance]
  · exact ⟨_, _, rfl, hbalance⟩

/-- For every state of a session and every context that is not registered: the submission leaves the
context registered or reports it exactly once if and only if the session is not healthy, and says so
itself, or the protocol accepts the request. -/
theorem submit_reports_iff (s : Http2Session κ) (request : Request) (context : κ)
    (hnew : registrations context s.streamContexts = 0) (canceled finished : Bool)
    (rehash : Reorder Stream) (rehashContexts : Reorder (StreamId × κ)) :
    ∃ s' events, s.submit request context canceled finished rehash rehashContexts =
        .ok (s', events) ∧
      (Answered context s' events ↔
        s.isHealthy = false ∨ s.protocol.state.Accepts request) := by
  cases hhealthy : s.isHealthy with
  | false =>
    refine ⟨s, [.requestDone context
      (.protocolError .refusedStream (ascii "Session not healthy"))], ?_, ?_⟩
    · rw [submit, if_pos (by simp [hhealthy])]
      rfl
    · refine iff_of_true (Or.inr ?_) (Or.inl rfl)
      rw [completions_requestDone, if_pos rfl]
  | true =>
    by_cases h : s.protocol.state.Accepts request
    · obtain ⟨s', events, heq, hsum⟩ :=
        submit_accepted hnew hhealthy h canceled finished rehash rehashContexts
      refine ⟨s', events, heq, iff_of_true ?_ (Or.inr h)⟩
      unfold Answered
      omega
    · obtain ⟨s', events, heq, hdone, hregistered⟩ :=
        submit_refused hnew hhealthy h canceled finished rehash rehashContexts
      refine ⟨s', events, heq, iff_of_false ?_ ?_⟩
      · unfold Answered
        omega
      · simp [h]

/-- A second request on a started session, cancelled while it is submitted. -/
theorem submit_reports_second_request :
    ∃ tr, ∃ s : Http2Session Nat, Machine.Runs apply (.ofConfig {}) tr s ∧ s.isHealthy = true ∧
      registrations 5 s.streamContexts = 1 ∧
      ∃ s' events, s.submit getRequest 7 true false (.id _) (.id _) = .ok (s', events) ∧
        Answered 7 s' events := by
  have hrun : (Machine.run apply (.ofConfig {}) [.start true,
      .submit getRequest (5 : Nat) false false (.id _) (.id _)]).map (fun x =>
        (x.1.isHealthy, registrations 5 x.1.streamContexts, registrations 7 x.1.streamContexts,
          x.1.protocol.state.canSubmitRequests,
          decide (x.1.protocol.state.streams.size < x.1.protocol.state.maxConcurrentStreams),
          x.1.protocol.state.nextStreamId)) = .ok (true, 1, 0, true, true, 3) := by
    decide +kernel
  obtain ⟨s, tr, hr, -, hresult⟩ := Machine.exists_runs_of_map hrun
  simp only [Prod.mk.injEq, decide_eq_true_eq] at hresult
  obtain ⟨hhealthy, hother, hnew, hcan, hroom, hnext⟩ := hresult
  have haccepts : s.protocol.state.Accepts getRequest :=
    ⟨hcan, rfl, hroom, by rw [hnext]; decide, by rw [hnext]; decide⟩
  obtain ⟨s', events, heq, hanswered⟩ :=
    submit_reports_iff s getRequest 7 hnew true false (.id _) (.id _)
  exact ⟨tr, s, hr, hhealthy, hother, s', events, heq, hanswered.2 (Or.inr haccepts)⟩

/-- A started session swallows a request without headers. -/
theorem invalid_request_swallowed :
    ∃ tr, ∃ s s' : Http2Session Nat, ∃ events, Machine.Runs apply (.ofConfig {}) tr s ∧
      registrations 7 s.streamContexts = 0 ∧
      s.submit {} 7 false false (.id _) (.id _) = .ok (s', events) ∧
      ¬ Answered 7 s' events := by
  have hrun : (Machine.run apply (.ofConfig {}) [.start true]).map (fun x =>
      (registrations (7 : Nat) x.1.streamContexts, x.1.isHealthy)) = .ok (0, true) := by
    decide +kernel
  obtain ⟨s, tr, hr, -, hresult⟩ := Machine.exists_runs_of_map hrun
  obtain ⟨hnew, hhealthy⟩ := Prod.mk.inj hresult
  have hinvalid : ¬ s.protocol.state.Accepts {} := fun h => Bool.noConfusion (h.valid.symm.trans rfl)
  obtain ⟨s', events, heq, hdone, hregistered⟩ :=
    submit_refused hnew hhealthy hinvalid false false (.id _) (.id _)
  refine ⟨tr, s, s', events, hr, hnew, heq, ?_⟩
  unfold Answered
  omega

end Http2Session

/-! ## The events of a submission -/

section Events

open ProtocolState

variable {config : ClientConfig} {p p' : ProtocolState} {r : ProtocolStepResult}

/-- Cancelling a stream fails it, if it is there. -/
theorem events_cancelStream {id : StreamId} {code : ErrorCode} (hp : Reached config p)
    (hact : p.act (.cancelStream id code) = .ok (p', r)) :
    r.events = [] ∨ r.events = failureEvents code id := by
  cases hp.step hact with
  | cancelIgnored => exact Or.inl rfl
  | cancelled => exact Or.inr rfl

/-- A submission is refused in the name of stream 0, or it opens a stream and perhaps closes it. -/
theorem events_submitRequest {request : Request} {rehash : Reorder Stream} (hp : Reached config p)
    (hact : p.act (.submitRequest request rehash) = .ok (p', r)) :
    (r.submittedStreamId = none ∧ ∃ code, r.events = [.responseFailed 0 code]) ∨
      ∀ e ∈ r.events, (∃ id, e = .streamOpened id) ∨ ∃ id code, e = .streamClosed id code := by
  cases hp.step hact with
  | refused _ _ code => exact Or.inl ⟨rfl, code, rfl⟩
  | opened _ _ hcan hvalid hroom hpos hmax hbody =>
    refine Or.inr (List.forall_mem_cons.2 ⟨Or.inl ⟨_, rfl⟩, fun e he => ?_⟩)
    exact Or.inr ⟨_, _, hbody.events e he⟩

end Events

namespace Http2Session

section Reports

open ProtocolState

variable {κ : Type} {s s' : Http2Session κ} {context : κ} {config : ClientConfig}
  {events : List (SessionEvent κ)}

/-- The events say nothing but that a context is done. -/
def ReportsOnly (context : κ) (events : List (SessionEvent κ)) : Prop :=
  ∀ e ∈ events, ∃ response, e = .requestDone context response

theorem ReportsOnly.nil : ReportsOnly context [] := fun _ he => absurd he List.not_mem_nil

theorem ReportsOnly.append {more : List (SessionEvent κ)} (h : ReportsOnly context events)
    (hmore : ReportsOnly context more) : ReportsOnly context (events ++ more) :=
  List.forall_mem_append.2 ⟨h, hmore⟩

/-- The stream has the context, or none. -/
def Holds (s : Http2Session κ) (streamId : StreamId) (context : κ) : Prop :=
  ∀ kv, s.streamContexts.find? streamId = some kv → kv.2 = context

/-- Events that the session takes no notice of leave it as it is. -/
theorem translateEvents_ignored (pes : List ProtocolEvent) (s : Http2Session κ)
    (h : ∀ pe ∈ pes, s.translateEvent pe = (s, [])) : s.translateEvents pes = (s, []) := by
  induction pes with
  | nil => rfl
  | cons pe pes ih =>
    obtain ⟨hfirst, hrest⟩ := List.forall_mem_cons.1 h
    rw [translateEvents, hfirst]
    simp only [ih hrest, List.append_nil]

/-- Finishing a stream reports its context, and the stream has none from then on. -/
theorem Holds.finishStream {streamId : StreamId} (h : s.Holds streamId context)
    (response : Response) :
    (s.finishStream streamId response).1.Holds streamId context ∧
      ReportsOnly context (s.finishStream streamId response).2 := by
  constructor
  · intro kv hkv
    rw [finishStream_fst, KeyedTable.find?_erase_self] at hkv
    cases hkv
  · unfold Http2Session.finishStream
    split
    · rename_i kv hfind
      intro e he
      rw [List.mem_singleton.1 he, h kv hfind]
      exact ⟨response, rfl⟩
    · exact .nil

theorem Holds.cancelStream {streamId : StreamId} (hs : InStep config s)
    (h : s.Holds streamId context) (hop : s.cancelStream streamId = .ok (s', events)) :
    ReportsOnly context events := by
  obtain ⟨protocol, r, happly, -, rfl⟩ := cancelStream_cases hop
  have habsorbed : (s.absorb protocol r).1.Holds streamId context ∧
      ReportsOnly context (s.absorb protocol r).2 := by
    rw [absorb]
    rcases events_cancelStream hs.reached (act_of_lift happly) with hnone | hfailed
    · rw [hnone]
      exact ⟨h, .nil⟩
    · -- the end of the stream is reported with its failure
      rw [hfailed]
      simp only [failureEvents, translateEvents, translateEvent, List.nil_append, List.append_nil]
      exact Holds.finishStream (s := s.consumeStepResult protocol r) h _
  exact habsorbed.2.append (habsorbed.1.finishStream _).2

/-- A submission reports nothing but that its own request is done. -/
theorem InStep.reportsOnly_submit {request : Request} {canceled finished : Bool}
    {rehash : Reorder Stream} {rehashContexts : Reorder (StreamId × κ)} (h : InStep config s)
    (hop : s.submit request context canceled finished rehash rehashContexts = .ok (s', events)) :
    ReportsOnly context events := by
  rcases submit_cases hop with ⟨-, rfl⟩ | ⟨protocol, r, happly, hcases⟩
  · exact fun e he => ⟨_, List.mem_singleton.1 he⟩
  rcases events_submitRequest h.reached (act_of_lift happly) with ⟨hnone, code, hrefused⟩ | hopened
  · rcases hcases with ⟨-, heq⟩ | ⟨streamId, hsome, -⟩
    · -- no context is registered for stream 0
      have hzero : s.Holds 0 context := by
        intro kv hkv
        have hmem := KeyedTable.mem_keys_of_find? hkv
        exact absurd rfl (((h.agrees 0).1 hmem).ne_zero h.reached)
      have hevents : events = (s.absorb protocol r).2 := congrArg Prod.snd heq
      rw [hevents, Http2Session.absorb, hrefused]
      simp only [translateEvents, translateEvent, List.append_nil]
      exact (Holds.finishStream (s := s.consumeStepResult protocol r) hzero _).2
    · rw [hnone] at hsome
      cases hsome
  have hignored : ∀ s₁ : Http2Session κ,
      s₁.absorb protocol r = (s₁.consumeStepResult protocol r, []) := by
    refine fun s₁ => translateEvents_ignored r.events _ fun pe hpe => ?_
    rcases hopened pe hpe with ⟨id, rfl⟩ | ⟨id, code, rfl⟩ <;> rfl
  rcases hcases with ⟨-, heq⟩ | ⟨streamId, hsome, hcases⟩
  · rw [hignored] at heq
    rw [(Prod.mk.inj heq).2]
    exact .nil
  have hregistered : InStep config
      ((s.register rehashContexts streamId context).absorb protocol r).1 := by
    refine .absorb (fun id => ?_) (h.reached.apply happly) (settled_submitRequest h.reached happly)
    rw [register, KeyedTable.mem_keys_insert, h.agrees id, hsome, Option.some.injEq, or_comm,
      eq_comm]
  rw [hignored] at hcases hregistered
  rcases hcases with heq | ⟨more, hcancel, rfl⟩
  · rw [(Prod.mk.inj heq).2]
    exact .nil
  · refine ReportsOnly.nil.append (Holds.cancelStream hregistered (fun kv hkv => ?_) hcancel)
    have hself : (s.streamContexts.insert rehashContexts (streamId, context)).find? streamId =
        some (streamId, context) := by
      rw [KeyedTable.find?_insert, if_pos rfl]
    exact Option.some.inj (hself.symm.trans hkv) ▸ rfl

end Reports

end Http2Session

end Chttp2
