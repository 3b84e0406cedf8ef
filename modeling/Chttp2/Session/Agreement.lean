import Chttp2.Protocol.Awaited
import Chttp2.Session.State

/-!
# The contexts of a session and the streams of its protocol

A session holds the context of a stream exactly as long as the protocol awaits the response on it
(`agreement_of_runs`). Every context that leaves the table does so with a REQUEST_DONE, so that no
context is reported as done more often than it was submitted (`completions_le_submissions`).
-/

set_option autoImplicit false

namespace Chttp2

/-! ## Accounts -/

section Accounts

variable {κ : Type} [DecidableEq κ]

/-- REQUEST_DONE of a context. -/
def SessionEvent.finishes (c : κ) : SessionEvent κ → Bool
  | .requestDone context _ => context = c
  | _ => false

/-- The number of REQUEST_DONE events of a context. -/
def completions (c : κ) (events : List (SessionEvent κ)) : Nat :=
  events.countP (SessionEvent.finishes c)

/-- The number of streams that a context is registered for. -/
def registrations (c : κ) (t : ContextTable κ) : Nat := t.entries.countP fun kv => kv.2 = c

variable {c : κ} {t : ContextTable κ} {a b : List (SessionEvent κ)}

@[simp] theorem completions_nil : completions c [] = 0 := rfl

@[simp] theorem completions_append : completions c (a ++ b) = completions c a + completions c b :=
  List.countP_append

@[simp] theorem completions_requestDone (context : κ) (response : Response) :
    completions c [.requestDone context response] = if context = c then 1 else 0 := by
  simp [completions, SessionEvent.finishes, List.countP_cons]

@[simp] theorem registrations_empty : registrations c .empty = 0 := rfl

theorem registrations_erase {k : StreamId} {kv : StreamId × κ} (h : t.find? k = some kv) :
    (if kv.2 = c then 1 else 0) + registrations c (t.erase k) = registrations c t := by
  unfold registrations
  rw [(KeyedTable.perm_erase h).countP_eq, List.countP_cons]
  simp only [decide_eq_true_eq]
  exact Nat.add_comm _ _

theorem registrations_erase_le (t : ContextTable κ) (k : StreamId) :
    registrations c (t.erase k) ≤ registrations c t :=
  List.Sublist.countP_le List.filter_sublist

/-- Registering a context may drop another one, never add one. -/
theorem registrations_insert_le (t : ContextTable κ) (σ : Reorder (StreamId × κ)) (k : StreamId)
    (context : κ) : registrations c (t.insert σ (k, context)) ≤
      (if context = c then 1 else 0) + registrations c t := by
  have hle := registrations_erase_le (c := c) t k
  rw [registrations, (KeyedTable.perm_insert t σ _).countP_eq, List.countP_cons]
  simp only [decide_eq_true_eq]
  rw [Nat.add_comm]
  exact Nat.add_le_add_left hle _

end Accounts

namespace Http2Session

open ProtocolState

variable {κ : Type}

/-! ## Translated events -/

section Translation

variable {k : StreamId}

theorem finishStream_fst (s : Http2Session κ) (streamId : StreamId) (response : Response) :
    (s.finishStream streamId response).1 =
      { s with streamContexts := s.streamContexts.erase streamId } := by
  cases h : s.streamContexts.find? streamId with
  | none =>
    rw [KeyedTable.erase_of_not_mem (KeyedTable.find?_eq_none_iff.1 h)]
    simp only [finishStream, h]
  | some kv => simp only [finishStream, h]

theorem mem_keys_finishStream (s : Http2Session κ) (streamId : StreamId) (response : Response) :
    k ∈ (s.finishStream streamId response).1.streamContexts.keys ↔
      k ∈ s.streamContexts.keys ∧ k ≠ streamId := by
  rw [finishStream_fst, KeyedTable.keys_erase, List.mem_filter, decide_eq_true_eq]

theorem translateEvent_protocol (s : Http2Session κ) (e : ProtocolEvent) :
    (s.translateEvent e).1.protocol = s.protocol := by
  cases e with
  | responseCompleted streamId response =>
    exact (congrArg Http2Session.protocol (finishStream_fst s streamId response) :)
  | responseFailed streamId errorCode =>
    exact (congrArg Http2Session.protocol (finishStream_fst s streamId _) :)
  | _ => rfl

theorem translateEvents_protocol (pes : List ProtocolEvent) :
    ∀ s : Http2Session κ, (s.translateEvents pes).1.protocol = s.protocol := by
  induction pes with
  | nil => exact fun _ => rfl
  | cons pe pes ih => exact fun s => (ih _).trans (translateEvent_protocol s pe)

/-- A stream loses its context by an outcome, or by the end of the connection. -/
theorem mem_keys_translateEvent (s : Http2Session κ) (e : ProtocolEvent) :
    k ∈ (s.translateEvent e).1.streamContexts.keys ↔
      k ∈ s.streamContexts.keys ∧ e.settles k = false ∧ e.fatal = false := by
  cases e with
  | responseCompleted streamId response =>
    refine (mem_keys_finishStream s streamId response).trans ?_
    simp [ProtocolEvent.settles, ProtocolEvent.fatal, eq_comm]
  | responseFailed streamId errorCode =>
    refine (mem_keys_finishStream s streamId _).trans ?_
    simp [ProtocolEvent.settles, ProtocolEvent.fatal, eq_comm]
  | _ => simp [translateEvent, failAllStreams, ProtocolEvent.settles, ProtocolEvent.fatal]

theorem mem_keys_translateEvents (pes : List ProtocolEvent) :
    ∀ s : Http2Session κ, k ∈ (s.translateEvents pes).1.streamContexts.keys ↔
      k ∈ s.streamContexts.keys ∧ outcomes k pes = 0 ∧ Harmless pes := by
  induction pes with
  | nil => exact fun s => by simp [translateEvents, harmless_nil]
  | cons pe pes ih =>
    intro s
    have hcount : outcomes k (pe :: pes) = 0 ↔ pe.settles k = false ∧ outcomes k pes = 0 := by
      simp only [outcomes, List.countP_eq_zero, List.mem_cons, forall_eq_or_imp, Bool.not_eq_true]
    simp only [translateEvents, ih, mem_keys_translateEvent, hcount, harmless_cons]
    tauto

variable [DecidableEq κ] {c : κ}

/-- A context that leaves the table with its stream is reported. -/
theorem completions_finishStream (s : Http2Session κ) (streamId : StreamId) (response : Response) :
    completions c (s.finishStream streamId response).2 +
        registrations c (s.finishStream streamId response).1.streamContexts =
      registrations c s.streamContexts := by
  rw [finishStream_fst]
  cases h : s.streamContexts.find? streamId with
  | none =>
    rw [KeyedTable.erase_of_not_mem (KeyedTable.find?_eq_none_iff.1 h)]
    simp only [finishStream, h, completions_nil, Nat.zero_add]
  | some kv =>
    simp only [finishStream, h, completions_requestDone]
    exact registrations_erase h

/-- Failing all streams reports every context. -/
theorem completions_failAllStreams (s : Http2Session κ) (response : Response) :
    completions c (s.failAllStreams response).2 = registrations c s.streamContexts := by
  simp only [failAllStreams, completions, registrations, List.countP_map]
  rfl

theorem completions_translateEvent (s : Http2Session κ) (e : ProtocolEvent) :
    completions c (s.translateEvent e).2 + registrations c (s.translateEvent e).1.streamContexts =
      registrations c s.streamContexts := by
  have hlost : ∀ response, completions c ((s.failAllStreams response).2 ++ [.sessionDead]) =
      registrations c s.streamContexts := by
    intro response
    rw [completions_append, completions_failAllStreams]
    rfl
  cases e with
  | responseCompleted streamId response => exact completions_finishStream s streamId response
  | responseFailed streamId errorCode => exact completions_finishStream s streamId _
  | connectionError => exact hlost _
  | connectionClosed => exact hlost _
  | transportClosed => exact hlost _
  | _ => exact Nat.zero_add _

/-- No context leaves the table unreported. -/
theorem completions_translateEvents (c : κ) (pes : List ProtocolEvent) :
    ∀ s : Http2Session κ, completions c (s.translateEvents pes).2 +
        registrations c (s.translateEvents pes).1.streamContexts =
      registrations c s.streamContexts := by
  induction pes with
  | nil => exact fun _ => Nat.zero_add _
  | cons pe pes ih =>
    intro s
    simp only [translateEvents, completions_append]
    rw [Nat.add_assoc, ih, completions_translateEvent]

end Translation

/-! ## What the operations do -/

section Inversion

variable {s s' : Http2Session κ} {events : List (SessionEvent κ)}

theorem absorb_protocol (s : Http2Session κ) (protocol : Http2Protocol)
    (result : ProtocolStepResult) : (s.absorb protocol result).1.protocol = protocol :=
  translateEvents_protocol _ _

theorem start_cases {ready result : Bool} (h : s.start ready = .ok (s', result)) :
    s' = s ∨ ∃ protocol r, s.protocol.apply .start = .ok (protocol, r) ∧
      s' = { s.consumeStepResult protocol r with started := true, healthy := true } := by
  unfold start at h
  split at h
  · cases h
    exact Or.inl rfl
  · split at h
    · cases h
      exact Or.inl rfl
    · obtain ⟨⟨protocol, r⟩, happly, hrest⟩ := bind_eq_ok.1 h
      exact Or.inr ⟨protocol, r, happly, (Prod.mk.inj (Except.ok.inj hrest)).1.symm⟩

theorem close_cases (h : s.close = .ok (s', events)) :
    (s' = s ∧ events = []) ∨ ∃ protocol r, s.protocol.apply .close = .ok (protocol, r) ∧
      (s', events) = { s with
        protocol, outbound := [], started := false, healthy := false, goingAway := false
      }.failAllStreams (.failConnectionError (ascii "Connection closed")) := by
  unfold close at h
  split at h
  · cases h
    exact Or.inl ⟨rfl, rfl⟩
  · obtain ⟨⟨protocol, r⟩, happly, hrest⟩ := bind_eq_ok.1 h
    exact Or.inr ⟨protocol, r, happly, (Except.ok.inj hrest).symm⟩

theorem cancelStream_cases {streamId : StreamId}
    (h : s.cancelStream streamId = .ok (s', events)) :
    ∃ protocol r, s.protocol.apply (.cancelStream streamId .cancel) = .ok (protocol, r) ∧
      s' = ((s.absorb protocol r).1.finishStream streamId
        (.customError (ascii "Request canceled"))).1 ∧
      events = (s.absorb protocol r).2 ++ ((s.absorb protocol r).1.finishStream streamId
        (.customError (ascii "Request canceled"))).2 := by
  obtain ⟨⟨protocol, r⟩, happly, hrest⟩ := bind_eq_ok.1 h
  have heq := Prod.mk.inj (Except.ok.inj hrest)
  exact ⟨protocol, r, happly, heq.1.symm, heq.2.symm⟩

theorem cancelRequest_cases {streamId : StreamId}
    (h : s.cancelRequest streamId = .ok (s', events)) :
    (s' = s ∧ events = []) ∨ s.cancelStream streamId = .ok (s', events) := by
  unfold cancelRequest at h
  split at h
  · cases h
    exact Or.inl ⟨rfl, rfl⟩
  · split at h
    · cases h
      exact Or.inl ⟨rfl, rfl⟩
    · exact Or.inr h

theorem sendPing_cases (h : s.sendPing = .ok (s', events)) :
    events = [] ∧ (s' = s ∨ ∃ protocol r, s.protocol.apply .sendPing = .ok (protocol, r) ∧
      s' = s.consumeStepResult protocol r) := by
  unfold sendPing at h
  split at h
  · cases h
    exact ⟨rfl, Or.inl rfl⟩
  · obtain ⟨⟨protocol, r⟩, happly, hrest⟩ := bind_eq_ok.1 h
    have heq := Prod.mk.inj (Except.ok.inj hrest)
    exact ⟨heq.2.symm, Or.inr ⟨protocol, r, happly, heq.1.symm⟩⟩

/-- The session with a context registered for a stream. -/
def register (s : Http2Session κ) (rehash : Reorder (StreamId × κ)) (streamId : StreamId)
    (context : κ) : Http2Session κ :=
  { s with streamContexts := s.streamContexts.insert rehash (streamId, context) }

/-- A submission is turned away by the session, refused by the protocol, or opens a stream, which a
cancelled context gives up again. -/
theorem submit_cases {request : Request} {context : κ} {canceled finished : Bool}
    {rehash : Reorder Stream} {rehashContexts : Reorder (StreamId × κ)}
    (h : s.submit request context canceled finished rehash rehashContexts = .ok (s', events)) :
    (s' = s ∧ events = [.requestDone context
      (.protocolError .refusedStream (ascii "Session not healthy"))]) ∨
    ∃ protocol r, s.protocol.apply (.submitRequest request rehash) = .ok (protocol, r) ∧
      ((r.submittedStreamId = none ∧ (s', events) = s.absorb protocol r) ∨
      ∃ streamId, r.submittedStreamId = some streamId ∧
        ((s', events) = (s.register rehashContexts streamId context).absorb protocol r ∨
        ∃ more, ((s.register rehashContexts streamId context).absorb protocol r).1.cancelStream
            streamId = .ok (s', more) ∧
          events = ((s.register rehashContexts streamId context).absorb protocol r).2 ++ more)) := by
  unfold submit at h
  split at h
  · cases h
    exact Or.inl ⟨rfl, rfl⟩
  obtain ⟨⟨protocol, r⟩, happly, hrest⟩ := bind_eq_ok.1 h
  refine Or.inr ⟨protocol, r, happly, ?_⟩
  dsimp only at hrest
  cases hstream : r.submittedStreamId with
  | none =>
    rw [hstream] at hrest
    exact Or.inl ⟨rfl, (Except.ok.inj hrest).symm⟩
  | some streamId =>
    rw [hstream] at hrest
    refine Or.inr ⟨streamId, rfl, ?_⟩
    dsimp only at hrest
    split at hrest
    · obtain ⟨⟨s₁, more⟩, hcancel, hrest⟩ := bind_eq_ok.1 hrest
      have heq := Prod.mk.inj (Except.ok.inj hrest)
      refine Or.inr ⟨more, ?_, heq.2.symm⟩
      rw [← heq.1]
      exact hcancel
    · exact Or.inl (Except.ok.inj hrest).symm

theorem handleTransportFailure_cases (h : s.handleTransportFailure = .ok (s', events)) :
    (s.healthy = false ∧ s' = s ∧ events = []) ∨ (s.healthy = true ∧
      ∃ protocol r, s.protocol.apply .onTransportClosed = .ok (protocol, r) ∧
        s' = { s with
          protocol, outbound := [], healthy := false, streamContexts := .empty } ∧
        events = (s.failAllStreams (.failConnectionError (ascii "Connection lost"))).2 ++
          [.sessionDead]) := by
  unfold handleTransportFailure at h
  split at h
  · rename_i hunhealthy
    cases h
    exact Or.inl ⟨by simpa using hunhealthy, rfl, rfl⟩
  · rename_i hhealthy
    obtain ⟨⟨protocol, r⟩, happly, hrest⟩ := bind_eq_ok.1 h
    have heq := Prod.mk.inj (Except.ok.inj hrest)
    exact Or.inr ⟨by simpa using hhealthy, protocol, r, happly, heq.1.symm, heq.2.symm⟩

theorem onWritable_cases {writes : List WriteResult} (h : s.onWritable writes = .ok s') :
    (∃ outbound, s' = { s with outbound }) ∨
      ∃ events, s.handleTransportFailure = .ok (s', events) := by
  unfold onWritable at h
  split at h
  · cases h
    exact Or.inl ⟨s.outbound, rfl⟩
  · split at h
    · cases h
      exact Or.inl ⟨_, rfl⟩
    · obtain ⟨⟨s₁, events⟩, hfailure, hrest⟩ := bind_eq_ok.1 h
      cases hrest
      exact Or.inr ⟨events, hfailure⟩

end Inversion

/-! ## Operations -/

section Operations

variable {config : ClientConfig} {s s' : Http2Session κ} {protocol : Http2Protocol}
  {result : ProtocolStepResult} {events : List (SessionEvent κ)}

/-- The protocol is in a reached state, and the session holds the contexts of the streams that it
awaits. -/
structure InStep (config : ClientConfig) (s : Http2Session κ) : Prop where
  reached : Reached config s.protocol.state
  agrees : ∀ id, id ∈ s.streamContexts.keys ↔ Awaited s.protocol.state.streams id

theorem InStep.ofConfig (config : ClientConfig) :
    InStep config (Http2Session.ofConfig config : Http2Session κ) :=
  ⟨.ofConfig config, fun _ => iff_of_false List.not_mem_nil not_awaited_empty⟩

/-- The protocol is replaced by one that awaits the same streams. -/
theorem InStep.same (h : InStep config s) (hcontexts : s'.streamContexts = s.streamContexts)
    (hreached : Reached config s'.protocol.state)
    (hstreams : s'.protocol.state.streams = s.protocol.state.streams) : InStep config s' := by
  refine ⟨hreached, fun id => ?_⟩
  rw [hcontexts, hstreams]
  exact h.agrees id

/-- All contexts are gone, and the connection is closed. -/
theorem InStep.shut (hcontexts : s'.streamContexts = .empty)
    (hreached : Reached config s'.protocol.state) (hclosed : s'.protocol.state.closed = true) :
    InStep config s' := by
  refine ⟨hreached, fun id => ?_⟩
  rw [hcontexts]
  exact iff_of_false List.not_mem_nil (hreached.not_awaited hclosed)

/-- Translating the events of an operation restores the agreement. -/
theorem InStep.absorb {p : ProtocolState} {submitted : Option StreamId}
    (hkeys : ∀ id, id ∈ s.streamContexts.keys ↔ Awaited p.streams id ∨ submitted = some id)
    (hreached : Reached config protocol.state)
    (hsettled : Settled p protocol.state submitted result.events) :
    InStep config (s.absorb protocol result).1 := by
  have hprotocol := absorb_protocol s protocol result
  refine ⟨by rw [hprotocol]; exact hreached, fun id => ?_⟩
  rw [hprotocol, Http2Session.absorb, mem_keys_translateEvents, hsettled.awaited id, ← hkeys id]
  rcases hsettled.harmless_or_closed with hharmless | hclosed
  · exact ⟨fun h => ⟨h.1, h.2.1⟩, fun h => ⟨h.1, h.2, hharmless⟩⟩
  · -- with the connection the streams are gone, and so are the contexts
    have hnot : ¬ Awaited protocol.state.streams id := hreached.not_awaited hclosed
    rw [hsettled.awaited id, ← hkeys id] at hnot
    exact iff_of_false (fun h => hnot ⟨h.1, h.2.1⟩) hnot

theorem InStep.cancelStream {streamId : StreamId} (h : InStep config s)
    (hop : s.cancelStream streamId = .ok (s', events)) : InStep config s' := by
  obtain ⟨protocol, result, happly, rfl, -⟩ := cancelStream_cases hop
  have hreached := h.reached.apply happly
  obtain ⟨hsettled, hgone⟩ := settled_cancelStream h.reached happly
  have habsorbed : InStep config (s.absorb protocol result).1 :=
    .absorb (fun id => by simp [h.agrees id]) hreached hsettled
  rw [finishStream_fst]
  refine ⟨habsorbed.reached, fun id => ?_⟩
  rw [KeyedTable.keys_erase, List.mem_filter, decide_eq_true_eq, habsorbed.agrees id]
  refine ⟨And.left, fun hawaited => ⟨hawaited, ?_⟩⟩
  rintro rfl
  rw [absorb_protocol] at hawaited
  exact hgone hawaited

theorem InStep.submit {request : Request} {context : κ} {canceled finished : Bool}
    {rehash : Reorder Stream} {rehashContexts : Reorder (StreamId × κ)} (h : InStep config s)
    (hop : s.submit request context canceled finished rehash rehashContexts = .ok (s', events)) :
    InStep config s' := by
  rcases submit_cases hop with ⟨rfl, -⟩ | ⟨protocol, result, happly, hcases⟩
  · exact h
  have hreached := h.reached.apply happly
  have hsettled := settled_submitRequest h.reached happly
  rcases hcases with ⟨hnone, heq⟩ | ⟨streamId, hsome, hcases⟩
  · rw [(Prod.mk.inj heq).1]
    refine .absorb (fun id => ?_) hreached hsettled
    simp [hnone, h.agrees id]
  have hopened : InStep config
      ((s.register rehashContexts streamId context).absorb protocol result).1 := by
    refine .absorb (fun id => ?_) hreached hsettled
    rw [register, KeyedTable.mem_keys_insert, h.agrees id, hsome, Option.some.injEq, or_comm,
      eq_comm]
  rcases hcases with heq | ⟨more, hcancel, -⟩
  · rw [(Prod.mk.inj heq).1]
    exact hopened
  · exact hopened.cancelStream hcancel

theorem InStep.handleTransportFailure (h : InStep config s)
    (hop : s.handleTransportFailure = .ok (s', events)) : InStep config s' := by
  rcases handleTransportFailure_cases hop with ⟨-, rfl, -⟩ | ⟨-, protocol, result, happly, rfl, -⟩
  · exact h
  · exact .shut rfl (h.reached.apply happly) (closed_of_shutdown h.reached (Or.inr rfl) happly)

theorem InStep.readLoop {last : ReadEnd} (chunks : List Bytes) :
    ∀ {s : Http2Session κ} {collected : List (SessionEvent κ)}, InStep config s →
      Http2Session.readLoop last chunks s collected = .ok (s', events) → InStep config s' := by
  induction chunks with
  | nil =>
    intro s collected h hop
    cases last with
    | wouldBlock =>
      cases hop
      exact h
    | closed => exact h.handleTransportFailure hop
    | err => exact h.handleTransportFailure hop
  | cons data chunks ih =>
    intro s collected h hop
    unfold Http2Session.readLoop at hop
    split at hop
    · cases hop
      exact h
    · obtain ⟨⟨protocol, result⟩, happly, hrest⟩ := bind_eq_ok.1 hop
      refine ih (.absorb (fun id => ?_) (h.reached.apply happly)
        (settled_receiveBytes h.reached happly)) hrest
      simp [h.agrees id]

/-- Every operation keeps the contexts in step with the streams. -/
theorem InStep.apply {op : Op κ} (h : InStep config s) (hop : s.apply op = .ok (s', events)) :
    InStep config s' := by
  cases op with
  | start ready =>
    obtain ⟨⟨s₁, result⟩, hstart, hrest⟩ := bind_eq_ok.1 hop
    cases hrest
    rcases start_cases hstart with rfl | ⟨protocol, r, happly, rfl⟩
    · exact h
    · exact h.same rfl (h.reached.apply happly) (streams_of_quiet h.reached (Or.inl rfl) happly)
  | submit request context canceled finished rehash rehashContexts => exact h.submit hop
  | cancelRequest streamId =>
    rcases cancelRequest_cases hop with ⟨rfl, -⟩ | hcancel
    · exact h
    · exact h.cancelStream hcancel
  | sendPing =>
    obtain ⟨-, rfl | ⟨protocol, r, happly, rfl⟩⟩ := sendPing_cases hop
    · exact h
    · exact h.same rfl (h.reached.apply happly) (streams_of_quiet h.reached (Or.inr rfl) happly)
  | onReadable chunks last =>
    simp only [Http2Session.apply, Http2Session.onReadable] at hop
    split at hop
    · cases hop
      exact h
    · exact InStep.readLoop chunks h hop
  | onWritable writes =>
    obtain ⟨s₁, hwritable, hrest⟩ := bind_eq_ok.1 hop
    cases hrest
    rcases onWritable_cases hwritable with ⟨outbound, rfl⟩ | ⟨failed, hfailure⟩
    · exact h.same rfl h.reached rfl
    · exact h.handleTransportFailure hfailure
  | close =>
    rcases close_cases hop with ⟨rfl, -⟩ | ⟨protocol, r, happly, heq⟩
    · exact h
    · rw [(Prod.mk.inj heq).1]
      exact .shut rfl (h.reached.apply happly) (closed_of_shutdown h.reached (Or.inl rfl) happly)

end Operations

/-! ## The balance of the contexts -/

section Balance

variable [DecidableEq κ] {c : κ} {s s' : Http2Session κ} {events : List (SessionEvent κ)}

/-- The number of times that an operation submits a context. -/
def Op.submits (c : κ) : Op κ → Nat
  | .submit _ context _ _ _ _ => if context = c then 1 else 0
  | _ => 0

theorem completions_absorb (s : Http2Session κ) (protocol : Http2Protocol)
    (result : ProtocolStepResult) : completions c (s.absorb protocol result).2 +
        registrations c (s.absorb protocol result).1.streamContexts =
      registrations c s.streamContexts :=
  completions_translateEvents c result.events (s.consumeStepResult protocol result)

theorem completions_cancelStream {streamId : StreamId}
    (h : s.cancelStream streamId = .ok (s', events)) :
    completions c events + registrations c s'.streamContexts =
      registrations c s.streamContexts := by
  obtain ⟨protocol, r, -, rfl, rfl⟩ := cancelStream_cases h
  rw [completions_append, Nat.add_assoc, completions_finishStream, completions_absorb]

theorem completions_handleTransportFailure (h : s.handleTransportFailure = .ok (s', events)) :
    completions c events + registrations c s'.streamContexts =
      registrations c s.streamContexts := by
  rcases handleTransportFailure_cases h with ⟨-, rfl, rfl⟩ | ⟨-, protocol, r, -, rfl, rfl⟩
  · exact Nat.zero_add _
  · rw [completions_append, completions_failAllStreams]
    rfl

/-- The events that were collected before a failure of the transport are lost; nothing is added to
them. -/
theorem completions_readLoop {last : ReadEnd} (chunks : List Bytes) :
    ∀ {s : Http2Session κ} {collected : List (SessionEvent κ)},
      readLoop last chunks s collected = .ok (s', events) →
      completions c events + registrations c s'.streamContexts ≤
        completions c collected + registrations c s.streamContexts := by
  induction chunks with
  | nil =>
    intro s collected h
    have hfailed : s.handleTransportFailure = .ok (s', events) →
        completions c events + registrations c s'.streamContexts ≤
          completions c collected + registrations c s.streamContexts := by
      intro h
      rw [completions_handleTransportFailure h]
      exact Nat.le_add_left _ _
    cases last with
    | wouldBlock =>
      cases h
      exact le_rfl
    | closed => exact hfailed h
    | err => exact hfailed h
  | cons data chunks ih =>
    intro s collected h
    unfold readLoop at h
    split at h
    · cases h
      exact le_rfl
    · obtain ⟨⟨protocol, r⟩, -, hrest⟩ := bind_eq_ok.1 h
      have hnext : readLoop last chunks (s.absorb protocol r).1
          (collected ++ (s.absorb protocol r).2) = .ok (s', events) := hrest
      refine (ih hnext).trans (le_of_eq ?_)
      rw [completions_append, Nat.add_assoc, completions_absorb]

theorem completions_submit {request : Request} {context : κ} {canceled finished : Bool}
    {rehash : Reorder Stream} {rehashContexts : Reorder (StreamId × κ)}
    (h : s.submit request context canceled finished rehash rehashContexts = .ok (s', events)) :
    completions c events + registrations c s'.streamContexts ≤
      (if context = c then 1 else 0) + registrations c s.streamContexts := by
  rcases submit_cases h with ⟨rfl, rfl⟩ | ⟨protocol, r, -, hcases⟩
  · rw [completions_requestDone]
  rcases hcases with ⟨-, heq⟩ | ⟨streamId, -, hcases⟩
  · have hstate : s' = (s.absorb protocol r).1 := congrArg Prod.fst heq
    have hevents : events = (s.absorb protocol r).2 := congrArg Prod.snd heq
    rw [hstate, hevents, completions_absorb]
    exact Nat.le_add_left _ _
  refine le_trans (le_of_eq ?_)
    (registrations_insert_le s.streamContexts rehashContexts streamId context)
  have habsorb := completions_absorb (c := c) (s.register rehashContexts streamId context) protocol r
  rcases hcases with heq | ⟨more, hcancel, rfl⟩
  · obtain ⟨rfl, rfl⟩ := Prod.mk.inj heq
    exact habsorb
  · rw [completions_append, Nat.add_assoc, completions_cancelStream hcancel]
    exact habsorb

/-- An operation reports a context only if it submits it or the context has been registered. -/
theorem completions_apply {op : Op κ} (h : s.apply op = .ok (s', events)) :
    completions c events + registrations c s'.streamContexts ≤
      op.submits c + registrations c s.streamContexts := by
  cases op with
  | start ready =>
    obtain ⟨⟨s₁, result⟩, hstart, hrest⟩ := bind_eq_ok.1 h
    cases hrest
    rcases start_cases hstart with rfl | ⟨protocol, r, -, rfl⟩ <;> exact le_rfl
  | submit request context canceled finished rehash rehashContexts => exact completions_submit h
  | cancelRequest streamId =>
    rcases cancelRequest_cases h with ⟨rfl, rfl⟩ | hcancel
    · exact le_rfl
    · exact ((completions_cancelStream hcancel).trans (Nat.zero_add _).symm).le
  | sendPing =>
    obtain ⟨rfl, rfl | ⟨protocol, r, -, rfl⟩⟩ := sendPing_cases h <;> exact le_rfl
  | onReadable chunks last =>
    simp only [apply, onReadable] at h
    split at h
    · cases h
      exact le_rfl
    · exact completions_readLoop chunks h
  | onWritable writes =>
    obtain ⟨s₁, hwritable, hrest⟩ := bind_eq_ok.1 h
    cases hrest
    rcases onWritable_cases hwritable with ⟨outbound, rfl⟩ | ⟨failed, hfailure⟩
    · exact le_rfl
    -- the transport has failed, and every registered context with it
    · have hbalance := completions_handleTransportFailure (c := c) hfailure
      rw [completions_nil, Nat.zero_add]
      exact (Nat.le_add_left _ _).trans (hbalance.le.trans (Nat.le_add_left _ _))
  | close =>
    rcases close_cases h with ⟨rfl, rfl⟩ | ⟨protocol, r, -, heq⟩
    · exact le_rfl
    · have hclosed := completions_failAllStreams (c := c) { s with
        protocol, outbound := [], started := false, healthy := false, goingAway := false }
        (.failConnectionError (ascii "Connection closed"))
      rw [← heq] at hclosed
      have hstate : s'.streamContexts = .empty := congrArg (fun x => x.1.streamContexts) heq
      rw [hclosed, hstate]
      exact Nat.le_add_left _ _

end Balance

/-! ## Runs -/

/-- What happened in one operation of a session. -/
abbrev Entry (κ : Type) := Machine.Entry (Http2Session κ) (Op κ) (List (SessionEvent κ))

/-- The events that a trace has returned. -/
def eventsOf (tr : List (Entry κ)) : List (SessionEvent κ) := tr.flatMap Machine.Entry.output

/-- The number of times that a trace has submitted a context. -/
def submissionsOf [DecidableEq κ] (c : κ) (tr : List (Entry κ)) : Nat :=
  Machine.total (fun e => e.input.submits c) tr

section Runs

variable {config : ClientConfig} {tr : List (Entry κ)} {s : Http2Session κ}

theorem inStep_of_runs (h : Machine.Runs apply (.ofConfig config) tr s) : InStep config s :=
  h.invariant (I := fun _ s => InStep config s) (.ofConfig config)
    fun _ _ _ _ _ _ hs hop => hs.apply hop

theorem balance_of_runs [DecidableEq κ] (h : Machine.Runs apply (.ofConfig config) tr s) (c : κ) :
    completions c (eventsOf tr) + registrations c s.streamContexts ≤ submissionsOf c tr := by
  refine h.invariant (I := fun tr s =>
    completions c (eventsOf tr) + registrations c s.streamContexts ≤ submissionsOf c tr) le_rfl ?_
  intro tr s op s' events _ hs hop
  have hstep := completions_apply (c := c) hop
  simp only [eventsOf, List.flatMap_append, List.flatMap_singleton, completions_append,
    submissionsOf, Machine.total_append, Machine.total_singleton] at hs ⊢
  omega

/-- In every reached state a stream has a context if and only if it is in the table of the protocol
and its peer has not ended it, and no context has been reported as done more often than it has been
submitted. -/
theorem contexts_agree [DecidableEq κ] (h : Machine.Runs apply (.ofConfig config) tr s) :
    (∀ id, id ∈ s.streamContexts.keys ↔ ∃ stream, s.protocol.state.streams.find? id = some stream ∧
      stream.remoteEndStreamReceived = false) ∧
    ∀ c, completions c (eventsOf tr) ≤ submissionsOf c tr :=
  ⟨(inStep_of_runs h).agrees, fun c => (Nat.le_add_right _ _).trans (balance_of_runs h c)⟩

end Runs

/-- The bytes of frames of the peer. -/
def wire (frames : List RawFrame) : Bytes := frames.flatMap fun f => f.header.encode ++ f.data

/-- A request whose body is held back by the peer's window is answered: its stream stays in the
table of the protocol, and its context is reported as done. -/
theorem contexts_agree_of_half_open :
    ∃ tr, ∃ s : Http2Session Nat, Machine.Runs apply (.ofConfig {}) tr s ∧
      s.protocol.state.streams.keys = [1] ∧ s.streamContexts.keys = [] ∧
      completions 7 (eventsOf tr) = 1 ∧
      (∀ id, id ∈ s.streamContexts.keys ↔ ∃ stream,
        s.protocol.state.streams.find? id = some stream ∧
          stream.remoteEndStreamReceived = false) ∧
      ∀ c, completions c (eventsOf tr) ≤ submissionsOf c tr := by
  have hrun : (Machine.run apply (.ofConfig {}) [.start true,
      .onReadable [wire [settingsFrame 4 0]] .wouldBlock,
      .submit postRequest (7 : Nat) false false (.id _) (.id _),
      .onReadable [wire [okResponseFrame 5]] .wouldBlock]).map
        (fun x => (x.1.protocol.state.streams.keys, x.1.streamContexts.keys,
          completions 7 (eventsOf x.2))) =
      .ok ([1], [], 1) := by decide +kernel
  obtain ⟨s, tr, hr, -, hresult⟩ := Machine.exists_runs_of_map hrun
  simp only [Prod.mk.injEq] at hresult
  obtain ⟨hstreams, hcontexts, hdone⟩ := hresult
  obtain ⟨hagree, hbalance⟩ := contexts_agree hr
  exact ⟨tr, s, hr, hstreams, hcontexts, hdone, hagree, hbalance⟩

end Http2Session

end Chttp2
