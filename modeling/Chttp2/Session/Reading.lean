import Chttp2.Session.Agreement

/-!
# Reading responses from the transport

`onReadable` reads chunks until the transport has no more, and collects the events of each. When the
transport is closed or fails instead, the collected events are dropped: `reads_lossless_iff` says
that exactly the calls lose something in which the chunks before such an end bring the outcome of an
outstanding request.
-/

set_option autoImplicit false

namespace Chttp2

/-! ## Chunks and the protocol -/

/-- The protocol after the chunks of a series of reads, and its events. An empty chunk ends the
series. -/
def Http2Protocol.receiveChunks :
    Http2Protocol → List Bytes → Guarded (Http2Protocol × List ProtocolEvent)
  | p, [] => return (p, [])
  | p, data :: chunks =>
    if data = [] then return (p, [])
    else do
      let (p, result) ← p.apply (.receiveBytes data)
      let (p, more) ← p.receiveChunks chunks
      return (p, result.events ++ more)

section Chunks

variable {config : ClientConfig} {id : StreamId}

theorem Received.append {p p₁ p₂ : ProtocolState} {a b : List ProtocolEvent}
    (h : Received p a p₁) (h' : Received p₁ b p₂) : Received p (a ++ b) p₂ := by
  induction h with
  | nil => exact h'
  | cons hact _ ih =>
    rw [List.append_assoc]
    exact .cons hact (ih h')

/-- Chunks are received frame by frame. -/
theorem received_of_receiveChunks (chunks : List Bytes) :
    ∀ {p p' : Http2Protocol} {received : List ProtocolEvent}, Reached config p.state →
      p.receiveChunks chunks = .ok (p', received) → Received p.state received p'.state := by
  induction chunks with
  | nil =>
    intro p p' received _ h
    cases h
    exact .nil _
  | cons data chunks ih =>
    intro p p' received hp h
    unfold Http2Protocol.receiveChunks at h
    split at h
    · cases h
      exact .nil _
    · obtain ⟨⟨p₁, result⟩, happly, hrest⟩ := bind_eq_ok.1 h
      obtain ⟨⟨p₂, more⟩, hmore, hrest⟩ := bind_eq_ok.1 hrest
      cases hrest
      exact (received_of_receiveBytes hp happly).append (ih (hp.apply happly) hmore)

end Chunks

namespace Http2Session

variable {κ : Type}

/-! ## Events across chunks -/

section Translation

variable {k : StreamId}

theorem translateEvents_append (a : List ProtocolEvent) :
    ∀ (s : Http2Session κ) (b : List ProtocolEvent), s.translateEvents (a ++ b) =
      (((s.translateEvents a).1.translateEvents b).1,
        (s.translateEvents a).2 ++ ((s.translateEvents a).1.translateEvents b).2) := by
  induction a with
  | nil => exact fun _ _ => rfl
  | cons pe a ih =>
    intro s b
    simp only [List.cons_append, translateEvents, ih, List.append_assoc]

theorem translateEvent_io (s : Http2Session κ) (protocol : Http2Protocol)
    (outbound : List OutboundChunk) (pe : ProtocolEvent) :
    { s with protocol, outbound }.translateEvent pe =
      ({ (s.translateEvent pe).1 with protocol, outbound }, (s.translateEvent pe).2) := by
  have hfinish : ∀ streamId response,
      { s with protocol, outbound }.finishStream streamId response =
        ({ (s.finishStream streamId response).1 with protocol, outbound },
          (s.finishStream streamId response).2) := by
    intro streamId response
    cases h : s.streamContexts.find? streamId <;> simp only [finishStream, h]
  cases pe with
  | responseCompleted streamId response => exact hfinish streamId response
  | responseFailed streamId errorCode => exact hfinish streamId _
  | _ => rfl

/-- The translation of events reads neither the protocol nor the queue. -/
theorem translateEvents_io (pes : List ProtocolEvent) :
    ∀ (s : Http2Session κ) (protocol : Http2Protocol) (outbound : List OutboundChunk),
      { s with protocol, outbound }.translateEvents pes =
        ({ (s.translateEvents pes).1 with protocol, outbound }, (s.translateEvents pes).2) := by
  induction pes with
  | nil => exact fun _ _ _ => rfl
  | cons pe pes ih =>
    intro s protocol outbound
    have hrest := ih (s.translateEvent pe).1 protocol outbound
    simp only [translateEvents]
    rw [translateEvent_io s protocol outbound pe]
    dsimp only
    rw [hrest]

/-- The session when the protocol has received something and its events have been translated. -/
def afterEvents (s : Http2Session κ) (protocol : Http2Protocol) (outbound : List OutboundChunk)
    (received : List ProtocolEvent) : Http2Session κ :=
  { (s.translateEvents received).1 with protocol, outbound }

theorem absorb_eq (s : Http2Session κ) (protocol : Http2Protocol) (result : ProtocolStepResult) :
    s.absorb protocol result =
      (s.afterEvents protocol (s.consumeStepResult protocol result).outbound result.events,
        (s.translateEvents result.events).2) :=
  translateEvents_io _ _ _ _

theorem translateEvents_afterEvents (s : Http2Session κ) (protocol : Http2Protocol)
    (outbound : List OutboundChunk) (a b : List ProtocolEvent) :
    (s.afterEvents protocol outbound a).translateEvents b =
      (s.afterEvents protocol outbound (a ++ b), ((s.translateEvents a).1.translateEvents b).2) := by
  rw [afterEvents, translateEvents_io, afterEvents, translateEvents_append]

theorem afterEvents_afterEvents (s : Http2Session κ) (protocol protocol' : Http2Protocol)
    (outbound outbound' : List OutboundChunk) (a b : List ProtocolEvent) :
    (s.afterEvents protocol outbound a).afterEvents protocol' outbound' b =
      s.afterEvents protocol' outbound' (a ++ b) := by
  rw [afterEvents, translateEvents_afterEvents]
  rfl

/-- Contexts only leave the table. -/
theorem sublist_translateEvents (pes : List ProtocolEvent) : ∀ s : Http2Session κ,
    (s.translateEvents pes).1.streamContexts.entries.Sublist s.streamContexts.entries := by
  induction pes with
  | nil => exact fun _ => List.Sublist.refl _
  | cons pe pes ih =>
    intro s
    refine (ih _).trans ?_
    have hfinish : ∀ streamId response, (s.finishStream streamId response).1.streamContexts.entries
        |>.Sublist s.streamContexts.entries := by
      intro streamId response
      rw [finishStream_fst]
      exact List.filter_sublist
    cases pe with
    | responseCompleted streamId response => exact hfinish streamId response
    | responseFailed streamId errorCode => exact hfinish streamId _
    | connectionError | connectionClosed | transportClosed => exact List.nil_sublist _
    | _ => exact List.Sublist.refl _

/-- A context stays registered while no outcome of its stream is reported. -/
theorem find?_translateEvents {pes : List ProtocolEvent} {s : Http2Session κ}
    (houtcome : outcomes k pes = 0) (hharmless : Harmless pes) :
    (s.translateEvents pes).1.streamContexts.find? k = s.streamContexts.find? k := by
  have hsub := sublist_translateEvents pes s
  cases h : s.streamContexts.find? k with
  | none =>
    rw [KeyedTable.find?_eq_none_iff] at h ⊢
    exact fun hmem => h ((mem_keys_translateEvents pes s).1 hmem).1
  | some kv =>
    obtain ⟨kv', hfind⟩ := KeyedTable.mem_keys_iff_find?.1
      ((mem_keys_translateEvents pes s).2 ⟨KeyedTable.mem_keys_of_find? h, houtcome, hharmless⟩)
    have hmem := hsub.subset (KeyedTable.mem_of_find? hfind)
    have hkey := KeyedTable.key_of_find? hfind
    rw [hfind, KeyedTable.eq_of_key_eq hmem (KeyedTable.mem_of_find? h)
      (hkey.trans (KeyedTable.key_of_find? h).symm)]

/-- The context of a stream is reported with the response that is completed first. -/
theorem mem_translateEvents {s : Http2Session κ} {before after : List ProtocolEvent} {c : κ}
    {response : Response} (hmem : (k, c) ∈ s.streamContexts.entries)
    (houtcome : outcomes k before = 0) (hharmless : Harmless before) :
    .requestDone c response ∈
      (s.translateEvents (before ++ .responseCompleted k response :: after)).2 := by
  have hfind := find?_translateEvents (s := s) houtcome hharmless
  rw [KeyedTable.mem_iff_find?.1 hmem] at hfind
  rw [translateEvents_append]
  refine List.mem_append_right _ (List.mem_append_left _ ?_)
  simp only [hfind, List.mem_singleton]

end Translation

/-! ## The ends of a series of reads -/

/-- A series of reads is cut short: the transport is closed or fails. -/
def Cut (chunks : List Bytes) (last : ReadEnd) : Prop := [] ∉ chunks ∧ last ≠ .wouldBlock

instance (chunks : List Bytes) (last : ReadEnd) : Decidable (Cut chunks last) :=
  inferInstanceAs (Decidable (_ ∧ _))

/-- Nothing is lost of what the protocol has received: every context that has left the table is
reported once for each time it was registered, and a context whose response is complete is reported
with that response. -/
structure Lossless [DecidableEq κ] (s s' : Http2Session κ) (received : List ProtocolEvent)
    (events : List (SessionEvent κ)) : Prop where
  reported : ∀ c, completions c events + registrations c s'.streamContexts =
    registrations c s.streamContexts
  answered : ∀ id c response, (id, c) ∈ s.streamContexts.entries →
    .responseCompleted id response ∈ received → .requestDone c response ∈ events

section Reading

variable {config : ClientConfig} {s s' : Http2Session κ} {events : List (SessionEvent κ)}
  {chunks : List Bytes} {last : ReadEnd}

/-- The loop returns what it has collected, or what the failure of the transport returns. -/
theorem readLoop_cases (chunks : List Bytes) :
    ∀ {s : Http2Session κ} {collected : List (SessionEvent κ)},
      readLoop last chunks s collected = .ok (s', events) →
      ∃ protocol outbound received, s.protocol.receiveChunks chunks = .ok (protocol, received) ∧
        ((¬ Cut chunks last ∧ s' = s.afterEvents protocol outbound received ∧
          events = collected ++ (s.translateEvents received).2) ∨
        (Cut chunks last ∧ (s.afterEvents protocol outbound received).handleTransportFailure =
          .ok (s', events))) := by
  induction chunks with
  | nil =>
    intro s collected h
    refine ⟨s.protocol, s.outbound, [], rfl, ?_⟩
    have hstart : s.afterEvents s.protocol s.outbound [] = s := rfl
    rw [hstart]
    cases last with
    | wouldBlock =>
      cases h
      exact Or.inl ⟨by simp [Cut], rfl, by simp [translateEvents]⟩
    | closed => exact Or.inr ⟨by simp [Cut], h⟩
    | err => exact Or.inr ⟨by simp [Cut], h⟩
  | cons data chunks ih =>
    intro s collected h
    by_cases hdata : data = []
    · rw [readLoop, if_pos hdata] at h
      have heq := Prod.mk.inj (Except.ok.inj h)
      refine ⟨s.protocol, s.outbound, [], by rw [Http2Protocol.receiveChunks, if_pos hdata]; rfl, ?_⟩
      exact Or.inl ⟨by simp [Cut, hdata], heq.1.symm, by simp [translateEvents, ← heq.2]⟩
    rw [readLoop, if_neg hdata] at h
    obtain ⟨⟨protocol, result⟩, happly, hrest⟩ := bind_eq_ok.1 h
    have hnext : readLoop last chunks (s.absorb protocol result).1
        (collected ++ (s.absorb protocol result).2) = .ok (s', events) := hrest
    obtain ⟨protocol', outbound, received, hchunks, hcases⟩ := ih hnext
    rw [absorb_protocol] at hchunks
    have hcut : Cut (data :: chunks) last ↔ Cut chunks last := by
      simp [Cut, Ne.symm hdata]
    -- the rest of the loop starts where the translation of the first chunk has ended
    have hafter : (s.absorb protocol result).1.afterEvents protocol' outbound received =
        s.afterEvents protocol' outbound (result.events ++ received) := by
      rw [absorb_eq, afterEvents_afterEvents]
    have hevents : (s.translateEvents (result.events ++ received)).2 =
        (s.absorb protocol result).2 ++
          ((s.absorb protocol result).1.translateEvents received).2 := by
      rw [absorb_eq, translateEvents_afterEvents, translateEvents_append]
    refine ⟨protocol', outbound, result.events ++ received, ?_, ?_⟩
    · rw [Http2Protocol.receiveChunks, if_neg hdata, happly, ok_bind]
      exact bind_eq_ok.2 ⟨_, hchunks, rfl⟩
    · rw [hcut, hevents, ← hafter, ← List.append_assoc]
      exact hcases

/-- A context whose stream has lost it is registered less often than before. -/
theorem registrations_lt [DecidableEq κ] {received : List ProtocolEvent} {kv : StreamId × κ}
    (hfind : s.streamContexts.find? kv.1 = some kv)
    (hlost : kv.1 ∉ (s.translateEvents received).1.streamContexts.keys) :
    registrations kv.2 (s.translateEvents received).1.streamContexts <
      registrations kv.2 s.streamContexts := by
  have hsub : (s.translateEvents received).1.streamContexts.entries.Sublist
      (s.streamContexts.erase kv.1).entries := by
    rw [← KeyedTable.erase_of_not_mem hlost]
    exact (sublist_translateEvents received s).filter _
  have hle := hsub.countP_le (p := fun e : StreamId × κ => decide (e.2 = kv.2))
  have hone := registrations_erase (c := kv.2) hfind
  rw [if_pos rfl] at hone
  rw [← hone, Nat.add_comm]
  exact Nat.lt_succ_of_le hle

/-- No registration is lost if and only if no outcome of an outstanding request is reported. -/
theorem registrations_eq_iff [DecidableEq κ] {protocol : Http2Protocol}
    {received : List ProtocolEvent} (hs : InStep config s)
    (hchunks : s.protocol.receiveChunks chunks = .ok (protocol, received)) :
    (∀ c, registrations c (s.translateEvents received).1.streamContexts =
        registrations c s.streamContexts) ↔
      ∀ id ∈ s.streamContexts.keys, outcomes id received = 0 := by
  constructor
  · intro h id hid
    by_contra houtcome
    obtain ⟨kv, hfind⟩ := KeyedTable.mem_keys_iff_find?.1 hid
    have hkey := KeyedTable.key_of_find? hfind
    subst hkey
    refine absurd (h kv.2) (registrations_lt hfind ?_).ne
    exact fun hmem => houtcome ((mem_keys_translateEvents received s).1 hmem).2.1
  · intro h c
    have hreceived := received_of_receiveChunks chunks hs.reached hchunks
    have hsame : ∀ id, (s.translateEvents received).1.streamContexts.find? id =
        s.streamContexts.find? id := by
      intro id
      by_cases hid : id ∈ s.streamContexts.keys
      · -- a stream of which nothing is reported is still awaited, so the connection is open
        have hawaited := (hs.agrees id).1 hid
        have hstill := (hreceived.awaited_iff hs.reached (hawaited.ne_zero hs.reached)).2
          ⟨hawaited, h id hid⟩
        have hharmless := (hreceived.harmless_or_closed hs.reached).resolve_right
          fun hclosed => (hreceived.reached hs.reached).not_awaited hclosed hstill
        exact find?_translateEvents (h id hid) hharmless
      · rw [KeyedTable.find?_eq_none_iff.2 hid, KeyedTable.find?_eq_none_iff]
        exact fun hmem => hid ((mem_keys_translateEvents received s).1 hmem).1
    exact (KeyedTable.perm_of_find? hsame).countP_eq _

/-- A call that is not cut short returns everything. -/
theorem lossless_of_not_cut [DecidableEq κ] {protocol : Http2Protocol}
    {received : List ProtocolEvent} (hs : InStep config s)
    (hchunks : s.protocol.receiveChunks chunks = .ok (protocol, received))
    (hcontexts : s'.streamContexts = (s.translateEvents received).1.streamContexts)
    (hevents : events = (s.translateEvents received).2) : Lossless s s' received events := by
  subst hevents
  refine ⟨fun c => ?_, fun id c response hmem hcompleted => ?_⟩
  · rw [hcontexts]
    exact completions_translateEvents c received s
  · obtain ⟨before, after, rfl⟩ := List.append_of_mem hcompleted
    have hfirst := (received_of_receiveChunks chunks hs.reached hchunks).completed_first hs.reached
      rfl
    exact mem_translateEvents hmem hfirst.1 hfirst.2

/-- A call that is cut short returns everything if there was nothing to return but the contexts that
are still registered. -/
theorem lossless_iff_of_cut [DecidableEq κ] {protocol : Http2Protocol}
    {outbound : List OutboundChunk} {received : List ProtocolEvent} (hs : InStep config s)
    (hchunks : s.protocol.receiveChunks chunks = .ok (protocol, received))
    (hfailure : (s.afterEvents protocol outbound received).handleTransportFailure =
      .ok (s', events)) :
    Lossless s s' received events ↔ ∀ id ∈ s.streamContexts.keys, outcomes id received = 0 := by
  have hbalance : ∀ c, completions c events + registrations c s'.streamContexts =
      registrations c (s.translateEvents received).1.streamContexts :=
    fun c => completions_handleTransportFailure
      (s := s.afterEvents protocol outbound received) hfailure
  rw [← registrations_eq_iff hs hchunks]
  constructor
  · exact fun h c => (hbalance c).symm.trans (h.reported c)
  · intro h
    refine ⟨fun c => (hbalance c).trans (h c), fun id c response hmem hcompleted => ?_⟩
    have hzero := (registrations_eq_iff hs hchunks).1 h id (KeyedTable.key_mem_keys hmem)
    have hsettles := List.countP_eq_zero.1 hzero _ hcompleted
    simp [ProtocolEvent.settles] at hsettles

/-- A call of `onReadable` loses nothing of what the protocol receives if and only if it is not cut
short, or the chunks before that bring no outcome of an outstanding request. -/
theorem reads_lossless_iff [DecidableEq κ] {tr : List (Entry κ)}
    (h : Machine.Runs apply (.ofConfig config) tr s) (hhealthy : s.isHealthy = true)
    (hread : s.onReadable chunks last = .ok (s', events)) :
    ∃ protocol received, s.protocol.receiveChunks chunks = .ok (protocol, received) ∧
      (Lossless s s' received events ↔
        ¬ Cut chunks last ∨ ∀ id ∈ s.streamContexts.keys, outcomes id received = 0) := by
  have hs := inStep_of_runs h
  rw [onReadable, hhealthy] at hread
  obtain ⟨protocol, outbound, received, hchunks, hcases⟩ := readLoop_cases chunks hread
  refine ⟨protocol, received, hchunks, ?_⟩
  rcases hcases with ⟨hcut, rfl, rfl⟩ | ⟨hcut, hfailure⟩
  · exact iff_of_true (lossless_of_not_cut hs hchunks rfl rfl) (Or.inl hcut)
  · rw [lossless_iff_of_cut hs hchunks hfailure]
    exact ⟨Or.inr, fun h => h.resolve_left fun h => h hcut⟩

end Reading

/-- A started session with the context 7 outstanding on stream 1, before the response arrives. -/
def awaitingResponse : List (Op Nat) :=
  [.start true, .onReadable [wire [emptySettingsFrame]] .wouldBlock,
    .submit getRequest 7 false false (.id _) (.id _)]

/-- What a call of `onReadable` makes of a reached session: whether the session was healthy, for how
many streams the context 7 was registered before and after, and how often it is reported. -/
def readOutcome (chunks : List Bytes) (last : ReadEnd) (s : Http2Session Nat) :
    Option (Bool × Nat × Nat × Nat) :=
  match s.onReadable chunks last with
  | .ok (s', events) =>
    some (s.isHealthy, registrations 7 s.streamContexts, registrations 7 s'.streamContexts,
      completions 7 events)
  | .error _ => none

theorem onReadable_of_readOutcome {chunks : List Bytes} {last : ReadEnd} {s : Http2Session Nat}
    {healthy : Bool} {before after n : Nat}
    (h : readOutcome chunks last s = some (healthy, before, after, n)) :
    ∃ s' events, s.onReadable chunks last = .ok (s', events) ∧ s.isHealthy = healthy ∧
      registrations 7 s.streamContexts = before ∧ registrations 7 s'.streamContexts = after ∧
      completions 7 events = n := by
  unfold readOutcome at h
  split at h
  · rename_i s' events hread
    simp only [Option.some.injEq, Prod.mk.injEq] at h
    exact ⟨s', events, hread, h.1, h.2.1, h.2.2.1, h.2.2.2⟩
  · cases h

/-- A response is read, and the transport has nothing more. -/
theorem reads_lossless_of_response : ∃ tr, ∃ s s' : Http2Session Nat, ∃ events,
    Machine.Runs apply (.ofConfig {}) tr s ∧ s.isHealthy = true ∧
      s.onReadable [wire [okResponseFrame 5]] .wouldBlock = .ok (s', events) ∧
      completions 7 events = 1 ∧
      ∃ protocol received, s.protocol.receiveChunks [wire [okResponseFrame 5]] =
          .ok (protocol, received) ∧
        (Lossless s s' received events ↔ ¬ Cut [wire [okResponseFrame 5]] .wouldBlock ∨
          ∀ id ∈ s.streamContexts.keys, outcomes id received = 0) := by
  have hrun : (Machine.run apply (.ofConfig {}) awaitingResponse).map
      (fun x => readOutcome [wire [okResponseFrame 5]] .wouldBlock x.1) =
      .ok (some (true, 1, 0, 1)) := by decide +kernel
  obtain ⟨s, tr, hr, -, hresult⟩ := Machine.exists_runs_of_map hrun
  obtain ⟨s', events, hread, hhealthy, -, -, hdone⟩ := onReadable_of_readOutcome hresult
  exact ⟨tr, s, s', events, hr, hhealthy, hread, hdone, reads_lossless_iff hr hhealthy hread⟩

/-- The peer sends the response and closes the connection: the context leaves the table of the
session, and no event reports it. -/
theorem response_lost_at_close : ∃ tr, ∃ s s' : Http2Session Nat, ∃ events,
    Machine.Runs apply (.ofConfig {}) tr s ∧ s.isHealthy = true ∧
      s.onReadable [wire [okResponseFrame 5]] .closed = .ok (s', events) ∧
      registrations 7 s.streamContexts = 1 ∧ registrations 7 s'.streamContexts = 0 ∧
      completions 7 events = 0 := by
  have hrun : (Machine.run apply (.ofConfig {}) awaitingResponse).map
      (fun x => readOutcome [wire [okResponseFrame 5]] .closed x.1) =
      .ok (some (true, 1, 0, 0)) := by decide +kernel
  obtain ⟨s, tr, hr, -, hresult⟩ := Machine.exists_runs_of_map hrun
  obtain ⟨s', events, hread, hhealthy, hbefore, hafter, hdone⟩ := onReadable_of_readOutcome hresult
  exact ⟨tr, s, s', events, hr, hhealthy, hread, hbefore, hafter, hdone⟩

end Http2Session

end Chttp2
