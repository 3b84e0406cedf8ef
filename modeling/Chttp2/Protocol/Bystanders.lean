import Chttp2.Protocol.Isolation
import Chttp2.Protocol.Verdicts

/-!
# Bystanders

The handling of a frame on a stream does not depend on the other streams. `AgreeOn S` relates states
that have the same streams with ids in `S`; the other streams may differ, and so may `receivedGoaway`.
Such states handle frames on streams of `S` in lockstep (`observe_eq_of_agreeOn`): they send the same
frames, and report the same about the streams of `S` and the connection. The proofs follow the
handlers.
-/

set_option autoImplicit false

namespace Chttp2

/-- The event is about the connection, or about a stream with an id in `S`. -/
def ProtocolEvent.concerns (S : StreamId → Prop) [DecidablePred S] (e : ProtocolEvent) : Bool :=
  e.streamIds.isEmpty || e.streamIds.any fun id => S id

/-- What a result is to the streams in `S`. -/
def ProtocolStepResult.shownTo (S : StreamId → Prop) [DecidablePred S] (r : ProtocolStepResult) :
    List OutboundBuffer × List ProtocolEvent :=
  (r.outbound, r.events.filter fun e => e.concerns S)

namespace ProtocolState

variable {S : StreamId → Prop} [DecidablePred S]

/-- The states have the same streams in `S`, and differ in other streams and in `receivedGoaway`
only. -/
def AgreeOn (S : StreamId → Prop) [DecidablePred S] (p q : ProtocolState) : Prop :=
  ∃ t g, q = { p with streams := t, receivedGoaway := g } ∧
    t.restrict S = p.streams.restrict S

/-- The states agree on `S`, or both are closed, and the results are the same to the streams
in `S`. -/
def ResultOn (S : StreamId → Prop) [DecidablePred S] (a b : ProtocolState × ProtocolStepResult) :
    Prop :=
  (a.1.closed = true ∧ b.1.closed = true ∨ AgreeOn S a.1 b.1) ∧ b.2.shownTo S = a.2.shownTo S

section Basics

variable {p q : ProtocolState} {r r' s s' : ProtocolStepResult} {id : StreamId}

theorem shownTo_merge (r s : ProtocolStepResult) :
    (r.merge s).shownTo S =
      ((r.shownTo S).1 ++ (s.shownTo S).1, (r.shownTo S).2 ++ (s.shownTo S).2) := by
  simp [ProtocolStepResult.shownTo, ProtocolStepResult.merge]

theorem AgreeOn.result (h : AgreeOn S p q) (r : ProtocolStepResult) : ResultOn S (p, r) (q, r) :=
  ⟨Or.inr h, rfl⟩

/-- The same result before what the rest shows. -/
theorem ResultOn.merge {a b : ProtocolState × ProtocolStepResult} (h : ResultOn S a b)
    (r : ProtocolStepResult) : ResultOn S (a.1, r.merge a.2) (b.1, r.merge b.2) := by
  refine ⟨h.1, ?_⟩
  show (r.merge b.2).shownTo S = (r.merge a.2).shownTo S
  rw [shownTo_merge, shownTo_merge, h.2]

theorem AgreeOn.putStream (h : AgreeOn S p q) (s : Stream) :
    AgreeOn S (p.putStream s) (q.putStream s) := by
  obtain ⟨t, g, rfl, ht⟩ := h
  refine ⟨t.set s, g, rfl, ?_⟩
  show (t.set s).restrict S = (p.streams.set s).restrict S
  rw [KeyedTable.restrict_set, KeyedTable.restrict_set, ht]

theorem restrict_erase_eq {t : StreamTable} (ht : t.restrict S = p.streams.restrict S)
    (id : StreamId) : (t.erase id).restrict S = (p.streams.erase id).restrict S := by
  rw [KeyedTable.restrict_erase, KeyedTable.restrict_erase, ht]

/-- A stream of `S` is found in both. -/
theorem find?_eq_of_restrict {t : StreamTable} (ht : t.restrict S = p.streams.restrict S)
    (hid : S id) : t.find? id = p.streams.find? id := by
  have h := congrArg (fun t => t.find? id) ht
  simpa only [KeyedTable.find?_restrict, if_pos hid] using h

theorem keys_filter_eq {t : StreamTable} (ht : t.restrict S = p.streams.restrict S) :
    (t.keys.filter fun k => S k) = p.streams.keys.filter fun k => S k := by
  rw [← KeyedTable.keys_restrict, ← KeyedTable.keys_restrict, ht]

end Basics

/-! ## Failures -/

section Failures

variable {p q : ProtocolState} {id : StreamId}

/-- Of the streams that fail, those in `S` are shown. -/
theorem shown_failures (code : ErrorCode) (ids : List StreamId) :
    (ids.flatMap (failureEvents code)).filter (fun e => e.concerns S) =
      (ids.filter fun k => S k).flatMap (failureEvents code) := by
  induction ids with
  | nil => rfl
  | cons id ids ih =>
    rw [List.flatMap_cons, List.filter_append, ih, List.filter_cons]
    by_cases hid : S id
    · simp [failureEvents, ProtocolEvent.concerns, ProtocolEvent.streamIds, hid]
    · simp [failureEvents, ProtocolEvent.concerns, ProtocolEvent.streamIds, hid]

theorem on_failConnection (h : AgreeOn S p q) (code : ErrorCode) (text : String) :
    ResultOn S (p.failConnection code text) (q.failConnection code text) := by
  obtain ⟨t, g, rfl, ht⟩ := h
  obtain ⟨ghost, heq⟩ := p.failConnection_eq code text
  obtain ⟨ghost', heq'⟩ :=
    ({ p with streams := t, receivedGoaway := g } : ProtocolState).failConnection_eq code text
  rw [heq, heq']
  refine ⟨Or.inl ⟨rfl, rfl⟩, ?_⟩
  simp only [ProtocolStepResult.shownTo, connectionFailure, List.filter_append, shown_failures,
    keys_filter_eq ht]
  rfl

theorem on_failStream (h : AgreeOn S p q) (hid : S id) (code : ErrorCode) (sendRst : Bool) :
    ResultOn S (p.failStream id code sendRst) (q.failStream id code sendRst) := by
  obtain ⟨t, g, rfl, ht⟩ := h
  unfold failStream
  dsimp only
  rw [find?_eq_of_restrict ht hid]
  cases p.streams.find? id with
  | none => exact AgreeOn.result ⟨t, g, rfl, ht⟩ _
  | some s => exact AgreeOn.result ⟨t.erase id, g, rfl, restrict_erase_eq ht id⟩ _

end Failures

/-! ## Streams -/

section Streams

variable {p q : ProtocolState} {s : Stream}

theorem on_ite {c : Prop} [Decidable c] {a b a' b' : ProtocolState × ProtocolStepResult}
    (hpos : c → ResultOn S a b) (hneg : ¬ c → ResultOn S a' b') :
    ResultOn S (if c then a else a') (if c then b else b') := by
  split
  · exact hpos ‹_›
  · exact hneg ‹_›

theorem agree_emitPendingRequestBody_on (h : AgreeOn S p q) (s : Stream) :
    Agree (ResultOn S) (p.emitPendingRequestBody s) (q.emitPendingRequestBody s) := by
  obtain ⟨t, g, rfl, ht⟩ := h
  unfold emitPendingRequestBody
  refine .ite (fun _ => AgreeOn.result ⟨t, g, rfl, ht⟩ _) fun _ => ?_
  refine .bind_same _ fun sent _ => ?_
  obtain ⟨u, conn, frames⟩ := sent
  have hsent : AgreeOn S { p with connectionOutFlow := conn }
      { p with connectionOutFlow := conn, streams := t, receivedGoaway := g } := ⟨t, g, rfl, ht⟩
  refine .ite (fun _ => .ite (fun _ => ?_) fun _ => ?_) fun _ => ?_
  · exact AgreeOn.result ⟨t.erase u.streamId, g, rfl, restrict_erase_eq ht _⟩ _
  · exact (hsent.putStream _).result _
  · exact (hsent.putStream _).result _

theorem agree_finalizeRemoteStream_on (h : AgreeOn S p q) (hs : S s.streamId) :
    Agree (ResultOn S) (p.finalizeRemoteStream s) (q.finalizeRemoteStream s) := by
  unfold finalizeRemoteStream
  refine .bind_same _ fun mismatch _ => ?_
  have hput := h.putStream { s with remoteEndStreamReceived := true }
  refine .ite (fun _ => ?_) fun _ => .ite (fun _ => ?_) fun _ => ?_
  · exact on_failStream hput hs _ _
  · obtain ⟨t, g, hq, ht⟩ := hput
    rw [hq]
    exact AgreeOn.result ⟨t.erase s.streamId, g, rfl, restrict_erase_eq ht _⟩ _
  · exact (hput.putStream _).result _

theorem agree_reportHeaders_on (h : AgreeOn S p q) (hs : S s.streamId) (endStream : Bool) :
    Agree (ResultOn S) (p.reportHeaders s endStream) (q.reportHeaders s endStream) := by
  unfold reportHeaders
  refine .ite (fun _ => ?_) fun _ => (h.putStream s).result _
  exact .bind (agree_finalizeRemoteStream_on (h.putStream s) hs) fun a b hab => hab.merge _

theorem agree_hpackDecode_on (h : AgreeOn S p q) (id : StreamId) (block : Bytes) :
    Agree (fun a b => AgreeOn S a.1 b.1 ∧ b.2 = a.2) (p.hpackDecode id block)
      (q.hpackDecode id block) := by
  obtain ⟨t, g, rfl, ht⟩ := h
  unfold hpackDecode
  exact .bind_same _ fun a _ => ⟨⟨t, g, rfl, ht⟩, rfl⟩

/-- The result of a decoded block: the streams agree, or both are closed, and the same is shown. -/
theorem agree_decodeResponseHeaders_on (h : AgreeOn S p q) (hs : S s.streamId) (endStream : Bool) :
    Agree (fun a b => (a.2.2 ≠ none → AgreeOn S a.1 b.1) ∧
        ResultOn S (a.1, a.2.1) (b.1, b.2.1) ∧ b.2.2 = a.2.2)
      (p.decodeResponseHeaders s endStream) (q.decodeResponseHeaders s endStream) := by
  unfold decodeResponseHeaders
  refine .bind (agree_hpackDecode_on h _ _) ?_
  rintro ⟨p', fields⟩ ⟨q', fields'⟩ ⟨hagree, hfields⟩
  dsimp only at hagree hfields ⊢
  subst hfields
  cases fields' with
  | none => exact ⟨fun _ => hagree, hagree.result _, rfl⟩
  | some headers =>
    have hmax : q'.maxHeaderListSize = p'.maxHeaderListSize := by
      obtain ⟨t, g, rfl, -⟩ := hagree
      rfl
    dsimp only
    rw [hmax]
    refine .ite (fun _ => ⟨fun _ => hagree, hagree.result _, rfl⟩) fun _ => ?_
    cases validateResponseHeaderBlock s.clearBlock headers endStream with
    | rejected code => exact ⟨fun _ => hagree.putStream _, (hagree.putStream _).result _, rfl⟩
    | informational cl => exact ⟨fun _ => hagree.putStream _, (hagree.putStream _).result _, rfl⟩
    | accepted cl =>
      -- headers and trailers are reported the same way
      have hreport : ∀ u : Stream, S u.streamId → Agree
          (fun a b => (a.2.2 ≠ none → AgreeOn S a.1 b.1) ∧
            ResultOn S (a.1, a.2.1) (b.1, b.2.1) ∧ b.2.2 = a.2.2)
          (p'.reportHeaders u endStream >>= fun a =>
            Pure.pure (a.1, a.2, (none : Option ErrorCode)))
          (q'.reportHeaders u endStream >>= fun a => Pure.pure (a.1, a.2, none)) := by
        intro u hu
        refine .bind (agree_reportHeaders_on hagree hu endStream) fun a b hab => ?_
        exact ⟨fun hne => absurd rfl hne, hab, rfl⟩
      refine .ite (fun _ => hreport _ hs) fun _ => .ite (fun _ => ?_) fun _ => hreport _ hs
      exact ⟨fun _ => hagree.putStream _, (hagree.putStream _).result _, rfl⟩

theorem agree_completeHeaderBlock_on (h : AgreeOn S p q) (hs : S s.streamId) (endStream : Bool) :
    Agree (ResultOn S) (p.completeHeaderBlock s endStream) (q.completeHeaderBlock s endStream) := by
  unfold completeHeaderBlock
  refine .bind (agree_decodeResponseHeaders_on h hs endStream) ?_
  rintro ⟨p', r, code⟩ ⟨q', r', code'⟩ ⟨hagree, hresult, hcode⟩
  dsimp only at hagree hresult hcode
  subst hcode
  cases code' with
  | none => exact hresult
  | some code =>
    have hagree := hagree (Option.some_ne_none _)
    show ResultOn S (p'.handleHeaderBlockError s.streamId code)
      (q'.handleHeaderBlockError s.streamId code)
    unfold handleHeaderBlockError
    exact on_ite (fun _ => on_failConnection hagree _ _) fun _ => on_failStream hagree hs _ _

end Streams

/-! ## Frames -/

section Frames

variable {p q : ProtocolState} {s : Stream} {f : RawFrame}

theorem on_processDataOnUnknownStream (h : AgreeOn S p q) (d : DataFrame) :
    ResultOn S (p.processDataOnUnknownStream d) (q.processDataOnUnknownStream d) := by
  obtain ⟨t, g, rfl, ht⟩ := h
  unfold processDataOnUnknownStream
  refine on_ite (fun _ => on_failConnection ⟨t, g, rfl, ht⟩ _ _) fun _ => ?_
  refine on_ite (fun _ => on_failConnection ⟨t, g, rfl, ht⟩ _ _) fun _ => ?_
  dsimp only
  cases p.connectionInflow.take d.header.payloadLength with
  | none => exact on_failConnection ⟨t, g, rfl, ht⟩ _ _
  | some inflow =>
    refine on_ite (fun _ => ?_) fun _ => ⟨Or.inr ⟨t, g, rfl, ht⟩, rfl⟩
    exact on_failConnection (p := { p with connectionInflow := inflow }) ⟨t, g, rfl, ht⟩ _ _

theorem agree_storeData_on (h : AgreeOn S p q) (hs : S s.streamId) (d : DataFrame) :
    Agree (ResultOn S) (p.storeData s d) (q.storeData s d) := by
  unfold storeData
  -- the record with the bytes of the frame is put back before the windows are looked at
  generalize hu : { s with
    resp := { s.resp with body := s.resp.body ++ d.data }
    receivedContentLength := s.receivedContentLength + d.data.length } = u
  have hs' : S u.streamId := by
    rw [← hu]
    exact hs
  have hput := h.putStream u
  dsimp only
  revert hput
  generalize p.putStream u = a
  generalize q.putStream u = b
  rintro ⟨t, g, rfl, ht⟩
  dsimp only
  obtain ⟨connRefresh, connectionInflow⟩ := a.connectionInflow.add d.header.payloadLength
  refine .ite (fun _ => on_failConnection ⟨t, g, rfl, ht⟩ _ _) fun _ => ?_
  obtain ⟨streamRefresh, inflow⟩ := u.inflow.add d.header.payloadLength
  have hcharged : AgreeOn S { a with connectionInflow }
      { a with connectionInflow, streams := t, receivedGoaway := g } := ⟨t, g, rfl, ht⟩
  refine .ite (fun _ => on_failStream hcharged hs' _ _) fun _ => .ite (fun _ => ?_) fun _ => ?_
  · refine .bind (agree_finalizeRemoteStream_on (hcharged.putStream { u with inflow }) hs') ?_
    exact fun c e hfin => hfin.merge _
  · exact (hcharged.putStream { u with inflow }).result _

theorem agree_chargedData_on (h : AgreeOn S p q) (hs : S s.streamId) (d : DataFrame) :
    Agree (ResultOn S) (p.chargedData s d) (q.chargedData s d) := by
  unfold chargedData
  refine .ite (fun _ => ?_) fun _ => agree_storeData_on h hs d
  refine .bind_same _ fun noBody _ => ?_
  exact .ite (fun _ => on_failStream h hs _ _) fun _ => agree_storeData_on h hs d

theorem agree_processDataFrame_on (h : AgreeOn S p q) (hs : S f.header.streamId) :
    Agree (ResultOn S) (p.processDataFrame f) (q.processDataFrame f) := by
  obtain ⟨t, g, rfl, ht⟩ := h
  unfold processDataFrame
  refine .ite (fun _ => on_failConnection ⟨t, g, rfl, ht⟩ _ _) fun _ => ?_
  refine .bind_same _ fun padding _ => ?_
  cases padding with
  | some error => exact on_failConnection ⟨t, g, rfl, ht⟩ _ _
  | none =>
    refine .bind_same _ fun d _ => ?_
    dsimp only
    rw [find?_eq_of_restrict ht hs]
    cases hfind : p.streams.find? f.header.streamId with
    | none => exact on_processDataOnUnknownStream ⟨t, g, rfl, ht⟩ d
    | some s =>
      have hs' : S s.streamId := KeyedTable.key_of_find? hfind ▸ hs
      refine .ite (fun _ => on_failStream ⟨t, g, rfl, ht⟩ hs' _ _) fun _ => ?_
      refine .ite (fun _ => on_failStream ⟨t, g, rfl, ht⟩ hs' _ _) fun _ => ?_
      cases InFlow.takeInflows p.connectionInflow s.inflow d.header.payloadLength with
      | none => exact on_failConnection ⟨t, g, rfl, ht⟩ _ _
      | some windows =>
        obtain ⟨connectionInflow, inflow⟩ := windows
        have hcharged : AgreeOn S { p with connectionInflow }
            { p with connectionInflow, streams := t, receivedGoaway := g } := ⟨t, g, rfl, ht⟩
        exact agree_chargedData_on (s := { s with inflow }) (hcharged.putStream _) hs' d

theorem agree_processGhostHeaders_on (h : AgreeOn S p q) (hf : HeadersFrame) :
    Agree (ResultOn S) (p.processGhostHeaders hf) (q.processGhostHeaders hf) := by
  obtain ⟨t, g, rfl, ht⟩ := h
  unfold processGhostHeaders
  refine .ite (fun _ => on_failConnection ⟨t, g, rfl, ht⟩ _ _) fun _ => ?_
  refine .ite (fun _ => on_failConnection ⟨t, g, rfl, ht⟩ _ _) fun _ => .ite (fun _ => ?_) fun _ => ?_
  · refine .bind (agree_hpackDecode_on ⟨t, g, rfl, ht⟩ _ _) ?_
    rintro ⟨p', fields⟩ ⟨q', fields'⟩ ⟨hagree, hfields⟩
    dsimp only at hagree hfields
    subst hfields
    cases fields' with
    | none => exact on_failConnection hagree _ _
    | some headers => exact hagree.result _
  · exact .bind_same _ fun block _ => ⟨Or.inr ⟨t, g, rfl, ht⟩, rfl⟩

theorem agree_processHeadersFrame_on (h : AgreeOn S p q) (hs : S f.header.streamId) :
    Agree (ResultOn S) (p.processHeadersFrame f) (q.processHeadersFrame f) := by
  obtain ⟨t, g, rfl, ht⟩ := h
  unfold processHeadersFrame
  refine .ite (fun _ => on_failConnection ⟨t, g, rfl, ht⟩ _ _) fun _ => ?_
  refine .bind_same _ fun padding _ => ?_
  cases padding with
  | some error => exact on_failConnection ⟨t, g, rfl, ht⟩ _ _
  | none =>
    refine .bind_same _ fun hf _ => ?_
    dsimp only
    -- the stream of the frame is one of those that the states share
    rw [find?_eq_of_restrict ht hs]
    cases hfind : p.streams.find? f.header.streamId with
    | none => exact agree_processGhostHeaders_on ⟨t, g, rfl, ht⟩ hf
    | some s =>
      have hs' : S s.streamId := KeyedTable.key_of_find? hfind ▸ hs
      refine .ite (fun _ => on_failStream ⟨t, g, rfl, ht⟩ hs' _ _) fun _ => ?_
      refine .bind_same _ fun pendingHeaderBlock _ => ?_
      have hput : AgreeOn S (p.putStream { s with pendingHeaderBlock })
          (({ p with streams := t, receivedGoaway := g } : ProtocolState).putStream
            { s with pendingHeaderBlock }) := AgreeOn.putStream ⟨t, g, rfl, ht⟩ _
      refine .ite (fun _ => on_failConnection hput _ _) fun _ => .ite (fun _ => ?_) fun _ => ?_
      · obtain ⟨t', g', hq, ht'⟩ := hput
        have hwaits : AgreeOn S { p.putStream { s with pendingHeaderBlock } with
            expectingContinuation := true, continuationStreamId := s.streamId }
            { ({ p with streams := t, receivedGoaway := g } : ProtocolState).putStream
              { s with pendingHeaderBlock } with
              expectingContinuation := true, continuationStreamId := s.streamId } :=
          ⟨t', g', by rw [hq], ht'⟩
        exact (hwaits.putStream _).result _
      · exact agree_completeHeaderBlock_on (s := { s with pendingHeaderBlock }) hput hs' _

theorem on_processPriorityFrame (h : AgreeOn S p q) :
    ResultOn S (p.processPriorityFrame f) (q.processPriorityFrame f) := by
  unfold processPriorityFrame
  refine on_ite (fun _ => on_failConnection h _ _) fun _ => ?_
  exact on_ite (fun _ => h.result _) fun _ => h.result _

theorem agree_processRstStreamFrame_on (h : AgreeOn S p q) (hs : S f.header.streamId) :
    Agree (ResultOn S) (p.processRstStreamFrame f) (q.processRstStreamFrame f) := by
  obtain ⟨t, g, rfl, ht⟩ := h
  unfold processRstStreamFrame
  refine .ite (fun _ => on_failConnection ⟨t, g, rfl, ht⟩ _ _) fun _ => ?_
  refine .ite (fun _ => on_failConnection ⟨t, g, rfl, ht⟩ _ _) fun _ => ?_
  dsimp only
  rw [find?_eq_of_restrict ht hs]
  cases p.streams.find? f.header.streamId with
  | none =>
    exact .ite (fun _ => on_failConnection ⟨t, g, rfl, ht⟩ _ _) fun _ => ⟨Or.inr ⟨t, g, rfl, ht⟩, rfl⟩
  | some s =>
    refine .bind_same _ fun rst _ => ?_
    exact (on_failStream (p := p) ⟨t, g, rfl, ht⟩ hs (ErrorCode.ofNat rst.errorCode) false).merge _

theorem agree_processPushPromiseFrame_on (h : AgreeOn S p q) :
    Agree (ResultOn S) (p.processPushPromiseFrame f) (q.processPushPromiseFrame f) := by
  obtain ⟨t, g, rfl, ht⟩ := h
  unfold processPushPromiseFrame
  refine .ite (fun _ => on_failConnection ⟨t, g, rfl, ht⟩ _ _) fun _ => ?_
  refine .bind_same _ fun padding _ => ?_
  cases padding with
  | some error => exact on_failConnection ⟨t, g, rfl, ht⟩ _ _
  | none =>
    refine .bind_same _ fun push _ => ?_
    refine .ite (fun _ => on_failConnection ⟨t, g, rfl, ht⟩ _ _) fun _ => ?_
    refine .ite (fun _ => on_failConnection ⟨t, g, rfl, ht⟩ _ _) fun _ => .ite (fun _ => ?_) fun _ => ?_
    · exact (on_failConnection (p := p) ⟨t, g, rfl, ht⟩ .protocolError "server push disabled").merge _
    · exact ⟨Or.inr ⟨t, g, rfl, ht⟩, rfl⟩

theorem agree_processWindowUpdateFrame_on (h : AgreeOn S p q) (hs : S f.header.streamId)
    (hid : f.header.streamId ≠ 0) :
    Agree (ResultOn S) (p.processWindowUpdateFrame f) (q.processWindowUpdateFrame f) := by
  obtain ⟨t, g, rfl, ht⟩ := h
  unfold processWindowUpdateFrame
  refine .ite (fun _ => on_failConnection ⟨t, g, rfl, ht⟩ _ _) fun _ => ?_
  refine .bind_same _ fun window _ => ?_
  refine .ite (fun _ => .ite (fun h => absurd h hid) fun _ => ?_) fun _ => ?_
  · exact on_failStream ⟨t, g, rfl, ht⟩ hs _ _
  refine .ite (fun h => absurd h hid) fun _ => ?_
  dsimp only
  rw [find?_eq_of_restrict ht hs]
  cases p.streams.find? f.header.streamId with
  | none =>
    exact .ite (fun _ => on_failConnection ⟨t, g, rfl, ht⟩ _ _) fun _ => ⟨Or.inr ⟨t, g, rfl, ht⟩, rfl⟩
  | some s =>
    dsimp only
    cases s.outflow.add ((window.windowSizeIncrement % 2 ^ 31 : Nat) : Int) with
    | none => exact on_failStream ⟨t, g, rfl, ht⟩ hs _ _
    | some outflow =>
      have hput : AgreeOn S (p.putStream { s with outflow })
          (({ p with streams := t, receivedGoaway := g } : ProtocolState).putStream
            { s with outflow }) := AgreeOn.putStream ⟨t, g, rfl, ht⟩ _
      exact .bind (agree_emitPendingRequestBody_on hput _) fun a b hab => hab.merge _

theorem agree_processGhostContinuation_on (h : AgreeOn S p q) (c : ContinuationFrame) :
    Agree (ResultOn S) (p.processGhostContinuation c) (q.processGhostContinuation c) := by
  obtain ⟨t, g, rfl, ht⟩ := h
  unfold processGhostContinuation
  refine .bind_same _ fun ghostHeaderBlock _ => ?_
  refine .ite (fun _ => ?_) fun _ => .ite (fun _ => ⟨Or.inr ⟨t, g, rfl, ht⟩, rfl⟩) fun _ => ?_
  · exact on_failConnection (p := { p with ghostHeaderBlock := [] }) ⟨t, g, rfl, ht⟩ _ _
  refine .bind (agree_hpackDecode_on (p := { p with
    expectingContinuation := false, continuationStreamId := 0 }) ⟨t, g, rfl, ht⟩ _ _) ?_
  rintro ⟨p', fields⟩ ⟨q', fields'⟩ ⟨⟨t', g', hq, ht'⟩, hfields⟩
  dsimp only at hq ht' hfields
  subst hq hfields
  cases fields' with
  | none =>
    exact on_failConnection (p := { p' with ghostHeaderBlock := [] }) ⟨t', g', rfl, ht'⟩ _ _
  | some headers => exact ⟨Or.inr ⟨t', g', rfl, ht'⟩, rfl⟩

theorem agree_processContinuationFrame_on (h : AgreeOn S p q) (hs : S f.header.streamId) :
    Agree (ResultOn S) (p.processContinuationFrame f) (q.processContinuationFrame f) := by
  obtain ⟨t, g, rfl, ht⟩ := h
  unfold processContinuationFrame
  refine .ite (fun _ => on_failConnection ⟨t, g, rfl, ht⟩ _ _) fun _ => ?_
  refine .ite (fun _ => on_failConnection ⟨t, g, rfl, ht⟩ _ _) fun _ => ?_
  dsimp only
  rw [find?_eq_of_restrict ht hs]
  cases hfind : p.streams.find? f.header.streamId with
  | none => exact agree_processGhostContinuation_on ⟨t, g, rfl, ht⟩ _
  | some s =>
    have hs' : S s.streamId := KeyedTable.key_of_find? hfind ▸ hs
    refine .bind_same _ fun pendingHeaderBlock _ => ?_
    have hput : AgreeOn S (p.putStream { s with pendingHeaderBlock })
        (({ p with streams := t, receivedGoaway := g } : ProtocolState).putStream
          { s with pendingHeaderBlock }) := AgreeOn.putStream ⟨t, g, rfl, ht⟩ _
    refine .ite (fun _ => on_failConnection hput _ _) fun _ => .ite (fun _ => hput.result _) fun _ => ?_
    -- nothing is expected any more once the block is complete
    have hdone : AgreeOn S
        { p.putStream { s with pendingHeaderBlock } with
          expectingContinuation := false, continuationStreamId := 0 }
        { ({ p with streams := t, receivedGoaway := g } : ProtocolState).putStream
          { s with pendingHeaderBlock } with
          expectingContinuation := false, continuationStreamId := 0 } := by
      obtain ⟨t', g', hq, ht'⟩ := hput
      exact ⟨t', g', by rw [hq], ht'⟩
    exact agree_completeHeaderBlock_on
      (s := { s with pendingHeaderBlock, waitingForContinuation := false }) (hdone.putStream _) hs' _

/-- A frame on a stream of `S` is handled alike. -/
theorem agree_receiveFrame_on (h : AgreeOn S p q) (hs : S f.header.streamId)
    (hid : f.header.streamId ≠ 0) : Agree (ResultOn S) (p.receiveFrame f) (q.receiveFrame f) := by
  obtain ⟨t, g, rfl, ht⟩ := h
  unfold receiveFrame
  refine .ite (fun _ => on_failConnection ⟨t, g, rfl, ht⟩ _ _) fun _ => ?_
  refine .ite (fun _ => on_failConnection ⟨t, g, rfl, ht⟩ _ _) fun _ => ?_
  refine .ite (fun _ => on_failConnection ⟨t, g, rfl, ht⟩ _ _) fun _ => ?_
  cases f.header.type with
  | data => exact agree_processDataFrame_on ⟨t, g, rfl, ht⟩ hs
  | headers => exact agree_processHeadersFrame_on ⟨t, g, rfl, ht⟩ hs
  | priority => exact on_processPriorityFrame ⟨t, g, rfl, ht⟩
  | rstStream => exact agree_processRstStreamFrame_on ⟨t, g, rfl, ht⟩ hs
  | pushPromise => exact agree_processPushPromiseFrame_on ⟨t, g, rfl, ht⟩
  | windowUpdate => exact agree_processWindowUpdateFrame_on ⟨t, g, rfl, ht⟩ hs hid
  | continuation => exact agree_processContinuationFrame_on ⟨t, g, rfl, ht⟩ hs
  | other _ => exact ⟨Or.inr ⟨t, g, rfl, ht⟩, rfl⟩
  -- frames of the connection must not be on a stream
  | settings =>
    unfold processSettingFrame
    rw [if_pos hid, if_pos hid]
    exact on_failConnection ⟨t, g, rfl, ht⟩ _ _
  | ping =>
    unfold processPingFrame
    rw [if_pos hid, if_pos hid]
    exact on_failConnection ⟨t, g, rfl, ht⟩ _ _
  | goAway =>
    unfold processGoAwayFrame
    rw [if_pos hid, if_pos hid]
    exact on_failConnection ⟨t, g, rfl, ht⟩ _ _

/-- Frames on streams of `S` are handled in lockstep. -/
theorem observe_eq_of_agreeOn (h : AgreeOn S p q) (frames : List RawFrame)
    (hframes : ∀ f ∈ frames, S f.header.streamId ∧ f.header.streamId ≠ 0) :
    Machine.observe receive (ProtocolStepResult.shownTo S) p frames =
      Machine.observe receive (ProtocolStepResult.shownTo S) q frames := by
  refine Machine.observe_eq_of_forall
    (R := fun p q => p.closed = true ∧ q.closed = true ∨ AgreeOn S p q) ?_ frames hframes (Or.inr h)
  intro p q f hpq hf
  rcases hpq with ⟨hp, hq⟩ | h
  · unfold receive act
    dsimp only
    rw [if_pos (by simp [hp]), if_pos (by simp [hq])]
    exact ⟨Or.inl ⟨hp, hq⟩, rfl⟩
  · have hone := agree_receiveFrame_on h hf.1 hf.2
    obtain ⟨t, g, rfl, ht⟩ := h
    refine .ite (fun _ => ⟨Or.inr ⟨t, g, rfl, ht⟩, rfl⟩) fun _ => ?_
    exact hone.mono fun a b hab => ⟨hab.1, hab.2.symm⟩

end Frames

end ProtocolState

end Chttp2
