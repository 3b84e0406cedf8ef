import Chttp2.Protocol.Outcome

/-!
# Streams that have been reset

Every outbound frame goes to the connection or to a live stream, and a step that sends RST_STREAM
removes the stream (`Addressed`), except that a PRIORITY frame of the wrong size is answered with
RST_STREAM on whatever stream it names (`reset_of_unopened_stream`). Apart from these answers a
stream on which RST_STREAM has been sent gets no further frame (`reset_stream_is_dead`).
-/

set_option autoImplicit false

namespace Chttp2

open ProtocolState

/-! ## The streams of outbound frames -/

namespace OutboundBuffer

/-- The stream of a buffer; the preface belongs to the connection. -/
def streamId : OutboundBuffer → StreamId
  | .preface => 0
  | .data f => f.header.streamId
  | .headers f => f.header.streamId
  | .rstStream f => f.header.streamId
  | .settings f => f.header.streamId
  | .ping f => f.header.streamId
  | .goAway f => f.header.streamId
  | .windowUpdate f => f.header.streamId
  | .continuation f => f.header.streamId

/-- The buffer is a RST_STREAM frame. -/
def isReset : OutboundBuffer → Bool
  | .rstStream _ => true
  | _ => false

end OutboundBuffer

/-- No frame follows a RST_STREAM on its stream. -/
def ResetsLast (out : List OutboundBuffer) : Prop :=
  out.Pairwise fun x y => x.isReset = true → y.streamId ≠ x.streamId

/-- The frames that a step sends: on the connection, on live streams or on the stream it opens, and
RST_STREAM last and only on streams that it removes. -/
structure Addressed (p p' : ProtocolState) (out : List OutboundBuffer) : Prop where
  target : ∀ x ∈ out, x.streamId = 0 ∨ x.streamId ∈ p.streams.keys ∨ x.streamId = p.nextStreamId
  reset : ∀ x ∈ out, x.isReset = true →
    x.streamId ∈ p.streams.keys ∧ x.streamId ∉ p'.streams.keys
  last : ResetsLast out

section Steps

variable {p p₁ p' : ProtocolState} {s : Stream} {r : ProtocolStepResult} {f : RawFrame}
  {out out' : List OutboundBuffer}

/-- Frames other than RST_STREAM on the connection or on live streams. -/
def Calls (t : StreamTable) (out : List OutboundBuffer) : Prop :=
  ∀ x ∈ out, x.isReset = false ∧ (x.streamId = 0 ∨ x.streamId ∈ t.keys)

theorem Calls.nil (t : StreamTable) : Calls t [] := fun _ h => (List.not_mem_nil h).elim

theorem Calls.append {t : StreamTable} (h : Calls t out) (h' : Calls t out') :
    Calls t (out ++ out') :=
  fun x hx => (List.mem_append.1 hx).elim (h x) (h' x)

theorem Calls.cons {t : StreamTable} {x : OutboundBuffer} (hx : x.isReset = false)
    (hid : x.streamId = 0 ∨ x.streamId ∈ t.keys) (h : Calls t out) : Calls t (x :: out) := by
  intro y hy
  rcases List.mem_cons.1 hy with rfl | hy
  · exact ⟨hx, hid⟩
  · exact h y hy

theorem Calls.mono {t t' : StreamTable} (h : Calls t' out) (hkeys : NoNewStreams t t') :
    Calls t out :=
  fun x hx => ⟨(h x hx).1, (h x hx).2.imp_right (hkeys _)⟩

theorem Calls.addressed (h : Calls p.streams out) : Addressed p p' out := by
  refine ⟨fun x hx => (h x hx).2.imp_right Or.inl, fun x hx hreset => ?_,
    List.pairwise_of_forall_mem_list fun x hx y _ hreset => ?_⟩
  all_goals
    rw [(h x hx).1] at hreset
    cases hreset

theorem Addressed.nil (p p' : ProtocolState) : Addressed p p' [] := (Calls.nil _).addressed

/-- Frames in front that are no RST_STREAM. -/
theorem Addressed.prepend (h : Calls p.streams out) (h' : Addressed p p' out') :
    Addressed p p' (out ++ out') := by
  have hcalls : Addressed p p' out := h.addressed
  refine ⟨fun x hx => ?_, fun x hx hreset => ?_, ?_⟩
  · exact (List.mem_append.1 hx).elim (fun hx => (h x hx).2.imp_right Or.inl) (h'.target x)
  · rcases List.mem_append.1 hx with hx | hx
    · rw [(h x hx).1] at hreset
      cases hreset
    · exact h'.reset x hx hreset
  · refine List.pairwise_append.2 ⟨hcalls.last, h'.last,
      fun x hx y _ hreset => ?_⟩
    rw [(h x hx).1] at hreset
    cases hreset

/-- A live stream is failed. -/
theorem addressed_streamFailure (q : ProtocolState) {id : StreamId} (code : ErrorCode)
    (rst : Bool) (hlive : id ∈ p.streams.keys) (hgone : id ∉ p'.streams.keys) :
    Addressed p p' (q.streamFailure id code rst).outbound := by
  rcases q.streamFailure_outbound id code rst with h | h
  · rw [h]
    exact .nil _ _
  · rw [h]
    refine ⟨fun x hx => ?_, fun x hx _ => ?_, List.pairwise_singleton _ _⟩
    · rw [List.mem_singleton.1 hx]
      exact Or.inr (Or.inl hlive)
    · rw [List.mem_singleton.1 hx]
      exact ⟨hlive, hgone⟩

theorem calls_connection {t : StreamTable} {x : OutboundBuffer} (hx : x.isReset = false)
    (hid : x.streamId = 0) : Calls t [x] :=
  .cons hx (Or.inl hid) (.nil t)

theorem calls_connectionFailure (t : StreamTable) (q : ProtocolState) (code : ErrorCode)
    (text : Bytes) : Calls t (q.connectionFailure code text).outbound := by
  rcases q.connectionFailure_outbound code text with h | h
  · rw [h]
    exact .nil t
  · rw [h]
    exact calls_connection rfl rfl

theorem calls_refreshFrames {t : StreamTable} {id : StreamId} (h : id = 0 ∨ id ∈ t.keys)
    (n : Int) : Calls t (refreshFrames id n) := by
  rcases refreshFrames_cases id n with heq | heq
  · rw [heq]
    exact .nil t
  · rw [heq]
    exact .cons rfl h (.nil t)

theorem calls_bodyStep (hstep : BodyStep p s p' r) (hlive : s.streamId ∈ p.streams.keys) :
    Calls p.streams r.outbound := by
  obtain ⟨frames, heq, hid⟩ := hstep.outbound
  rw [heq]
  intro x hx
  obtain ⟨f, hf, rfl⟩ := List.mem_map.1 hx
  refine ⟨rfl, Or.inr ?_⟩
  show f.header.streamId ∈ p.streams.keys
  rw [hid f hf]
  exact hlive

theorem calls_bodySteps {ids : List StreamId} (hsteps : BodySteps ids p p' r) :
    Calls p.streams r.outbound := by
  induction hsteps with
  | nil => exact .nil _
  | gone _ _ ih => exact ih
  | cons hfind hstep _ ih =>
    have hlive : _ ∈ _ := mem_keys_of_find? hfind
    exact (calls_bodyStep hstep hlive).append (ih.mono (noNewStreams_bodyStep hstep))

theorem addressed_ending {b : Bool} (hend : Ending p s b p' r)
    (hlive : s.streamId ∈ p.streams.keys) : Addressed p p' r.outbound := by
  cases hend with
  | mismatch =>
    exact addressed_streamFailure p _ _ hlive
      (KeyedTable.find?_eq_none_iff.1 (KeyedTable.find?_erase_self _ _))
  | _ => exact .nil _ _

theorem addressed_blockStep {b : Bool} (hstep : BlockStep p s b p' r)
    (hlive : s.streamId ∈ p.streams.keys) : Addressed p p' r.outbound := by
  have hgone : s.streamId ∉ (p.streams.erase s.streamId).keys :=
    KeyedTable.find?_eq_none_iff.1 (KeyedTable.find?_erase_self _ _)
  cases hstep with
  | tooLarge => exact addressed_streamFailure p _ _ hlive hgone
  | rejected => exact addressed_streamFailure p _ _ hlive hgone
  | informational => exact .nil _ _
  | headers headers cl hd hsize hv hfinal hend =>
    have h := addressed_ending hend hlive
    exact ⟨h.1, h.2, h.3⟩
  | trailers headers cl hd hsize hv hfinal hconnect hend =>
    have h := addressed_ending hend hlive
    exact ⟨h.1, h.2, h.3⟩

/-- A frame that is not a PRIORITY frame of the wrong size sends RST_STREAM only on a stream that it
removes. -/
theorem ProtocolState.FrameStep.addressed (hstep : FrameStep p f p' r)
    (hpriority : f.header.type = .priority → f.header.payloadLength = 5) :
    Addressed p p' r.outbound := by
  -- a stream that fails is removed in the same step
  have hfailed : ∀ {s : Stream} (q : ProtocolState) (code : ErrorCode) (rst : Bool),
      p.streams.find? f.header.streamId = some s →
      p'.streams = p.streams.erase s.streamId →
      Addressed p p' (q.streamFailure f.header.streamId code rst).outbound := by
    intro s q code rst hfind heq
    refine addressed_streamFailure q code rst (KeyedTable.mem_keys_of_find? hfind) ?_
    rw [heq, KeyedTable.key_of_find? hfind]
    exact KeyedTable.find?_eq_none_iff.1 (KeyedTable.find?_erase_self _ _)
  cases hstep with
  | reported h =>
    cases h with
    | priorityLength ht h => exact absurd (hpriority ht) h
    | ping ht hack frame hid => exact (calls_connection (x := .ping frame) rfl hid).addressed
    | _ => exact .nil _ _
  | connectionFailed hv hd hpre =>
    refine Calls.addressed (.append ?_ (calls_connectionFailure _ _ _ _))
    rcases hpre with rfl | ⟨promised, rfl⟩ <;> exact .nil _
  | dataRefused s ht hfind => exact hfailed p _ _ hfind rfl
  | dataOnRemoved => exact (calls_refreshFrames (Or.inl rfl) _).addressed
  | dataOnBodiless s ht hfind => exact hfailed p _ _ hfind rfl
  | dataStored s ht hfind hopen hfinal htake hbody hend =>
    have hlive := KeyedTable.mem_keys_of_find? hfind
    have hkey := mem_keys_of_find? hfind
    have h := addressed_ending hend hkey
    exact .prepend (.append (calls_refreshFrames (Or.inl rfl) _)
      (calls_refreshFrames (Or.inr hlive) _)) ⟨h.1, h.2, h.3⟩
  | headersRefused s ht hfind => exact hfailed p _ _ hfind rfl
  | ghostHeaders => exact .nil _ _
  | ghostHeadersOpen => exact .nil _ _
  | headersOpen => exact .nil _ _
  | headersBlock s ht hfind hopen hend hblock =>
    have hkey := mem_keys_of_find? hfind
    exact addressed_blockStep hblock hkey
  | streamReset s code ht hfind => exact .prepend (.nil _) (hfailed p code false hfind rfl)
  | settingsApplied ht hack happ hbodies =>
    have hkeys := (tuned_of_settings happ).streams.1
    refine Calls.addressed (.append ?_ (calls_connection rfl rfl))
    exact (calls_bodySteps hbodies).mono fun id hid => hkeys ▸ hid
  | goAway => exact .nil _ _
  | connectionWindow ht hid hadd hbodies =>
    exact Calls.addressed (.append (.nil _) (calls_bodySteps hbodies :))
  | windowRefused s ht hid hfind => exact hfailed p _ _ hfind rfl
  | @streamWindow s outflow _ _ ht hid hfind hadd hbody =>
    -- the streams are the same as before, with one window moved
    have hlive : s.streamId ∈ (p.putStream (s.withOutflow outflow)).streams.keys := by
      rw [keys_putStream]
      exact mem_keys_of_find? hfind
    have h := (calls_bodyStep hbody hlive).mono (noNewStreams_set p.streams _)
    exact Calls.addressed (.append (.nil _) h)
  | ghostContinuationOpen => exact .nil _ _
  | ghostContinuation => exact .nil _ _
  | continuationOpen => exact .nil _ _
  | continuationBlock s ht hexp hid hfind hend hblock =>
    have hkey := mem_keys_of_find? hfind
    have h := addressed_blockStep hblock hkey
    exact ⟨h.1, h.2, h.3⟩

theorem calls_emitContinuations {t : StreamTable} {maxFrameSize : Nat} {id : StreamId}
    (hid : id ∈ t.keys) (fuel : Nat) :
    ∀ span, Calls t (emitContinuations maxFrameSize id fuel span) := by
  induction fuel with
  | zero => exact fun _ => .nil t
  | succ fuel ih =>
    intro span
    simp only [emitContinuations]
    split
    · exact .nil t
    · refine .cons rfl (Or.inr ?_) (ih _)
      show (if _ then _ else _ : FrameHeader).streamId ∈ t.keys
      split <;> exact hid

theorem calls_requestHeaderFrames {t : StreamTable} {request : Request}
    (hid : p.nextStreamId ∈ t.keys) : Calls t (p.requestHeaderFrames request) := by
  refine .cons rfl (Or.inr ?_) (calls_emitContinuations ?_ _ _)
  · show (if _ then (if _ then _ else _) else _ : FrameHeader).streamId ∈ t.keys
    split
    · split <;> exact hid
    · exact hid
  · split <;> exact hid

/-- The action receives a PRIORITY frame of the wrong size. -/
def Action.wrongPriority : Action → Bool
  | .receiveFrame f => f.header.type = .priority && f.header.payloadLength ≠ 5
  | _ => false

/-- Every step but the answer to a PRIORITY frame of the wrong size sends RST_STREAM only on streams
that it removes. -/
theorem ProtocolState.ActionStep.addressed {a : Action} (hstep : ActionStep p a p' r)
    (ha : a.wrongPriority = false) : Addressed p p' r.outbound := by
  cases hstep with
  | started =>
    exact Calls.addressed (.cons rfl (Or.inl rfl) (calls_connection rfl rfl))
  | opened request rehash hcan hvalid hroom hpos hmax hbody =>
    have hself : (p.openedStream request).streamId ∈
        ((p.opening request rehash).putStream (p.openedStream request)).streams.keys :=
      mem_keys_opening.2 (Or.inl rfl)
    have hheaders : Calls _ (p.requestHeaderFrames request) := calls_requestHeaderFrames hself
    have hcalls := hheaders.append (calls_bodyStep hbody hself)
    have haddressed : Addressed _ p' _ := hcalls.addressed
    refine ⟨fun x hx => (hcalls x hx).2.imp_right fun hmem => ?_, fun x hx hreset => ?_,
      haddressed.last⟩
    · exact (mem_keys_opening.1 hmem).symm
    · rw [(hcalls x hx).1] at hreset
      cases hreset
  | cancelled id code s hopen hfind =>
    refine addressed_streamFailure p code true (KeyedTable.mem_keys_of_find? hfind) ?_
    show id ∉ (p.streams.erase s.streamId).keys
    rw [KeyedTable.key_of_find? hfind]
    exact KeyedTable.find?_eq_none_iff.1 (KeyedTable.find?_erase_self _ _)
  | pinged frame hid => exact (calls_connection (x := .ping frame) rfl hid).addressed
  | closed =>
    refine Calls.addressed ?_
    rcases p.closeResult_outbound with h | h
    · rw [h]
      exact .nil _
    · rw [h]
      exact calls_connection rfl rfl
  | frame f hopen hup h =>
    refine h.addressed fun ht => ?_
    simpa [Action.wrongPriority, ht] using ha
  | _ => exact .nil _ _

end Steps

/-! ## Runs -/

/-- The frames of a trace besides the answers to PRIORITY frames of the wrong size. -/
def regularOutbound (tr : List Entry) : List OutboundBuffer :=
  outboundOf (tr.filter fun e => !e.input.wrongPriority)

section Runs

variable {config : ClientConfig} {tr : List Entry} {p p' : ProtocolState} {a : Action}
  {r : ProtocolStepResult}

theorem regularOutbound_snoc_of_wrong (h : a.wrongPriority = true) :
    regularOutbound (tr ++ [⟨p, a, r⟩]) = regularOutbound tr := by
  simp [regularOutbound, h]

theorem regularOutbound_snoc (h : a.wrongPriority = false) :
    regularOutbound (tr ++ [⟨p, a, r⟩]) = regularOutbound tr ++ r.outbound := by
  simp [regularOutbound, h]

/-- The streams on which RST_STREAM has been sent are gone, and got no frame afterwards. -/
structure ResetsDead (tr : List Entry) (p : ProtocolState) : Prop where
  dead : ∀ x ∈ regularOutbound tr, x.isReset = true →
    x.streamId % 2 = 1 ∧ x.streamId < p.nextStreamId ∧ x.streamId ∉ p.streams.keys
  last : ResetsLast (regularOutbound tr)

/-- A stream that is gone does not come back. -/
theorem ProtocolState.ActionStep.mem_keys {id : StreamId} (hstep : ActionStep p a p' r)
    (hid : id ∈ p'.streams.keys) : id ∈ p.streams.keys ∨ id = p.nextStreamId := by
  cases hstep with
  | opened request rehash hcan hvalid hroom hpos hmax hbody =>
    exact (mem_keys_opening.1 (noNewStreams_bodyStep hbody id hid)).symm
  | cancelled => exact Or.inl (noNewStreams_erase _ _ id hid)
  | closed => exact (List.not_mem_nil hid).elim
  | transportLost => exact (List.not_mem_nil hid).elim
  | frame f hopen hup h => exact Or.inl (h.noNewStreams id hid)
  | _ => exact Or.inl hid

theorem resetsDead_of_runs (h : Runs (ofConfig config) tr p) : ResetsDead tr p := by
  refine runs_invariant (I := ResetsDead) ⟨fun x hx => (List.not_mem_nil hx).elim, .nil⟩ ?_ h
  intro tr p a p' r hr hI hstep
  have htidy := tidy_of_runs hr
  -- a stream that was reset before stays dead
  have hdead : ∀ x ∈ regularOutbound tr, x.isReset = true →
      x.streamId % 2 = 1 ∧ x.streamId < p'.nextStreamId ∧ x.streamId ∉ p'.streams.keys := by
    intro x hx hreset
    obtain ⟨hodd, hlt, hnot⟩ := hI.dead x hx hreset
    refine ⟨hodd, hlt.trans_le hstep.next_le, fun hmem => ?_⟩
    rcases hstep.mem_keys hmem with hmem | heq
    · exact hnot hmem
    · exact absurd heq hlt.ne
  cases ha : a.wrongPriority with
  | true =>
    refine ⟨?_, ?_⟩
    · rw [regularOutbound_snoc_of_wrong ha]
      exact hdead
    · rw [regularOutbound_snoc_of_wrong ha]
      exact hI.last
  | false =>
    have hstep' := hstep.addressed ha
    refine ⟨?_, ?_⟩
    · rw [regularOutbound_snoc ha]
      intro x hx hreset
      rcases List.mem_append.1 hx with hx | hx
      · exact hdead x hx hreset
      · obtain ⟨hlive, hgone⟩ := hstep'.reset x hx hreset
        exact ⟨htidy.odd _ hlive, (htidy.lt_next _ hlive).trans_le hstep.next_le, hgone⟩
    · rw [regularOutbound_snoc ha]
      refine List.pairwise_append.2 ⟨hI.last, hstep'.last, fun x hx y hy hreset heq => ?_⟩
      obtain ⟨hodd, hlt, hnot⟩ := hI.dead x hx hreset
      rcases hstep'.target y hy with hzero | hlive | hnext
      · rw [← heq, hzero] at hodd
        cases hodd
      · exact hnot (heq ▸ hlive)
      · exact absurd (heq.symm.trans hnext) hlt.ne

/-- RST_STREAM, apart from the answers to PRIORITY frames of the wrong size, goes only to a stream
that the client has opened, once, and after it no frame is sent on that stream. -/
theorem reset_stream_is_dead (h : Runs (ofConfig config) tr p) {before after : List OutboundBuffer}
    {reset : RstStreamFrame}
    (hsplit : regularOutbound tr = before ++ .rstStream reset :: after) :
    .streamOpened reset.header.streamId ∈ eventsOf tr ∧
      (∀ x ∈ before, x.isReset = true → x.streamId ≠ reset.header.streamId) ∧
      ∀ x ∈ after, x.streamId ≠ reset.header.streamId := by
  have hdead := resetsDead_of_runs h
  have hlast := hdead.last
  rw [hsplit] at hlast
  obtain ⟨hodd, hlt, -⟩ := hdead.dead (.rstStream reset) (by rw [hsplit]; simp) rfl
  obtain ⟨-, hafter, hcross⟩ := List.pairwise_append.1 hlast
  refine ⟨?_, fun x hx hreset heq => ?_, fun x hx => ?_⟩
  · have hcount : openings reset.header.streamId (eventsOf tr) = 1 := by
      rw [(openings_of_runs h _).1]
      exact if_pos ⟨hodd, hlt⟩
    obtain ⟨e, he, hopens⟩ := List.countP_pos_iff.1 (hcount ▸ Nat.one_pos)
    cases e with
    | streamOpened streamId =>
      have hid : streamId = reset.header.streamId := by simpa [ProtocolEvent.opens] using hopens
      exact hid ▸ he
    | _ => cases hopens
  · exact hcross x hx _ List.mem_cons_self hreset heq.symm
  · exact (List.pairwise_cons.1 hafter).1 x hx rfl

end Runs

/-- A request is cancelled, and a PING follows. -/
theorem reset_stream_is_dead_after_cancel :
    ∃ tr p before after reset, Runs (ofConfig {}) tr p ∧
      regularOutbound tr = before ++ .rstStream reset :: after ∧ reset.header.streamId = 1 ∧
      .streamOpened 1 ∈ eventsOf tr ∧ after ≠ [] ∧ ∀ x ∈ after, x.streamId ≠ 1 := by
  have hrun : (Machine.run act (ofConfig {}) [.start, .submitRequest getRequest (.id _),
      .cancelStream 1 .cancel, .sendPing]).map (fun x => (regularOutbound x.2).drop 3) =
      .ok [.rstStream (buildRstStreamFrame 1 .cancel),
        .ping { header := { type := .ping, streamId := 0, payloadLength := 8 }
                data := toBigEndian 8 1 }] := by decide +kernel
  obtain ⟨p, tr, hr, -, hresult⟩ := Machine.exists_runs_of_map hrun
  have hsplit := (List.take_append_drop 3 (regularOutbound tr)).symm
  rw [hresult] at hsplit
  obtain ⟨hopened, -, hafter⟩ := reset_stream_is_dead hr hsplit
  exact ⟨tr, p, _, _, _, hr, hsplit, rfl, hopened, by simp, hafter⟩

/-- A PRIORITY frame on stream 1 whose payload is one byte short. -/
def shortPriorityFrame : RawFrame :=
  .ofPayload { type := .priority, streamId := 1 } [0, 0, 0, 0] length_zeroWord_lt
    first_streamId_lt

/-- PRIORITY frames of the wrong size are answered with RST_STREAM each time, although the client has
not opened the stream. -/
theorem reset_of_unopened_stream :
    ∃ tr p before after reset, Runs (ofConfig {}) tr p ∧
      outboundOf tr = before ++ .rstStream reset :: after ∧
      .streamOpened reset.header.streamId ∉ eventsOf tr ∧ .rstStream reset ∈ after := by
  have hrun : (Machine.run act (ofConfig {}) [.start, .receiveFrame emptySettingsFrame,
      .receiveFrame shortPriorityFrame, .receiveFrame shortPriorityFrame]).map
        (fun x => ((outboundOf x.2).drop 3, decide (.streamOpened 1 ∈ eventsOf x.2))) =
      .ok ([.rstStream (buildRstStreamFrame 1 .frameSizeError),
        .rstStream (buildRstStreamFrame 1 .frameSizeError)], false) := by decide +kernel
  obtain ⟨p, tr, hr, -, hresult⟩ := Machine.exists_runs_of_map hrun
  simp only [Prod.mk.injEq, decide_eq_false_iff_not] at hresult
  have hsplit := (List.take_append_drop 3 (outboundOf tr)).symm
  rw [hresult.1] at hsplit
  exact ⟨tr, p, _, _, _, hr, hsplit, hresult.2, List.mem_singleton_self _⟩

end Chttp2
