import Chttp2.Protocol.Bystanders
import Chttp2.Protocol.StreamTable

/-!
# GOAWAY

A GOAWAY frame removes the streams above its last stream id and leaves the others as they are
(`receiveFrame_goAway`). From then on the connection is `Shut`: it opens no stream, whatever happens
(`Shut.run`), so the streams of every later state are among those that were left. What the frame has
left handles its own frames as if nothing had happened (`observe_eq_of_agreeOn`).
-/

set_option autoImplicit false

namespace Chttp2

open ProtocolState

/-- The error code of a GOAWAY frame. -/
def RawFrame.goAwayErrorCode (f : RawFrame) : ErrorCode :=
  ErrorCode.ofNat (bigEndian ((f.data.drop 4).take 4))

namespace ProtocolState

/-! ## The frame -/

/-- A GOAWAY frame that the connection takes. -/
structure ValidGoAway (p : ProtocolState) (f : RawFrame) : Prop where
  notClosed : p.closed = false
  transport : p.transportClosed = false
  settings : p.gotPeerSettings = true
  noBlock : p.expectingContinuation = false
  type : f.header.type = .goAway
  streamId : f.header.streamId = 0
  length : 8 ≤ f.header.payloadLength
  fits : f.header.payloadLength ≤ p.localMaxFrameSize

/-- The state after a GOAWAY frame that names the last stream. -/
def goneAway (p : ProtocolState) (last : StreamId) : ProtocolState :=
  { p with receivedGoaway := true, streams := p.streams.restrict (· ≤ last) }

section Frame

variable {clean : Prop} {p p' : ProtocolState} {f : RawFrame} {r : ProtocolStepResult}

/-- A GOAWAY frame takes the streams above its last one out of the table. -/
theorem receiveFrame_goAway (hp : HeaderState clean p) (hf : ValidGoAway p f) :
    p.receiveFrame f = .ok (p.goneAway f.goAwayLastStreamId,
      { events := .goAwayReceived f.goAwayLastStreamId f.goAwayErrorCode (f.data.drop 8) ::
          (p.streams.keys.filter fun id => f.goAwayLastStreamId < id).flatMap
            (failureEvents f.goAwayErrorCode) }) := by
  unfold receiveFrame
  rw [if_neg (by simp [hf.settings]), if_neg (not_lt.2 hf.fits), if_neg (by simp [hf.noBlock]),
    hf.type]
  dsimp only
  unfold processGoAwayFrame
  rw [if_neg (not_not.2 hf.streamId), if_neg (not_lt.2 hf.length)]
  simp only [GoAwayFrame.ofRaw_eq hf.length, ok_bind]
  obtain ⟨ghost, heq, hghost⟩ := failStreams_eq f.goAwayErrorCode
    (p.streams.keys.filter fun id => f.goAwayLastStreamId < id) { p with receivedGoaway := true }
    { events := [.goAwayReceived f.goAwayLastStreamId f.goAwayErrorCode (f.data.drop 8)] }
    (p.streams.nodup_keys.filter _) fun id hid => (List.mem_filter.1 hid).1
  -- no header block is open, so no stream leaves a part of one behind
  have hnone : ghost = p.ghostHeaderBlock := hghost fun s hs => hp.not_waiting hf.noBlock hs
  have hrest : p.streams.eraseAll (p.streams.keys.filter fun id => f.goAwayLastStreamId < id) =
      p.streams.restrict (· ≤ f.goAwayLastStreamId) := by
    rw [← KeyedTable.eraseAll_filter]
    simp only [not_le]
  refine (congrArg Except.ok heq).trans ?_
  dsimp only
  rw [hnone, hrest]
  rfl

/-- What remains agrees with what was there. -/
theorem agreeOn_goneAway (p : ProtocolState) (last : StreamId) :
    AgreeOn (· ≤ last) p (p.goneAway last) :=
  ⟨_, _, rfl, KeyedTable.restrict_restrict p.streams _⟩

end Frame

/-! ## After the frame -/

/-- The connection opens no further streams. -/
def Shut (p : ProtocolState) : Prop := p.closed = true ∨ p.receivedGoaway = true

section Shut

variable {p p' : ProtocolState} {s : Stream} {f : RawFrame} {a : Action} {r : ProtocolStepResult}

theorem Shut.not_canSubmitRequests (h : Shut p) : p.canSubmitRequests = false := by
  rcases h with h | h <;> simp [canSubmitRequests, h]

/-- No frame takes a GOAWAY back. -/
theorem FrameStep.shut (hstep : FrameStep p f p' r) (hp : p.receivedGoaway = true) : Shut p' := by
  cases hstep with
  | connectionFailed => exact Or.inl rfl
  | dataStored s ht hfind hopen hfinal htake hbody hend =>
    exact Or.inr ((congrArg ProtocolState.receivedGoaway hend.eq_with :).trans hp)
  | headersBlock s ht hfind hopen hend h =>
    exact Or.inr ((congrArg ProtocolState.receivedGoaway h.eq_with :).trans hp)
  | @settingsApplied p₁ _ _ ht hack h hbodies =>
    have htuned : p₁.receivedGoaway = p.receivedGoaway :=
      (congrArg ProtocolState.receivedGoaway (tuned_of_settings h).eq :)
    exact Or.inr ((congrArg ProtocolState.receivedGoaway hbodies.eq_with :).trans (htuned.trans hp))
  | goAway => exact Or.inr rfl
  | connectionWindow ht hid hadd hbodies =>
    exact Or.inr ((congrArg ProtocolState.receivedGoaway hbodies.eq_with :).trans hp)
  | streamWindow s ht hid hfind hadd hbody =>
    exact Or.inr ((congrArg ProtocolState.receivedGoaway hbody.eq_with :).trans hp)
  | continuationBlock s ht hexp hid hfind hend h =>
    exact Or.inr ((congrArg ProtocolState.receivedGoaway h.eq_with :).trans hp)
  | _ => exact Or.inr hp

theorem ActionStep.shut (hstep : ActionStep p a p' r) (hp : Shut p) : Shut p' := by
  cases hp with
  | inl hclosed => exact Or.inl (hstep.closed_of_closed hclosed)
  | inr hgone =>
    cases hstep with
    | opened request rehash hcan =>
      rw [Shut.not_canSubmitRequests (Or.inr hgone)] at hcan
      cases hcan
    | closed => exact Or.inl rfl
    | transportLost => exact Or.inl rfl
    | transportLostAgain => exact Or.inl rfl
    | frame f hopen hup h => exact h.shut hgone
    | _ => exact Or.inr hgone

/-- A step of a connection that is shut gives out no id. -/
theorem ActionStep.opensNothing (hstep : ActionStep p a p' r) (hp : Shut p) :
    NoNewStreams p.streams p'.streams ∧ p'.nextStreamId = p.nextStreamId := by
  cases hstep with
  | opened request rehash hcan =>
    rw [hp.not_canSubmitRequests] at hcan
    cases hcan
  | cancelled => exact ⟨noNewStreams_erase _ _, rfl⟩
  | closed => exact ⟨noNewStreams_empty _, rfl⟩
  | transportLost => exact ⟨noNewStreams_empty _, rfl⟩
  | frame f hopen hup h => exact ⟨h.noNewStreams, h.steady.nextStreamId⟩
  | _ => exact ⟨.refl _, rfl⟩

end Shut

/-- What holds of a run from a connection that is shut. -/
theorem Shut.run {clean : Prop} {events : List ProtocolEvent} {p q : ProtocolState}
    {tr : List Entry} (hshut : Shut p) (hp : TableInvariant clean events p) (h : Runs p tr q) :
    NoNewStreams p.streams q.streams ∧ ∀ id, openings id (eventsOf tr) = 0 := by
  have hrun : TableInvariant clean (events ++ eventsOf tr) q ∧ Shut q ∧
      NoNewStreams p.streams q.streams ∧ q.nextStreamId = p.nextStreamId := by
    refine h.invariant (I := fun tr q => TableInvariant clean (events ++ eventsOf tr) q ∧ Shut q ∧
      NoNewStreams p.streams q.streams ∧ q.nextStreamId = p.nextStreamId) ?_ ?_
    · exact ⟨by simpa using hp, hshut, .refl _, rfl⟩
    · rintro tr q a q' r - ⟨hq, hqshut, hsub, hnext⟩ hact
      have hstep := actionStep_of_act hq.sound hact
      obtain ⟨hsub', hnext'⟩ := hstep.opensNothing hqshut
      exact ⟨by simpa using hq.act hact, hstep.shut hqshut, hsub.trans hsub', hnext'.trans hnext⟩
  obtain ⟨hq, -, hsub, hnext⟩ := hrun
  refine ⟨hsub, fun id => ?_⟩
  -- as many ids have been given out as before
  have hopened : opened id q = opened id p := by rw [opened, opened, hnext]
  have hcount := hq.opened id
  rw [openings_append, hp.opened id, hopened] at hcount
  exact Nat.add_eq_left.1 hcount

end ProtocolState

/-! ## The streams of the connection -/

/-- A GOAWAY frame removes the streams above its last one, and says so. -/
structure SplitsStreams (f : RawFrame) (p p' : ProtocolState) (r : ProtocolStepResult) : Prop where
  find? : ∀ id, p'.streams.find? id =
    if id ≤ f.goAwayLastStreamId then p.streams.find? id else none
  outbound : r.outbound = []
  events : ∀ id, r.events.filter (fun e => e.concerns (· = id)) =
    .goAwayReceived f.goAwayLastStreamId f.goAwayErrorCode (f.data.drop 8) ::
      if f.goAwayLastStreamId < id ∧ id ∈ p.streams.keys then
        [.streamClosed id f.goAwayErrorCode, .responseFailed id f.goAwayErrorCode]
      else []

theorem splitsStreams_goneAway (p : ProtocolState) (f : RawFrame) :
    SplitsStreams f p (p.goneAway f.goAwayLastStreamId)
      { events := .goAwayReceived f.goAwayLastStreamId f.goAwayErrorCode (f.data.drop 8) ::
          (p.streams.keys.filter fun id => f.goAwayLastStreamId < id).flatMap
            (failureEvents f.goAwayErrorCode) } where
  find? id := KeyedTable.find?_restrict p.streams id
  outbound := rfl
  events id := by
    rw [List.filter_cons_of_pos (by rfl), shown_failures, List.filter_eq]
    congr 1
    have hnodup := p.streams.nodup_keys.filter fun id => f.goAwayLastStreamId < id
    have hmem : id ∈ (p.streams.keys.filter fun id => f.goAwayLastStreamId < id) ↔
        f.goAwayLastStreamId < id ∧ id ∈ p.streams.keys := by
      simp [and_comm]
    by_cases hid : f.goAwayLastStreamId < id ∧ id ∈ p.streams.keys
    · rw [if_pos hid, List.count_eq_one_of_mem hnodup (hmem.2 hid)]
      rfl
    · rw [if_neg hid, List.count_eq_zero_of_not_mem (mt hmem.1 hid)]
      rfl

/-- A GOAWAY frame splits the streams at its last stream id. Those above it are removed and reported
as failed, without RST_STREAM; those up to it are kept, and handle any frames on them as they would
have without the GOAWAY. (Frames on stream 0 are not compared: what they give to the connection is
shared among the streams that are left.) No later state has a stream above the id or another new
one. -/
theorem goaway_splits_streams {config : ClientConfig} {tr : List OperationEntry}
    {p : ProtocolState} {f : RawFrame} (h : Machine.Runs operate (ofConfig config) tr p)
    (hf : ValidGoAway p f) :
    ∃ p' r, p.act (.receiveFrame f) = .ok (p', r) ∧ SplitsStreams f p p' r ∧
      (∀ frames : List RawFrame, (∀ g ∈ frames, g.header.streamId ≤ f.goAwayLastStreamId ∧
          g.header.streamId ≠ 0) →
        Machine.observe receive (ProtocolStepResult.shownTo (· ≤ f.goAwayLastStreamId)) p frames =
          Machine.observe receive (ProtocolStepResult.shownTo (· ≤ f.goAwayLastStreamId)) p'
            frames) ∧
      ∀ tr' q, Runs p' tr' q →
        (∀ id ∈ q.streams.keys, id ≤ f.goAwayLastStreamId ∧ id ∈ p.streams.keys) ∧
        ∀ id, .streamOpened id ∉ eventsOf tr' := by
  have hp := tableInvariant_of_runs h
  have hopen : p.closed ≠ true := by simp [hf.notClosed]
  have hact : p.act (.receiveFrame f) = .ok (p.goneAway f.goAwayLastStreamId, _) :=
    (if_neg (by simp [hf.notClosed, hf.transport])).trans
      (receiveFrame_goAway (hp.headers.resolve_left hopen) hf)
  refine ⟨_, _, hact, splitsStreams_goneAway p f, fun frames hframes => ?_, fun tr' q hrun => ?_⟩
  · exact observe_eq_of_agreeOn (agreeOn_goneAway p _) frames hframes
  -- from here on streams only leave, and no new one is opened
  · have hshut : Shut (p.goneAway f.goAwayLastStreamId) := Or.inr rfl
    obtain ⟨hsub, hzero⟩ := hshut.run (hp.act hact) hrun
    refine ⟨fun id hid => ?_, fun id hmem => ?_⟩
    · have hkeys := hsub id hid
      rw [goneAway, KeyedTable.keys_restrict, List.mem_filter, decide_eq_true_eq] at hkeys
      exact ⟨hkeys.2, hkeys.1⟩
    · refine absurd (hzero id) (Nat.ne_of_gt (List.countP_pos_iff.2 ⟨_, hmem, ?_⟩))
      simp [ProtocolEvent.opens]

/-- GOAWAY with NO_ERROR that names stream 1 as the last one. -/
def goAwayFirstFrame : RawFrame :=
  .ofPayload { type := .goAway, streamId := 0 } [0, 0, 0, 1, 0, 0, 0, 0] (by decide) (by decide)

/-- Of two streams the first one is left, and remains the only one. -/
theorem goaway_splits_streams_first_remains :
    ∃ tr p p' r, Machine.Runs operate (ofConfig {}) tr p ∧ p.streams.size = 2 ∧
      p.act (.receiveFrame goAwayFirstFrame) = .ok (p', r) ∧ p'.streams.keys = [1] ∧
      ∀ tr' q, Runs p' tr' q → ∀ id ∈ q.streams.keys, id ≤ 1 := by
  have hrun : (Machine.run operate (ofConfig {}) [.act .start,
      .act (.receiveFrame emptySettingsFrame), .act (.submitRequest getRequest (.id _)),
      .act (.submitRequest getRequest (.id _))]).map (fun x => (x.1.streams.size,
        decide (x.1.closed = false ∧ x.1.transportClosed = false ∧ x.1.gotPeerSettings = true ∧
          x.1.expectingContinuation = false ∧ x.1.localMaxFrameSize = 16384),
        (x.1.act (.receiveFrame goAwayFirstFrame)).map fun y => y.1.streams.keys)) =
      .ok (2, true, .ok [1]) := by decide +kernel
  obtain ⟨p, tr, hr, -, hresult⟩ := Machine.exists_runs_of_map hrun
  simp only [Prod.mk.injEq, decide_eq_true_eq] at hresult
  obtain ⟨hsize, ⟨hopen, hup, hset, hidle, hmax⟩, hkeys⟩ := hresult
  have hf : ValidGoAway p goAwayFirstFrame :=
    ⟨hopen, hup, hset, hidle, rfl, rfl, by decide, by rw [hmax]; decide⟩
  obtain ⟨p', r, hact, -, -, hrest⟩ := goaway_splits_streams hr hf
  rw [hact] at hkeys
  refine ⟨tr, p, p', r, hr, hsize, hact, Except.ok.inj hkeys, fun tr' q hq id hid => ?_⟩
  exact ((hrest tr' q hq).1 id hid).1

end Chttp2
