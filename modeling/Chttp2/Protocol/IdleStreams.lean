import Chttp2.Protocol.StreamTable

/-!
# Frames on streams that were never opened

A stream id that is even, or not below `nextStreamId`, belongs to no stream that the client has
opened. `Rejects` says that a frame fails the connection, and every stream with it. Each handler
recognises such an id in its own way; those of RST_STREAM and WINDOW_UPDATE miss some
(`PassedOver`), and every other frame is rejected (`never_opened_rejected_iff`).
-/

set_option autoImplicit false

namespace Chttp2

open ProtocolState

/-- The frame types that a peer may send on streams that are open only, PRIORITY aside. -/
def RawFrame.NeedsStream (f : RawFrame) : Prop :=
  f.header.type = .data ∨ f.header.type = .headers ∨ f.header.type = .rstStream ∨
    f.header.type = .windowUpdate ∨ f.header.type = .continuation ∨ f.header.type = .pushPromise

namespace ProtocolState

/-- The connection has failed with the given error, and so has every stream; nothing else has
happened to a stream. -/
structure Rejected (p p' : ProtocolState) (r : ProtocolStepResult) (code : ErrorCode) : Prop where
  kind : code = .protocolError ∨ code = .frameSizeError ∨ code = .flowControlError
  closed : p'.closed = true
  error : p'.connectionErrorCode = code
  streams : p'.streams = .empty
  events : p.streams.keys.flatMap (failureEvents code) ++
    [.connectionError code, .connectionClosed code] <:+ r.events

/-- The step is a connection error. -/
def Rejects (p : ProtocolState) (x : Step) : Prop :=
  ∃ p' r code, x = .ok (p', r) ∧ Rejected p p' r code

/-- A frame that the handlers of RST_STREAM and WINDOW_UPDATE let pass on a stream that is not in the
table. -/
structure PassedOver (p : ProtocolState) (f : RawFrame) : Prop where
  idle : p.expectingContinuation = false
  payloadLength : f.header.payloadLength = 4 ∧ 4 ≤ p.localMaxFrameSize
  passed : f.header.type = .rstStream ∧ f.header.streamId < p.nextStreamId ∨
    f.header.type = .windowUpdate ∧
      (f.windowIncrement = 0 ∨ f.header.streamId < p.nextStreamId)

section Rejecting

variable {p p' : ProtocolState} {f : RawFrame} {r : ProtocolStepResult} {code : ErrorCode}

theorem rejects_failConnection (pre : ProtocolStepResult) (text : String)
    (hcode : code = .protocolError ∨ code = .frameSizeError) :
    Rejects p (.ok ((p.failConnection code text).1, pre.merge (p.failConnection code text).2)) := by
  obtain ⟨ghost, heq⟩ := p.failConnection_eq code text
  rw [heq]
  refine ⟨_, _, code, rfl, hcode.imp_right Or.inl, rfl, rfl, rfl, ?_⟩
  simp only [ProtocolStepResult.merge, connectionFailure, List.append_assoc]
  rw [← List.append_assoc]
  exact List.suffix_append _ _

theorem Rejects.failed (text : String) (hcode : code = .protocolError ∨ code = .frameSizeError) :
    Rejects p (.ok (p.failConnection code text)) := by
  have h := rejects_failConnection (p := p) {} text hcode
  rwa [ProtocolStepResult.nil_merge] at h

/-- The padding check at the head of a handler. -/
theorem Rejects.padded {k : Nat} {rest : Step} (h : f.PaddingOk k → Rejects p rest) :
    Rejects p (do
      match ← validatePaddedPayload f k with
      | some (validationError, validationDebug) =>
        return p.failConnection validationError validationDebug
      | none => rest) := by
  rcases validatePaddedPayload_cases f k with ⟨hpad, heq⟩ | ⟨-, code, text, heq, hcode⟩
  · rw [heq]
    exact h hpad
  · rw [heq]
    exact .failed text hcode

/-! ### The handlers -/

theorem rejects_data (hnone : p.streams.find? f.header.streamId = none)
    (hid : f.header.streamId ≠ 0) (hnever : p.NeverOpened f.header.streamId) :
    Rejects p (p.processDataFrame f) := by
  unfold processDataFrame
  rw [if_neg hid]
  refine .padded fun hpad => ?_
  obtain ⟨dataFrame, hread, hheader, -⟩ := DataFrame.ofRaw_eq hpad
  rw [hread, ok_bind, hnone]
  dsimp only
  unfold processDataOnUnknownStream
  rw [hheader]
  by_cases heven : f.header.streamId % 2 = 0
  · rw [if_pos heven]
    exact .failed _ (Or.inl rfl)
  · rw [if_neg heven, if_pos (by exact hnever.resolve_left heven)]
    exact .failed _ (Or.inl rfl)

theorem rejects_headers (hnone : p.streams.find? f.header.streamId = none)
    (hid : f.header.streamId ≠ 0) (hnever : p.NeverOpened f.header.streamId) :
    Rejects p (p.processHeadersFrame f) := by
  unfold processHeadersFrame
  rw [if_neg hid]
  refine .padded fun hpad => ?_
  obtain ⟨headersFrame, hread, hheader, -⟩ := HeadersFrame.ofRaw_eq hpad
  rw [hread, ok_bind, hnone]
  dsimp only
  unfold processGhostHeaders
  rw [hheader]
  by_cases heven : f.header.streamId % 2 = 0
  · rw [if_pos heven]
    exact .failed _ (Or.inl rfl)
  · rw [if_neg heven, if_pos (by exact hnever.resolve_left heven)]
    exact .failed _ (Or.inl rfl)

theorem rejects_rstStream (hnone : p.streams.find? f.header.streamId = none)
    (hid : f.header.streamId ≠ 0)
    (hbad : f.header.payloadLength ≠ 4 ∨ p.nextStreamId ≤ f.header.streamId) :
    Rejects p (p.processRstStreamFrame f) := by
  unfold processRstStreamFrame
  rw [if_neg hid]
  by_cases hlen : f.header.payloadLength = 4
  · rw [if_neg (by simpa using hlen), hnone]
    dsimp only
    rw [if_pos (by exact hbad.resolve_left (by simpa using hlen))]
    exact .failed _ (Or.inl rfl)
  · rw [if_pos hlen]
    exact .failed _ (Or.inr rfl)

theorem rejects_windowUpdate (hnone : p.streams.find? f.header.streamId = none)
    (hid : f.header.streamId ≠ 0) (hbad : f.header.payloadLength ≠ 4 ∨
      f.windowIncrement ≠ 0 ∧ p.nextStreamId ≤ f.header.streamId) :
    Rejects p (p.processWindowUpdateFrame f) := by
  unfold processWindowUpdateFrame
  by_cases hlen : f.header.payloadLength = 4
  · obtain ⟨hinc, hidle⟩ := hbad.resolve_left (by simpa using hlen)
    rw [if_neg (by simpa using hlen), WindowUpdateFrame.ofRaw_eq hlen, ok_bind]
    dsimp only
    rw [if_neg (by exact hinc), if_neg hid, hnone]
    dsimp only
    rw [if_pos (by exact hidle)]
    exact .failed _ (Or.inl rfl)
  · rw [if_pos hlen]
    exact .failed _ (Or.inr rfl)

theorem rejects_pushPromise (hid : f.header.streamId ≠ 0) (hpush : p.enablePush = false) :
    Rejects p (p.processPushPromiseFrame f) := by
  unfold processPushPromiseFrame
  rw [if_neg hid]
  refine .padded fun hpad => ?_
  obtain ⟨push, hread, -⟩ := PushPromiseFrame.ofRaw_eq hpad
  rw [hread, ok_bind]
  by_cases hparity : push.promisedStreamId = 0 ∨ push.promisedStreamId % 2 ≠ 0
  · rw [if_pos hparity]
    exact .failed _ (Or.inl rfl)
  rw [if_neg hparity]
  by_cases hold : push.promisedStreamId ≤ p.lastPeerStreamId
  · rw [if_pos hold]
    exact .failed _ (Or.inl rfl)
  · rw [if_neg hold, if_pos (by simp [hpush])]
    exact rejects_failConnection _ _ (Or.inl rfl)

theorem rejects_continuation (hid : f.header.streamId ≠ 0)
    (hbad : p.expectingContinuation = false ∨ p.continuationStreamId ≠ f.header.streamId) :
    Rejects p (p.processContinuationFrame f) := by
  unfold processContinuationFrame
  rw [if_neg hid, if_pos (by simpa using hbad)]
  exact .failed _ (Or.inl rfl)

/-- All other frames are rejected. -/
theorem rejects_receiveFrame (ht : f.NeedsStream) (hid : f.header.streamId ≠ 0)
    (hnever : p.NeverOpened f.header.streamId)
    (hnone : p.streams.find? f.header.streamId = none) (hpush : p.enablePush = false)
    (hcontinuation : p.expectingContinuation = true →
      p.continuationStreamId ≠ f.header.streamId) (hnot : ¬ PassedOver p f) :
    Rejects p (p.receiveFrame f) := by
  unfold receiveFrame
  split
  · exact .failed _ (Or.inl rfl)
  split
  · exact .failed _ (Or.inr rfl)
  split
  · exact .failed _ (Or.inl rfl)
  rename_i _ hlen hexp
  -- the checks in front of the handlers reject too
  have hmax := not_lt.1 hlen
  have hidle : f.header.type ≠ .continuation → p.expectingContinuation = false := by
    intro hne
    simpa [hne] using hexp
  rcases ht with ht | ht | ht | ht | ht | ht <;> rw [ht] <;> dsimp only
  · exact rejects_data hnone hid hnever
  · exact rejects_headers hnone hid hnever
  · refine rejects_rstStream hnone hid (or_iff_not_imp_left.2 fun hlen => ?_)
    by_contra hlt
    have hlen := not_not.1 hlen
    exact hnot ⟨hidle (by simp [ht]), ⟨hlen, hlen ▸ hmax⟩, Or.inl ⟨ht, not_le.1 hlt⟩⟩
  · refine rejects_windowUpdate hnone hid (or_iff_not_imp_left.2 fun hlen => ?_)
    by_contra hpassed
    have hlen := not_not.1 hlen
    refine hnot ⟨hidle (by simp [ht]), ⟨hlen, hlen ▸ hmax⟩, Or.inr ⟨ht, ?_⟩⟩
    rwa [not_and_or, not_not, not_le] at hpassed
  · refine rejects_continuation hid (or_iff_not_imp_left.2 fun hwaits => ?_)
    exact hcontinuation (by simpa using hwaits)
  · exact rejects_pushPromise hid hpush

/-- The frames that are passed over change nothing. -/
theorem receiveFrame_of_passedOver (hpeer : p.gotPeerSettings = true)
    (hnone : p.streams.find? f.header.streamId = none) (hid : f.header.streamId ≠ 0)
    (h : PassedOver p f) : ∃ events, p.receiveFrame f = .ok (p, { events }) := by
  obtain ⟨hidle, ⟨hlen, hmax⟩, hpassed⟩ := h
  unfold receiveFrame
  rw [if_neg (by simp [hpeer]), if_neg (by rw [hlen]; exact not_lt.2 hmax), if_neg (by simp [hidle])]
  rcases hpassed with ⟨ht, hlt⟩ | ⟨ht, hpassed⟩
  · rw [ht]
    dsimp only
    unfold processRstStreamFrame
    rw [if_neg hid, if_neg (by simpa using hlen), hnone]
    dsimp only
    rw [if_neg (by exact not_le.2 hlt)]
    exact ⟨[], rfl⟩
  · rw [ht]
    dsimp only
    unfold processWindowUpdateFrame
    rw [if_neg (by simpa using hlen), WindowUpdateFrame.ofRaw_eq hlen, ok_bind]
    dsimp only
    by_cases hinc : f.windowIncrement = 0
    · rw [if_pos (by exact hinc), if_neg hid, failStream_of_none hnone]
      exact ⟨[], rfl⟩
    · rw [if_neg (by exact hinc), if_neg hid, hnone]
      dsimp only
      rw [if_neg (by exact not_le.2 (hpassed.resolve_left hinc))]
      exact ⟨_, rfl⟩

end Rejecting

/-! ### Invariants -/

/-- The settings of the peer never enable push. -/
theorem enablePush_applyPeerSettings (settings : List (Nat × Nat)) (p : ProtocolState)
    (hp : p.enablePush = false) : (applyPeerSettings settings p).1.enablePush = false := by
  refine applyPeerSettings_invariant (I := fun p => p.enablePush = false) ?_ settings p hp
  intro p p₁ value parameter code h hp
  cases h with
  | enablePush => rfl
  | _ => exact hp

/-- Push is off, and CONTINUATION frames are awaited on streams of the client only. -/
structure OwnStreams (p : ProtocolState) : Prop where
  push : p.enablePush = false
  odd : p.expectingContinuation = true → p.continuationStreamId % 2 = 1

section Invariant

variable {p p' : ProtocolState} {s : Stream} {f : RawFrame} {a : Action} {r : ProtocolStepResult}

/-- The members that `OwnStreams` reads stay. -/
structure SameOwn (p p' : ProtocolState) : Prop where
  enablePush : p'.enablePush = p.enablePush
  expectingContinuation : p'.expectingContinuation = p.expectingContinuation
  continuationStreamId : p'.continuationStreamId = p.continuationStreamId

theorem OwnStreams.of_same (hp : p.OwnStreams) (h : SameOwn p p') : p'.OwnStreams := by
  constructor
  · rw [h.enablePush, hp.push]
  · rw [h.expectingContinuation, h.continuationStreamId]
    exact hp.odd

theorem sameOwn_bodyStep (h : BodyStep p s p' r) : SameOwn p p' := by
  rw [h.eq_with]
  exact ⟨rfl, rfl, rfl⟩

theorem sameOwn_bodySteps {ids : List StreamId} (h : BodySteps ids p p' r) : SameOwn p p' := by
  rw [h.eq_with]
  exact ⟨rfl, rfl, rfl⟩

theorem sameOwn_ending {b : Bool} (h : Ending p s b p' r) : SameOwn p p' := by
  rw [h.eq_with]
  exact ⟨rfl, rfl, rfl⟩

theorem sameOwn_blockStep {b : Bool} (h : BlockStep p s b p' r) : SameOwn p p' := by
  rw [h.eq_with]
  exact ⟨rfl, rfl, rfl⟩

theorem FrameStep.ownStreams (hstep : FrameStep p f p' r) (htidy : p.Tidy) (hp : p.OwnStreams) :
    p'.closed = true ∨ p'.OwnStreams := by
  cases hstep with
  | connectionFailed => exact Or.inl rfl
  | dataStored s ht hfind hopen hfinal htake hbody hend =>
    have h := sameOwn_ending hend
    exact Or.inr (hp.of_same ⟨h.1, h.2, h.3⟩)
  | ghostHeadersOpen ht hnone hid =>
    exact Or.inr ⟨hp.push, fun _ => Nat.mod_two_ne_zero.1 fun heven => hid (Or.inl heven)⟩
  | headersOpen s ht hfind =>
    exact Or.inr ⟨hp.push, fun _ => htidy.odd _ (KeyedTable.mem_keys_of_find? hfind)⟩
  | headersBlock s ht hfind hopen hend h => exact Or.inr (hp.of_same (sameOwn_blockStep h))
  | @settingsApplied p₁ _ _ ht hack h hbodies =>
    have hpush := enablePush_applyPeerSettings f.settings { p with gotPeerSettings := true } hp.push
    have htuned := tuned_of_settings h
    rw [h] at hpush
    have hp₁ : p₁.OwnStreams := by
      refine ⟨hpush, ?_⟩
      rw [htuned.eq]
      exact hp.odd
    exact Or.inr (hp₁.of_same (sameOwn_bodySteps hbodies))
  | connectionWindow ht hid hadd hbodies =>
    have h := sameOwn_bodySteps hbodies
    exact Or.inr (hp.of_same ⟨h.1, h.2, h.3⟩)
  | streamWindow s ht hid hfind hadd hbody =>
    have h := sameOwn_bodyStep hbody
    exact Or.inr (hp.of_same ⟨h.1, h.2, h.3⟩)
  | ghostContinuation => exact Or.inr ⟨hp.push, fun h => by cases h⟩
  | continuationBlock s ht hexp hid hfind hend h =>
    have h := sameOwn_blockStep h
    refine Or.inr ⟨h.enablePush.trans hp.push, fun hexp' => ?_⟩
    cases h.expectingContinuation.symm.trans hexp'
  | _ => exact Or.inr ⟨hp.push, hp.odd⟩

theorem ActionStep.ownStreams (hstep : ActionStep p a p' r) (htidy : p.Tidy) (hp : p.OwnStreams) :
    p'.closed = true ∨ p'.OwnStreams := by
  cases hstep with
  | frame f hopen hup h => exact h.ownStreams htidy hp
  | opened request rehash hcan hvalid hroom hpos hmax hbody =>
    have h := sameOwn_bodyStep hbody
    exact Or.inr (hp.of_same ⟨h.1, h.2, h.3⟩)
  | closed => exact Or.inl rfl
  | transportLost => exact Or.inl rfl
  | transportLostAgain => exact Or.inl rfl
  | _ => exact Or.inr ⟨hp.push, hp.odd⟩

end Invariant

end ProtocolState

theorem ownStreams_of_runs {config : ClientConfig} {tr : List OperationEntry} {p : ProtocolState}
    (h : Machine.Runs operate (ofConfig config) tr p) : p.closed = true ∨ p.OwnStreams := by
  refine operations_invariant (I := fun _ p => p.closed = true ∨ p.OwnStreams) ?_ ?_ ?_ h
  · exact Or.inr ⟨rfl, fun h => by cases h⟩
  · intro tr p a p' r hinv hp hstep
    rcases hp with hclosed | hp
    · exact Or.inl (hstep.closed_of_closed hclosed)
    · exact hstep.ownStreams hinv.tidy hp
  · exact fun _ _ _ => Or.inr ⟨rfl, fun h => by cases h⟩

/-- In every open state after the settings of the peer, a frame on a stream that was never opened is
rejected with a connection error if and only if it is not one of those that are passed over. -/
theorem never_opened_rejected_iff {config : ClientConfig} {tr : List OperationEntry}
    {p : ProtocolState} (h : Machine.Runs operate (ofConfig config) tr p) (hopen : p.closed = false)
    (hpeer : p.gotPeerSettings = true) {f : RawFrame} (ht : f.NeedsStream)
    (hid : f.header.streamId ≠ 0) (hnever : p.NeverOpened f.header.streamId) :
    Rejects p (p.receiveFrame f) ↔ ¬ PassedOver p f := by
  have hinv := tableInvariant_of_runs h
  have hnone : p.streams.find? f.header.streamId = none := by
    rw [KeyedTable.find?_eq_none_iff]
    intro hmem
    rcases hnever with heven | hidle
    · rw [hinv.tidy.odd _ hmem] at heven
      cases heven
    · exact absurd (hinv.tidy.lt_next _ hmem) (not_lt.2 hidle)
  constructor
  · rintro ⟨p', r, code, heq, hrejected⟩ hpassed
    obtain ⟨events, heq'⟩ := receiveFrame_of_passedOver hpeer hnone hid hpassed
    cases heq.symm.trans heq'
    cases hopen.symm.trans hrejected.closed
  -- a CONTINUATION frame is awaited on streams of the client only
  · have hown := (ownStreams_of_runs h).resolve_left (by simp [hopen])
    have hheaders := hinv.headers.resolve_left (by simp [hopen])
    refine rejects_receiveFrame ht hid hnever hnone hown.push fun hexp heq => ?_
    have hodd := hown.odd hexp
    have hlt := hheaders.opened hexp
    rw [heq] at hodd hlt
    rcases hnever with heven | hidle
    · rw [hodd] at heven
      cases heven
    · exact absurd hlt (not_lt.2 hidle)

/-- A connection with one request, so that the next stream id is 3. -/
def oneRequest : List Operation :=
  [.act .start, .act (.receiveFrame emptySettingsFrame), .act (.submitRequest getRequest (.id _))]

/-- A frame on a stream with a payload of four zero bytes: RST_STREAM with NO_ERROR, or WINDOW_UPDATE
with increment zero. -/
def zeroWordFrame (type : FrameType) (streamId : StreamId) (hid : streamId < 2 ^ 31) : RawFrame :=
  .ofPayload { type, streamId } [0, 0, 0, 0] length_zeroWord_lt hid

/-- RST_STREAM on stream 3 is rejected before stream 3 is opened. -/
theorem never_opened_rejected_idle_reset :
    ∃ tr p, Machine.Runs operate (ofConfig {}) tr p ∧ p.nextStreamId = 3 ∧
      Rejects p (p.receiveFrame (zeroWordFrame .rstStream 3 (by decide))) := by
  have hrun : (Machine.run operate (ofConfig {}) oneRequest).map (fun x =>
      (x.1.closed, x.1.gotPeerSettings, x.1.nextStreamId)) = .ok (false, true, 3) := by
    decide +kernel
  obtain ⟨p, tr, hr, -, hresult⟩ := Machine.exists_runs_of_map hrun
  simp only [Prod.mk.injEq] at hresult
  obtain ⟨hopen, hpeer, hnext⟩ := hresult
  refine ⟨tr, p, hr, hnext, (never_opened_rejected_iff hr hopen hpeer ?_ ?_ ?_).2 ?_⟩
  · exact Or.inr (Or.inr (Or.inl rfl))
  · decide
  · exact Or.inr hnext.le
  · rintro ⟨-, -, ⟨-, hlt⟩ | ⟨ht, -⟩⟩
    · rw [hnext] at hlt
      exact absurd hlt (by decide)
    · cases ht

/-- RST_STREAM on stream 2, and WINDOW_UPDATE with increment zero on stream 99, are ignored. -/
theorem idle_frames_ignored :
    ∃ tr p, Machine.Runs operate (ofConfig {}) tr p ∧ p.closed = false ∧
      p.gotPeerSettings = true ∧ p.nextStreamId = 3 ∧
      p.receiveFrame (zeroWordFrame .rstStream 2 (by decide)) = .ok (p, {}) ∧
      p.receiveFrame (zeroWordFrame .windowUpdate 99 (by decide)) = .ok (p, {}) := by
  have hrun : (Machine.run operate (ofConfig {}) oneRequest).map (fun x =>
      (x.1.closed, x.1.gotPeerSettings, x.1.nextStreamId,
        decide (x.1.receiveFrame (zeroWordFrame .rstStream 2 (by decide)) = .ok (x.1, {})),
        decide (x.1.receiveFrame (zeroWordFrame .windowUpdate 99 (by decide)) = .ok (x.1, {})))) =
      .ok (false, true, 3, true, true) := by decide +kernel
  obtain ⟨p, tr, hr, -, hresult⟩ := Machine.exists_runs_of_map hrun
  simp only [Prod.mk.injEq, decide_eq_true_eq] at hresult
  exact ⟨tr, p, hr, hresult⟩

end Chttp2
