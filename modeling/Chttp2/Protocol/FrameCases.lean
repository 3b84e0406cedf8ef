import Chttp2.Protocol.FrameStep

/-!
# Every received frame takes one of the listed ways

One lemma for each handler, and `receiveFrame_cases`: from a `Sound` state every frame takes one of
the ways of `FrameStep`, or it finds a header buffer that cannot grow.
-/

set_option autoImplicit false

namespace Chttp2.ProtocolState

/-- What the handlers rely on: receive windows with sane counters, and status codes that parse. -/
structure Sound (p : ProtocolState) : Prop where
  connectionInflow : p.connectionInflow.Ok
  inflow : ∀ s ∈ p.streams.entries, s.inflow.Ok
  status : ∀ s ∈ p.streams.entries, s.StatusOk

/-- A handler took one of the ways of `FrameStep`, or a header buffer could not grow. -/
def Handled (p : ProtocolState) (f : RawFrame) (x : Step) : Prop :=
  (∃ p' r, x = .ok (p', r) ∧ FrameStep p f p' r) ∨ ∃ e, x = .error e ∧ e.Overgrown

section Handlers

variable {p p₁ : ProtocolState} {f : RawFrame} {code : ErrorCode}

theorem Handled.of_step {p' : ProtocolState} {r : ProtocolStepResult} (h : FrameStep p f p' r) :
    Handled p f (.ok (p', r)) :=
  Or.inl ⟨p', r, rfl, h⟩

/-- A handler that fails the connection. -/
theorem Handled.of_violation (hv : Violation p f code) (hd : Disturbed p p₁) (text : String) :
    Handled p f (.ok (p₁.failConnection code text)) := by
  obtain ⟨ghost, heq⟩ := p₁.failConnection_eq code text
  rw [heq, ← ProtocolStepResult.nil_merge (p₁.connectionFailure code (ascii text))]
  exact .of_step (.connectionFailed hv hd (Or.inl rfl))

theorem Handled.violation (hv : Violation p f code) (text : String) :
    Handled p f (.ok (p.failConnection code text)) :=
  .of_violation hv (.refl p) text

/-- The padding check at the head of a handler. -/
theorem Handled.padded {k : Nat} (hk : f.fixedPrefix = some k) {rest : Step}
    (h : f.PaddingOk k → Handled p f rest) :
    Handled p f (do
      match ← validatePaddedPayload f k with
      | some (validationError, validationDebug) =>
        return p.failConnection validationError validationDebug
      | none => rest) := by
  rcases validatePaddedPayload_cases f k with ⟨hpad, heq⟩ | ⟨hpad, code, text, heq, hcode⟩
  · rw [heq]
    exact h hpad
  · rw [heq]
    exact .violation (.padding hk hpad hcode) text

theorem handled_dataOnRemoved (ht : f.header.type = .data) (hp : p.Sound)
    (hnone : p.streams.find? f.header.streamId = none) {frame : DataFrame}
    (hframe : frame.header = f.header) :
    Handled p f (.ok (p.processDataOnUnknownStream frame)) := by
  unfold processDataOnUnknownStream
  rw [hframe]
  by_cases heven : f.header.streamId % 2 = 0
  · rw [if_pos heven]
    exact .violation (.neverOpened (Or.inl ht) hnone (Or.inl heven)) _
  rw [if_neg heven]
  by_cases hidle : f.header.streamId ≥ p.nextStreamId
  · rw [if_pos hidle]
    exact .violation (.neverOpened (Or.inl ht) hnone (Or.inr hidle)) _
  rw [if_neg hidle]
  have hid : ¬ p.NeverOpened f.header.streamId := not_or.2 ⟨heven, hidle⟩
  cases htake : p.connectionInflow.take f.header.payloadLength with
  | none => exact .violation (.dataOverConnection ht hnone htake) _
  | some inflow =>
    obtain ⟨-, hle, rfl⟩ := InFlow.take_eq_some.1 htake
    have hadd := InFlow.add_of_take hp.connectionInflow (Or.inr hle)
    dsimp only
    rw [if_neg hadd]
    exact .of_step (.dataOnRemoved ht hnone hid htake)

/-- `storeData` after both windows have been charged. -/
theorem storeData_eq {s : Stream} {conn inflow : InFlow} (frame : DataFrame)
    (hkey : s.streamId ∈ p.streams.keys) (hst : s.StatusOk)
    (hconn : ¬ (conn.add frame.header.payloadLength).1 < 0)
    (hflow : ¬ (inflow.add frame.header.payloadLength).1 < 0) :
    ∃ p' r, ({ p with connectionInflow := conn }.putStream { s with inflow }).storeData
        { s with inflow } frame = .ok (p', ProtocolStepResult.merge
          { outbound := refreshFrames 0 (conn.add frame.header.payloadLength).1 ++
              refreshFrames s.streamId (inflow.add frame.header.payloadLength).1 } r) ∧
      Ending { p with connectionInflow := (conn.add frame.header.payloadLength).2 }
        (s.withData (inflow.add frame.header.payloadLength).2 frame.data)
        frame.header.hasEndStreamFlag p' r := by
  -- of the three writes to the record only the last counts
  have hput : ({ (({ p with connectionInflow := conn }.putStream { s with inflow }).putStream
        { s with
          inflow
          resp := { s.resp with body := s.resp.body ++ frame.data }
          receivedContentLength := s.receivedContentLength + frame.data.length }) with
      connectionInflow := (conn.add frame.header.payloadLength).2 } : ProtocolState).putStream
        (s.withData (inflow.add frame.header.payloadLength).2 frame.data) =
      { p with connectionInflow := (conn.add frame.header.payloadLength).2 }.putStream
        (s.withData (inflow.add frame.header.payloadLength).2 frame.data) := by
    rw [putStream_putStream { p with connectionInflow := conn } (by rfl)]
    exact putStream_putStream
      { p with connectionInflow := (conn.add frame.header.payloadLength).2 } (by rfl)
  have hconn' : ¬ ((({ p with connectionInflow := conn }.putStream { s with inflow }).putStream
        { s with
          inflow
          resp := { s.resp with body := s.resp.body ++ frame.data }
          receivedContentLength := s.receivedContentLength + frame.data.length }).connectionInflow.add
            frame.header.payloadLength).1 < 0 := hconn
  simp only [storeData]
  rw [if_neg hconn', if_neg hflow]
  cases frame.header.hasEndStreamFlag with
  | false =>
    refine ⟨_, _, ?_, .goesOn⟩
    rw [ProtocolStepResult.merge_nil]
    exact congrArg (fun q => (Except.ok (q, _) : Step)) hput
  | true =>
    obtain ⟨p', r, heq, hend⟩ := finalizeRemoteStream_eq
      (p := { p with connectionInflow := (conn.add frame.header.payloadLength).2 })
      (s := s.withData (inflow.add frame.header.payloadLength).2 frame.data) hkey hst
    rw [← hput] at heq
    refine ⟨p', r, ?_, hend⟩
    exact congrArg (fun x : Step => x >>= fun y => .ok (y.1, ProtocolStepResult.merge _ y.2)) heq

theorem handled_data (hp : p.Sound) (ht : f.header.type = .data) :
    Handled p f (p.processDataFrame f) := by
  unfold processDataFrame
  by_cases hzero : f.header.streamId = 0
  · rw [if_pos hzero]
    exact .violation (.streamId (by simpa [RawFrame.BadStreamId, ht] using hzero)) _
  rw [if_neg hzero]
  refine Handled.padded (by simp [RawFrame.fixedPrefix, ht]) fun hpad => ?_
  obtain ⟨frame, hframe, hheader, hdata, -⟩ := DataFrame.ofRaw_eq hpad
  simp only [hframe, ok_bind]
  cases hfind : p.streams.find? f.header.streamId with
  | none => exact handled_dataOnRemoved ht hp hfind hheader
  | some s =>
    have hid : s.streamId = f.header.streamId := KeyedTable.key_of_find? hfind
    have hmem := KeyedTable.mem_of_find? hfind
    dsimp only
    by_cases hrefuse : (s.isClosed || s.remoteEndStreamReceived) = true
    · rw [if_pos hrefuse, hid, failStream_eq hfind]
      have h : s.Refuses := by simpa [Stream.Refuses] using hrefuse
      exact .of_step (.dataRefused s ht hfind (Or.inl ⟨h, rfl⟩))
    rw [if_neg hrefuse]
    have hopen : ¬ s.Refuses := by simpa [Stream.Refuses] using hrefuse
    by_cases hfinal : s.finalResponseHeadersReceived = true
    · rw [if_neg (by simp [hfinal]), hheader, hdata]
      cases htake : InFlow.takeInflows p.connectionInflow s.inflow f.header.payloadLength with
      | none => exact .violation (.dataOverWindow s ht hfind hopen hfinal htake) _
      | some windows =>
        obtain ⟨conn, inflow⟩ := windows
        dsimp only
        have hkey : s.streamId ∈ p.streams.keys := mem_keys_of_find? hfind
        -- both windows have been charged, and the frame is stored
        have hstored : f.dataFragment = [] ∨ s.expectsNoBody = .ok false →
            Handled p f (({ p with connectionInflow := conn }.putStream
              { s with inflow }).storeData { s with inflow } frame) := by
          intro hbody
          obtain ⟨hfit, rfl, rfl⟩ := InFlow.takeInflows_eq_some.1 htake
          obtain ⟨p', r, heq, hend⟩ := storeData_eq frame hkey (hp.status s hmem)
            (by rw [hheader]; exact InFlow.add_of_take hp.connectionInflow (by omega))
            (by rw [hheader]; exact InFlow.add_of_take (hp.inflow s hmem) (by omega))
          rw [heq]
          rw [hheader, hdata] at hend
          rw [hheader, hid]
          exact .of_step (.dataStored s ht hfind hopen hfinal htake hbody hend)
        -- only a fragment with bytes in it asks whether a body is expected
        by_cases hempty : f.paddedFragment 0 = []
        · rw [if_neg (not_not.2 hempty)]
          exact hstored (Or.inl hempty)
        · obtain ⟨noBody, hno⟩ := (hp.status s hmem).expectsNoBody
          have hno' : Stream.expectsNoBody { s with inflow } = .ok noBody := hno
          rw [if_pos hempty]
          simp only [hno', ok_bind]
          cases noBody with
          | false => exact hstored (Or.inr hno)
          | true =>
            have hfail := failStream_putStream (p := { p with connectionInflow := conn })
              (s := { s with inflow }) hkey .protocolError true
            have hstep := FrameStep.dataOnBodiless s ht hfind hopen hfinal htake hempty hno
            rw [← hid] at hstep
            rw [if_pos rfl, hfail]
            exact .of_step hstep
    · rw [if_pos (by simpa using hfinal), hid, failStream_eq hfind]
      exact .of_step (.dataRefused s ht hfind (Or.inr ⟨by simpa using hfinal, rfl⟩))

theorem handled_ghostHeaders (ht : f.header.type = .headers)
    (hnone : p.streams.find? f.header.streamId = none) {frame : HeadersFrame}
    (hheader : frame.header = f.header) (hdata : frame.data = f.headerFragment) :
    Handled p f (p.processGhostHeaders frame) := by
  have hlen : f.headerFragment.length < 2 ^ 32 := by
    have h1 := f.length_data_lt
    have h2 : f.headerFragment.length ≤ f.data.length := by
      simp only [RawFrame.headerFragment, RawFrame.paddedFragment, List.length_take,
        List.length_drop]
      omega
    omega
  simp only [processGhostHeaders, hheader, hdata]
  by_cases heven : f.header.streamId % 2 = 0
  · rw [if_pos heven]
    exact .violation (.neverOpened (Or.inr ht) hnone (Or.inl heven)) _
  rw [if_neg heven]
  by_cases hidle : f.header.streamId ≥ p.nextStreamId
  · rw [if_pos hidle]
    exact .violation (.neverOpened (Or.inr ht) hnone (Or.inr hidle)) _
  rw [if_neg hidle]
  have hid : ¬ p.NeverOpened f.header.streamId := not_or.2 ⟨heven, hidle⟩
  cases hend : f.header.hasEndHeadersFlag with
  | true =>
    rw [if_pos rfl, hpackDecode_eq p f.header.streamId hlen]
    simp only [ok_bind]
    cases hd : (p.decodedBlock f.headerFragment).2 with
    | none =>
      have hdist := (Disturbed.refl p).afterDecode f.header.streamId f.headerFragment
      exact .of_violation (.ghostHeadersUndecodable ht hnone hend hd) hdist _
    | some headers => exact .of_step (.ghostHeaders ht hnone hid hend hd)
  | false =>
    rw [if_neg (by decide)]
    cases happ : ByteBuffer.append [] f.headerFragment with
    | error e =>
      exact Or.inr ⟨e, rfl, ByteBuffer.error_of_append happ⟩
    | ok block =>
      obtain ⟨rfl, -⟩ := ByteBuffer.append_eq_ok.1 happ
      exact .of_step (.ghostHeadersOpen ht hnone hid hend)

/-- The end of a block: it is decoded, or the connection fails. -/
theorem handled_block {q : ProtocolState} {s : Stream} {endStream : Bool} (hd : Disturbed p q)
    (hkey : s.streamId ∈ q.streams.keys) (hst : s.StatusOk)
    (hlen : s.pendingHeaderBlock.length < 2 ^ 32)
    (hbad : (q.decodedBlock s.pendingHeaderBlock).2 = none → Violation p f .compressionError)
    (hstep : ∀ p' r, BlockStep q s endStream p' r → FrameStep p f p' r) :
    Handled p f ((q.putStream s).completeHeaderBlock s endStream) := by
  cases hdec : (q.decodedBlock s.pendingHeaderBlock).2 with
  | none =>
    rw [completeHeaderBlock_undecodable hlen hdec]
    exact .of_violation (hbad hdec) ((hd.afterDecode _ _).putStream s) _
  | some headers =>
    obtain ⟨p', r, heq, hblock⟩ := completeHeaderBlock_eq hkey hst hlen hdec endStream
    rw [heq]
    exact .of_step (hstep p' r hblock)

theorem handled_headers (hp : p.Sound) (ht : f.header.type = .headers) :
    Handled p f (p.processHeadersFrame f) := by
  unfold processHeadersFrame
  by_cases hzero : f.header.streamId = 0
  · rw [if_pos hzero]
    exact .violation (.streamId (by simpa [RawFrame.BadStreamId, ht] using hzero)) _
  rw [if_neg hzero]
  have hk : f.fixedPrefix = some f.priorityPrefix := by simp [RawFrame.fixedPrefix, ht]
  -- the padding is checked before the stream is looked at
  refine Handled.padded hk fun hpad => ?_
  obtain ⟨frame, hframe, hheader, hdata, -⟩ := HeadersFrame.ofRaw_eq hpad
  simp only [hframe, ok_bind]
  cases hfind : p.streams.find? f.header.streamId with
  | none => exact handled_ghostHeaders ht hfind hheader hdata
  | some s =>
    have hid : s.streamId = f.header.streamId := KeyedTable.key_of_find? hfind
    have hmem := KeyedTable.mem_of_find? hfind
    have hkey : s.streamId ∈ p.streams.keys := mem_keys_of_find? hfind
    dsimp only
    by_cases hrefuse : (s.isClosed || s.remoteEndStreamReceived) = true
    · rw [if_pos hrefuse, hid, failStream_eq hfind]
      have h : s.Refuses := by simpa [Stream.Refuses] using hrefuse
      exact .of_step (.headersRefused s ht hfind h)
    rw [if_neg hrefuse]
    have hopen : ¬ s.Refuses := by simpa [Stream.Refuses] using hrefuse
    cases happ : ByteBuffer.append s.pendingHeaderBlock frame.data with
    | error e =>
      exact Or.inr ⟨e, rfl, ByteBuffer.error_of_append happ⟩
    | ok block =>
      obtain ⟨rfl, hlen⟩ := ByteBuffer.append_eq_ok.1 happ
      simp only [ok_bind, hdata, hheader]
      rw [hdata] at hlen
      have hdist := (Disturbed.refl p).putStream (s.withFragment f.headerFragment)
      -- the three ways on: too long, to be continued, complete
      change Handled p f
        (if (p.maxHeaderListSize > 0 &&
            (s.pendingHeaderBlock ++ f.headerFragment).length > p.maxHeaderListSize) = true then
          .ok ((p.putStream (s.withFragment f.headerFragment)).failConnection .enhanceYourCalm
            "header block too large")
        else if (!f.header.hasEndHeadersFlag) = true then
          .ok ({ p.putStream (s.withFragment f.headerFragment) with
            expectingContinuation := true
            continuationStreamId := s.streamId }.putStream
              (s.openBlock f.headerFragment f.header.hasEndStreamFlag), {})
        else (p.putStream (s.withFragment f.headerFragment)).completeHeaderBlock
          (s.withFragment f.headerFragment) f.header.hasEndStreamFlag)
      by_cases hlarge : (p.maxHeaderListSize > 0 &&
          (s.pendingHeaderBlock ++ f.headerFragment).length > p.maxHeaderListSize) = true
      · have hmax : 0 < p.maxHeaderListSize ∧
            p.maxHeaderListSize < (s.pendingHeaderBlock ++ f.headerFragment).length := by
          simpa using hlarge
        rw [if_pos hlarge]
        exact .of_violation (.headersTooLarge s ht hfind hopen hmax.1 hmax.2) hdist _
      rw [if_neg hlarge]
      cases hend : f.header.hasEndHeadersFlag with
      | false =>
        have hstep := FrameStep.headersOpen s ht hfind hopen hend
        have hids : (s.withFragment f.headerFragment).streamId =
            (s.openBlock f.headerFragment f.header.hasEndStreamFlag).streamId := rfl
        have hput := putStream_putStream
          { p with expectingContinuation := true, continuationStreamId := s.streamId } hids
        rw [if_pos (by rfl)]
        rw [← hid] at hstep
        exact hput ▸ .of_step hstep
      | true =>
        rw [if_neg (by decide)]
        exact handled_block (.refl p) hkey (hp.status s hmem)
          (lt_of_le_of_lt hlen (by norm_num))
          (fun hd => .headersUndecodable s ht hfind hopen hend hd)
          fun p' r h => .headersBlock s ht hfind hopen hend h

theorem handled_priority (ht : f.header.type = .priority) :
    Handled p f (.ok (p.processPriorityFrame f)) := by
  unfold processPriorityFrame
  by_cases hzero : f.header.streamId = 0
  · rw [if_pos hzero]
    exact .violation (.streamId (by simpa [RawFrame.BadStreamId, ht] using hzero)) _
  rw [if_neg hzero]
  by_cases hlen : f.header.payloadLength ≠ 5
  · rw [if_pos hlen]
    exact .of_step (.reported (.priorityLength ht hlen))
  · rw [if_neg hlen]
    exact .of_step (.reported (.priority ht))

theorem handled_rstStream (ht : f.header.type = .rstStream) :
    Handled p f (p.processRstStreamFrame f) := by
  unfold processRstStreamFrame
  by_cases hzero : f.header.streamId = 0
  · rw [if_pos hzero]
    exact .violation (.streamId (by simpa [RawFrame.BadStreamId, ht] using hzero)) _
  rw [if_neg hzero]
  by_cases hlen : f.header.payloadLength ≠ 4
  · rw [if_pos hlen]
    exact .violation (.length (by simpa [RawFrame.BadLength, ht] using hlen)) _
  rw [if_neg hlen]
  cases hfind : p.streams.find? f.header.streamId with
  | none =>
    dsimp only
    by_cases hidle : f.header.streamId ≥ p.nextStreamId
    · rw [if_pos hidle]
      exact .violation (.idle (Or.inl ht) hfind hidle) _
    · rw [if_neg hidle]
      exact .of_step (.reported (.lateReset ht hfind))
  | some s =>
    simp only [RstStreamFrame.ofRaw_eq (not_not.1 hlen), ok_bind, failStream_eq hfind]
    exact .of_step (.streamReset s _ ht hfind)

theorem handled_settings (ht : f.header.type = .settings) :
    Handled p f (p.processSettingFrame f) := by
  unfold processSettingFrame
  by_cases hid : f.header.streamId ≠ 0
  · rw [if_pos hid]
    exact .violation (.streamId (by simpa [RawFrame.BadStreamId, ht] using hid)) _
  rw [if_neg hid]
  by_cases hlen : f.header.payloadLength % 6 ≠ 0
  · rw [if_pos hlen]
    exact .violation (.length (by simpa [RawFrame.BadLength, ht] using Or.inl hlen)) _
  rw [if_neg hlen]
  by_cases hack : f.header.hasAckFlag = true
  · rw [if_pos hack]
    by_cases hempty : f.header.payloadLength ≠ 0
    · rw [if_pos hempty]
      exact .violation (.length (by simpa [RawFrame.BadLength, ht] using Or.inr ⟨hack, hempty⟩)) _
    · rw [if_neg hempty]
      exact .of_step (.reported (.settingsAck ht hack))
  rw [if_neg hack]
  have hnack : f.header.hasAckFlag = false := by simpa using hack
  simp only [SettingFrame.ofRaw_eq (not_not.1 hlen), ok_bind]
  have htuned := tuned_applyPeerSettings f.settings { p with gotPeerSettings := true }
  cases happly : applyPeerSettings f.settings { p with gotPeerSettings := true } with
  | mk p₁ code =>
    have hgoal : applyPeerSettings (settingsOf (f.header.payloadLength / 6) f.data)
        { p with gotPeerSettings := true } = (p₁, code) := happly
    rw [happly] at htuned
    have hd := htuned.disturbed
    have hdist : Disturbed p p₁ :=
      ⟨hd.1, hd.2, hd.3, hd.4, hd.5, hd.6, hd.7, hd.8, hd.9, hd.10⟩
    rw [hgoal]
    cases code with
    | some code => exact .of_violation (.settings ht hnack (by rw [happly])) hdist _
    | none =>
      obtain ⟨p', r, heq, hbodies⟩ := emitPendingBodies_eq p₁.streams.keys p₁
      simp only [heq, ok_bind]
      exact .of_step (.settingsApplied ht hnack happly hbodies)

theorem handled_pushPromise (ht : f.header.type = .pushPromise) :
    Handled p f (p.processPushPromiseFrame f) := by
  unfold processPushPromiseFrame
  by_cases hzero : f.header.streamId = 0
  · rw [if_pos hzero]
    exact .violation (.streamId (by simpa [RawFrame.BadStreamId, ht] using hzero)) _
  rw [if_neg hzero]
  refine Handled.padded (by simp [RawFrame.fixedPrefix, ht]) fun hpad => ?_
  obtain ⟨push, hread, -⟩ := PushPromiseFrame.ofRaw_eq hpad
  simp only [hread, ok_bind]
  by_cases hparity : push.promisedStreamId = 0 ∨ push.promisedStreamId % 2 ≠ 0
  · rw [if_pos hparity]
    exact .violation (.pushPromise ht hread (hparity.elim Or.inl fun h => Or.inr (Or.inl h))) _
  rw [if_neg hparity]
  by_cases hold : push.promisedStreamId ≤ p.lastPeerStreamId
  · rw [if_pos hold]
    exact .violation (.pushPromise ht hread (Or.inr (Or.inr (Or.inl hold)))) _
  rw [if_neg hold]
  by_cases hpush : (!p.enablePush) = true
  · rw [if_pos hpush]
    obtain ⟨ghost, heq⟩ := p.failConnection_eq .protocolError "server push disabled"
    simp only [heq]
    have hdisabled : p.enablePush = false := by simpa using hpush
    exact .of_step (.connectionFailed
      (.pushPromise ht hread (Or.inr (Or.inr (Or.inr hdisabled)))) (.refl p) (Or.inr ⟨_, rfl⟩))
  · rw [if_neg hpush]
    exact .of_step (.reported (.pushPromise ht _))

theorem handled_ping (ht : f.header.type = .ping) :
    Handled p f (.ok (p.processPingFrame f)) := by
  unfold processPingFrame
  by_cases hid : f.header.streamId ≠ 0
  · rw [if_pos hid]
    exact .violation (.streamId (by simpa [RawFrame.BadStreamId, ht] using hid)) _
  rw [if_neg hid]
  by_cases hlen : f.header.payloadLength ≠ 8
  · rw [if_pos hlen]
    exact .violation (.length (by simpa [RawFrame.BadLength, ht] using hlen)) _
  rw [if_neg hlen]
  dsimp only
  cases hack : f.header.hasAckFlag with
  | true => exact .of_step (.reported (.pingAck ht hack))
  | false => exact .of_step (.reported (.ping ht hack _ rfl))

theorem handled_goAway (ht : f.header.type = .goAway) :
    Handled p f (p.processGoAwayFrame f) := by
  unfold processGoAwayFrame
  by_cases hid : f.header.streamId ≠ 0
  · rw [if_pos hid]
    exact .violation (.streamId (by simpa [RawFrame.BadStreamId, ht] using hid)) _
  rw [if_neg hid]
  by_cases hlen : f.header.payloadLength < 8
  · rw [if_pos hlen]
    exact .violation (.length (by simpa [RawFrame.BadLength, ht] using hlen)) _
  rw [if_neg hlen]
  simp only [GoAwayFrame.ofRaw_eq (not_lt.1 hlen), ok_bind]
  obtain ⟨ghost, heq, hghost⟩ := failStreams_eq
    (ErrorCode.ofNat (bigEndian ((f.data.drop 4).take 4)))
    (p.streams.keys.filter fun id => f.goAwayLastStreamId < id) { p with receivedGoaway := true }
    { events := [.goAwayReceived f.goAwayLastStreamId
        (ErrorCode.ofNat (bigEndian ((f.data.drop 4).take 4))) (f.data.drop 8)] }
    (p.streams.nodup_keys.filter _) fun id hid => (List.mem_filter.1 hid).1
  exact heq ▸ .of_step (.goAway ht hghost)

theorem handled_windowUpdate (ht : f.header.type = .windowUpdate) :
    Handled p f (p.processWindowUpdateFrame f) := by
  unfold processWindowUpdateFrame
  by_cases hlen : f.header.payloadLength ≠ 4
  · rw [if_pos hlen]
    exact .violation (.length (by simpa [RawFrame.BadLength, ht] using hlen)) _
  rw [if_neg hlen]
  simp only [WindowUpdateFrame.ofRaw_eq (not_not.1 hlen), ok_bind]
  -- an increment of zero is judged before the stream is looked at
  by_cases hinc : f.windowIncrement = 0
  · have hinc' : bigEndian f.data % 2 ^ 31 = 0 := hinc
    rw [if_pos hinc']
    by_cases hid : f.header.streamId = 0
    · rw [if_pos hid]
      exact .violation (.zeroIncrement ht hid hinc) _
    rw [if_neg hid]
    cases hfind : p.streams.find? f.header.streamId with
    | none =>
      rw [failStream_of_none hfind]
      exact .of_step (.reported (.lateZeroWindow ht hid hfind))
    | some s =>
      rw [failStream_eq hfind]
      exact .of_step (.windowRefused s ht hid hfind (Or.inl hinc))
  have hinc' : ¬ bigEndian f.data % 2 ^ 31 = 0 := hinc
  rw [if_neg hinc']
  by_cases hid : f.header.streamId = 0
  · rw [if_pos hid]
    cases hadd : p.connectionOutFlow.add f.windowIncrement with
    | none =>
      have hadd' : p.connectionOutFlow.add (bigEndian f.data % 2 ^ 31 : Nat) = none := hadd
      rw [hadd']
      exact .violation (.windowOverflow ht hid hadd) _
    | some outflow =>
      have hadd' : p.connectionOutFlow.add (bigEndian f.data % 2 ^ 31 : Nat) = some outflow := hadd
      obtain ⟨p', r, heq, hbodies⟩ := emitPendingBodies_eq p.streams.keys
        { p with connectionOutFlow := outflow }
      rw [hadd', hid]
      simp only [heq, ok_bind]
      exact .of_step (.connectionWindow ht hid hadd hbodies)
  rw [if_neg hid]
  cases hfind : p.streams.find? f.header.streamId with
  | none =>
    dsimp only
    -- no stream has the id: never opened, or gone
    by_cases hidle : f.header.streamId ≥ p.nextStreamId
    · rw [if_pos hidle]
      exact .violation (.idle (Or.inr ht) hfind hidle) _
    · rw [if_neg hidle]
      exact .of_step (.reported (.lateWindow ht hid hfind))
  | some s =>
    dsimp only
    cases hadd : s.outflow.add f.windowIncrement with
    | none =>
      have hadd' : s.outflow.add (bigEndian f.data % 2 ^ 31 : Nat) = none := hadd
      rw [hadd', failStream_eq hfind]
      exact .of_step (.windowRefused s ht hid hfind (Or.inr hadd))
    | some outflow =>
      have hadd' : s.outflow.add (bigEndian f.data % 2 ^ 31 : Nat) = some outflow := hadd
      obtain ⟨p', r, heq, hbody⟩ := (p.putStream (s.withOutflow outflow)).emitPendingRequestBody_eq
        (s.withOutflow outflow)
      have heq' : (p.putStream { s with outflow }).emitPendingRequestBody { s with outflow } =
        .ok (p', r) := heq
      rw [hadd']
      simp only [heq', ok_bind]
      exact .of_step (.streamWindow s ht hid hfind hadd hbody)

theorem handled_ghostContinuation (ht : f.header.type = .continuation)
    (hexp : p.expectingContinuation = true) (hid : p.continuationStreamId = f.header.streamId)
    (hnone : p.streams.find? f.header.streamId = none) :
    Handled p f (p.processGhostContinuation (ContinuationFrame.ofRaw f)) := by
  simp only [processGhostContinuation, ContinuationFrame.ofRaw]
  cases happ : ByteBuffer.append p.ghostHeaderBlock f.data with
  | error e =>
    exact Or.inr ⟨e, rfl, ByteBuffer.error_of_append happ⟩
  | ok block =>
    obtain ⟨rfl, hlen⟩ := ByteBuffer.append_eq_ok.1 happ
    simp only [ok_bind]
    by_cases hlarge : (p.maxHeaderListSize > 0 &&
        (p.ghostHeaderBlock ++ f.data).length > p.maxHeaderListSize) = true
    · have hmax : 0 < p.maxHeaderListSize ∧
          p.maxHeaderListSize < (p.ghostHeaderBlock ++ f.data).length := by
        simpa using hlarge
      rw [if_pos hlarge]
      exact .of_violation (.ghostContinuationTooLarge ht hnone hmax.1 hmax.2)
        ⟨rfl, rfl, rfl, rfl, rfl, rfl, rfl, rfl, rfl, rfl⟩ _
    rw [if_neg hlarge]
    by_cases hend : f.header.hasEndHeadersFlag = true
    -- the block is decoded for the sake of the table, and its list thrown away
    · have hdec : ({ p with expectingContinuation := false, continuationStreamId := 0 } :
            ProtocolState).hpackDecode f.header.streamId (p.ghostHeaderBlock ++ f.data) =
          .ok ({ p.afterDecode f.header.streamId (p.ghostHeaderBlock ++ f.data) with
              expectingContinuation := false
              continuationStreamId := 0 }, (p.decodedBlock (p.ghostHeaderBlock ++ f.data)).2) :=
        hpackDecode_eq { p with expectingContinuation := false, continuationStreamId := 0 }
          f.header.streamId (lt_of_le_of_lt hlen (by norm_num))
      simp only [hend, Bool.not_true, Bool.false_eq_true, if_false, hdec, ok_bind]
      cases hd : (p.decodedBlock (p.ghostHeaderBlock ++ f.data)).2 with
      | none =>
        have hdist : Disturbed p { p.afterDecode f.header.streamId (p.ghostHeaderBlock ++ f.data) with
            expectingContinuation := false
            continuationStreamId := 0
            ghostHeaderBlock := [] } := ⟨rfl, rfl, rfl, rfl, rfl, rfl, rfl, rfl, rfl, rfl⟩
        exact .of_violation (.ghostContinuationUndecodable ht hnone hend hd) hdist _
      | some headers => exact .of_step (.ghostContinuation ht hexp hid hnone hend hd)
    · simp only [hend, Bool.not_false, if_true]
      exact .of_step (.ghostContinuationOpen ht hexp hid hnone (by simpa using hend))

theorem handled_continuation (hp : p.Sound) (ht : f.header.type = .continuation) :
    Handled p f (p.processContinuationFrame f) := by
  unfold processContinuationFrame
  by_cases hzero : f.header.streamId = 0
  · rw [if_pos hzero]
    exact .violation (.streamId (by simpa [RawFrame.BadStreamId, ht] using hzero)) _
  rw [if_neg hzero]
  by_cases hunexp : (!p.expectingContinuation ||
      decide (p.continuationStreamId ≠ f.header.streamId)) = true
  · rw [if_pos hunexp]
    exact .violation (.unexpectedContinuation ht (by simpa using hunexp)) _
  rw [if_neg hunexp]
  simp only [Bool.or_eq_true, Bool.not_eq_true', decide_eq_true_eq, not_or, Bool.not_eq_false,
    not_not] at hunexp
  obtain ⟨hexp, hcont⟩ := hunexp
  cases hfind : p.streams.find? f.header.streamId with
  | none => exact handled_ghostContinuation ht hexp hcont hfind
  | some s =>
    have hid : s.streamId = f.header.streamId := KeyedTable.key_of_find? hfind
    have hmem := KeyedTable.mem_of_find? hfind
    have hkey : s.streamId ∈ p.streams.keys := mem_keys_of_find? hfind
    simp only [ContinuationFrame.ofRaw]
    cases happ : ByteBuffer.append s.pendingHeaderBlock f.data with
    | error e =>
      exact Or.inr ⟨e, rfl, ByteBuffer.error_of_append happ⟩
    | ok block =>
      obtain ⟨rfl, hlen⟩ := ByteBuffer.append_eq_ok.1 happ
      simp only [ok_bind]
      have hdist := (Disturbed.refl p).putStream (s.withFragment f.data)
      -- the three ways on: too long, to be continued, complete
      change Handled p f
        (if (p.maxHeaderListSize > 0 &&
            (s.pendingHeaderBlock ++ f.data).length > p.maxHeaderListSize) = true then
          .ok ((p.putStream (s.withFragment f.data)).failConnection .enhanceYourCalm
            "header block too large")
        else if (!f.header.hasEndHeadersFlag) = true then
          .ok (p.putStream (s.withFragment f.data), {})
        else (({ p.putStream (s.withFragment f.data) with
            expectingContinuation := false
            continuationStreamId := 0 } : ProtocolState).putStream
          (s.endBlock f.data)).completeHeaderBlock (s.endBlock f.data) s.pendingHeaderEndStream)
      by_cases hlarge : (p.maxHeaderListSize > 0 &&
          (s.pendingHeaderBlock ++ f.data).length > p.maxHeaderListSize) = true
      · have hmax : 0 < p.maxHeaderListSize ∧
            p.maxHeaderListSize < (s.pendingHeaderBlock ++ f.data).length := by
          simpa using hlarge
        rw [if_pos hlarge]
        exact .of_violation (.continuationTooLarge s ht hfind hmax.1 hmax.2) hdist _
      rw [if_neg hlarge]
      cases hend : f.header.hasEndHeadersFlag with
      | false => exact .of_step (.continuationOpen s ht hexp hcont hfind hend)
      | true =>
        -- the record is written twice, and the second write is the one that counts
        have hput : (({ p.putStream (s.withFragment f.data) with
              expectingContinuation := false
              continuationStreamId := 0 } : ProtocolState).putStream (s.endBlock f.data)) =
            ({ p with expectingContinuation := false, continuationStreamId := 0 } :
              ProtocolState).putStream (s.endBlock f.data) :=
          putStream_putStream
            { p with expectingContinuation := false, continuationStreamId := 0 } (by rfl)
        rw [if_neg (by decide), hput]
        exact handled_block ⟨rfl, rfl, rfl, rfl, rfl, rfl, rfl, rfl, rfl, rfl⟩ hkey (hp.status s hmem)
          (lt_of_le_of_lt hlen (by norm_num))
          (fun hd => .continuationUndecodable s ht hfind hend hd)
          fun p' r h => .continuationBlock s ht hexp hcont hfind hend h

end Handlers

/-- Every frame that a sound connection receives takes one of the ways of `FrameStep`, unless a
header block has grown beyond what its buffer can hold. -/
theorem receiveFrame_cases {p : ProtocolState} (hp : p.Sound) (f : RawFrame) :
    Handled p f (p.receiveFrame f) := by
  unfold receiveFrame
  by_cases hfirst : (!p.gotPeerSettings && decide (f.header.type ≠ .settings)) = true
  · have h : p.gotPeerSettings = false ∧ f.header.type ≠ .settings := by simpa using hfirst
    rw [if_pos hfirst]
    exact .violation (.beforeSettings h.1 h.2) _
  rw [if_neg hfirst]
  by_cases hsize : f.header.payloadLength > p.localMaxFrameSize
  · rw [if_pos hsize]
    exact .violation (.oversized hsize) _
  rw [if_neg hsize]
  by_cases hexp : (p.expectingContinuation && decide (f.header.type ≠ .continuation)) = true
  · have h : p.expectingContinuation = true ∧ f.header.type ≠ .continuation := by simpa using hexp
    rw [if_pos hexp]
    exact .violation (.interrupting h.1 h.2) _
  rw [if_neg hexp]
  cases ht : f.header.type with
  | data => exact handled_data hp ht
  | headers => exact handled_headers hp ht
  | priority => exact handled_priority ht
  | rstStream => exact handled_rstStream ht
  | settings => exact handled_settings ht
  | pushPromise => exact handled_pushPromise ht
  | ping => exact handled_ping ht
  | goAway => exact handled_goAway ht
  | windowUpdate => exact handled_windowUpdate ht
  | continuation => exact handled_continuation hp ht
  | other code => exact .of_step (.reported (.unknown ht))

/-- A frame that interrupts a header block closes the connection. -/
theorem closed_of_interrupting {p p' : ProtocolState} {f : RawFrame} {r : ProtocolStepResult}
    (hexp : p.expectingContinuation = true) (ht : f.header.type ≠ .continuation)
    (h : p.receiveFrame f = .ok (p', r)) : p'.closed = true := by
  have hfail : ∀ code text, (.ok (p.failConnection code text) : Step) = .ok (p', r) →
      p'.closed = true := by
    intro code text heq
    obtain ⟨ghost, hfailed⟩ := p.failConnection_eq code text
    rw [hfailed] at heq
    cases heq
    rfl
  unfold receiveFrame at h
  split at h
  · exact hfail _ _ h
  split at h
  · exact hfail _ _ h
  rw [if_pos (by simp [hexp, ht])] at h
  exact hfail _ _ h

end Chttp2.ProtocolState
