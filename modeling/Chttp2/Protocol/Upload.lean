import Chttp2.Protocol.SendWindow

/-!
# Request bodies

The DATA frames on a stream carry the body of its request in order, END_STREAM marks the frame that
completes it, and no DATA follows (`uploaded_of_runs`, `body_emission`). A stream that still has
bytes to send waits for a window: after every step one of its two windows is used up
(`blocked_of_runs`).
-/

set_option autoImplicit false

namespace Chttp2

open ProtocolState

variable {p p' : ProtocolState} {s : Stream} {r : ProtocolStepResult}

/-! ## The state of a stream -/

/-- The state of a stream is determined by its two END_STREAM marks, which are never both set, and
the request body is sent up to its offset. -/
structure Stream.StateOk (s : Stream) : Prop where
  state : s.streamState = if s.localEndStreamSent then .halfClosedLocal
    else if s.remoteEndStreamReceived then .halfClosedRemote else .open
  not_both : s.localEndStreamSent = true → s.remoteEndStreamReceived = false
  offset_le : s.requestBodyOffset ≤ s.rqst.body.length
  offset_eq : s.localEndStreamSent = true → s.requestBodyOffset = s.rqst.body.length

theorem Stream.StateOk.not_closed (h : s.StateOk) : s.isClosed = false := by
  have hstate := h.state
  unfold Stream.isClosed
  rw [hstate]
  split
  · rfl
  · split <;> rfl

theorem keptByEmission_stateOk : KeptByEmission Stream.StateOk where
  partly := by
    intro s n h hopen hle hend
    unfold Stream.remainingBodySize at hle
    have hoff := h.offset_le
    refine ⟨?_, fun hl => ?_, ?_, fun hl => ?_⟩
    · rw [hend]
      have hstate := h.state
      rw [hopen] at hstate
      exact hstate
    · rw [hend] at hl
      cases hl
    · show s.requestBodyOffset + n ≤ s.rqst.body.length
      omega
    · rw [hend] at hl
      cases hl
  wholly := by
    intro s n h hopen hle hend hremote
    have hoff := h.offset_le
    -- END_STREAM is new, so the `n` bytes are all that was left
    have hn : 0 < n ∧ n = s.remainingBodySize := by simpa [Stream.advanceBody, hopen] using hend
    unfold Stream.remainingBodySize at hle hn
    refine ⟨?_, fun _ => hremote, ?_, fun _ => ?_⟩
    · show StreamState.halfClosedLocal = _
      rw [if_pos hend]
    · show s.requestBodyOffset + n ≤ s.rqst.body.length
      omega
    · show s.requestBodyOffset + n = s.rqst.body.length
      omega

theorem keptByReceiving_stateOk : KeptByReceiving Stream.StateOk where
  answered := by
    intro s h hlocal
    refine ⟨?_, fun hl => ?_, h.offset_le, h.offset_eq⟩
    · show StreamState.halfClosedRemote = if s.localEndStreamSent then _ else _
      rw [hlocal]
      rfl
    · have hl' : s.localEndStreamSent = true := hl
      rw [hlocal] at hl'
      cases hl'
  withData := fun _ _ _ _ _ _ h _ _ => ⟨h.1, h.2, h.3, h.4⟩
  openBlock := fun _ _ _ h _ => ⟨h.1, h.2, h.3, h.4⟩
  withFragment := fun _ _ h => ⟨h.1, h.2, h.3, h.4⟩
  endBlock := fun _ _ h => ⟨h.1, h.2, h.3, h.4⟩
  withInformational := fun _ _ h => ⟨h.1, h.2, h.3, h.4⟩
  withHeaders := fun _ _ _ h _ _ => ⟨h.1, h.2, h.3, h.4⟩
  withTrailers := fun _ _ _ h _ => ⟨h.1, h.2, h.3, h.4⟩

/-- The request headers end the stream only if there is no body. -/
theorem body_of_headersEndStream {request : Request} (h : p.headersEndStream request = true) :
    request.body = [] := by
  unfold headersEndStream emitRequestHeaders at h
  dsimp only at h
  split at h
  · rename_i hcond
    have hbody : (p.newStream request).hasBody = false := by
      simpa using (Bool.and_eq_true_iff.1 hcond).2
    simpa [Stream.hasBody, newStream, Stream.setRequest] using hbody
  · cases h

theorem stateOk_openedStream (p : ProtocolState) (request : Request) :
    (p.openedStream request).StateOk where
  state := by
    show (if p.headersEndStream request then StreamState.halfClosedLocal else .open) =
      if p.headersEndStream request then .halfClosedLocal else .open
    rfl
  not_both := fun _ => rfl
  offset_le := Nat.zero_le _
  offset_eq := by
    intro h
    have hbody := body_of_headersEndStream (p := p) h
    show 0 = request.body.length
    rw [hbody]
    rfl

theorem stateOk_of_runs {config : ClientConfig} {tr : List Entry}
    (h : Runs (ofConfig config) tr p) : AllStreams Stream.StateOk p.streams := by
  refine runs_invariant (I := fun _ p => AllStreams Stream.StateOk p.streams) .empty ?_ h
  exact fun _ p _ _ _ _ hp hstep => hp.actionStep keptByEmission_stateOk keptByReceiving_stateOk
    (fun _ _ h => ⟨h.1, h.2, h.3, h.4⟩) (stateOk_openedStream p) hstep

/-! ## The frame size in force -/

/-- The frame size in force is the one that the peer has announced, and at least the minimum. -/
theorem maxFrameSize_of_runs {config : ClientConfig} {tr : List Entry}
    (h : Runs (ofConfig config) tr p) : p.closed = true ∨
      (p.maxFrameSize = settingOf .maxFrameSize (peerSettingsOf tr)
          Http2SettingInfo.defaultMaxFrameSize ∧
        Http2SettingInfo.minimumMaxFrameSize ≤ p.maxFrameSize) := by
  refine runs_invariant (I := fun tr p => p.closed = true ∨
    (p.maxFrameSize = settingOf .maxFrameSize (peerSettingsOf tr)
      Http2SettingInfo.defaultMaxFrameSize ∧
    Http2SettingInfo.minimumMaxFrameSize ≤ p.maxFrameSize)) ?_ ?_ h
  · exact Or.inr ⟨rfl, (le_refl 16384 :)⟩
  · intro tr p a p' r _ hp hstep
    obtain ⟨p₁, ids, r₁, hgrant, hbodies, -⟩ := hstep.sends
    rcases hp with hclosed | ⟨heq, hmin⟩
    · exact Or.inl (hstep.closed_of_closed hclosed)
    rcases hgrant.settings with ⟨hclosed, -⟩ | ⟨-, hmax, hmin₁⟩
    · exact Or.inl ((congrArg ProtocolState.closed hbodies.eq_with :).trans hclosed)
    · have hsame : p'.maxFrameSize = p₁.maxFrameSize :=
        (congrArg ProtocolState.maxFrameSize hbodies.eq_with :)
      refine Or.inr ?_
      rw [hsame, peerSettingsOf_snoc, settingOf_append, ← heq, ← hmax]
      exact ⟨rfl, hmin₁ hmin⟩

/-! ## Waiting uploads -/

/-- The stream has nothing to send, or a window is used up. -/
def Stream.Blocked (conn : OutFlow) (s : Stream) : Prop :=
  s.localEndStreamSent = true ∨ s.remainingBodySize = 0 ∨ s.outflow.available conn ≤ 0

theorem Stream.Blocked.mono {conn conn' : OutFlow} (h : s.Blocked conn)
    (hle : conn'.window ≤ conn.window) : s.Blocked conn' := by
  rcases h with h | h | h
  · exact Or.inl h
  · exact Or.inr (Or.inl h)
  · refine Or.inr (Or.inr ?_)
    unfold OutFlow.available at h ⊢
    split at h <;> split <;> omega

/-- What a body step leaves of a stream that it has driven is blocked. -/
theorem blocked_bodyStep (hmax : 0 < p.maxFrameSize) (hs : s.isClosed = false)
    (hfind : p.streams.find? s.streamId = some s) (h : BodyStep p s p' r) :
    ∀ u ∈ p'.streams.entries, (u.streamId = s.streamId ∧ u.Blocked p'.connectionOutFlow) ∨
      (u ∈ p.streams.entries ∧ u.streamId ≠ s.streamId) := by
  -- what is left is blocked by a window, or nothing is left
  have hsent : ∀ {n frames}, BodySent p.maxFrameSize s p.connectionOutFlow n frames →
      (s.advanceBody n).Blocked ⟨p.connectionOutFlow.window - n⟩ := by
    intro n frames hsent
    rcases Nat.lt_or_ge n s.remainingBodySize with hlt | hge
    · rcases hsent.blocked hlt with h0 | hblocked
      · exact absurd hmax (Nat.not_lt.2 h0.le)
      · exact Or.inr (Or.inr hblocked)
    · refine Or.inr (Or.inl ?_)
      rw [Stream.remainingBodySize_advanceBody]
      omega
  cases h with
  | idle hidle =>
    intro u hu
    by_cases hid : u.streamId = s.streamId
    · have hus : u = s := KeyedTable.eq_of_key_eq hu (KeyedTable.mem_of_find? hfind) hid
      subst hus
      rcases hidle with hlocal | hclosed
      · exact Or.inl ⟨rfl, Or.inl hlocal⟩
      · rw [hs] at hclosed
        cases hclosed
    · exact Or.inr ⟨hu, hid⟩
  | partly n frames hopen h hend =>
    intro u hu
    rcases KeyedTable.mem_set.1 hu with ⟨rfl, -⟩ | ⟨hu, hne⟩
    · exact Or.inl ⟨rfl, hsent h⟩
    · exact Or.inr ⟨hu, hne⟩
  | wholly n frames hopen h hend hremote =>
    intro u hu
    rcases KeyedTable.mem_set.1 hu with ⟨rfl, -⟩ | ⟨hu, hne⟩
    · exact Or.inl ⟨rfl, Or.inl hend⟩
    · exact Or.inr ⟨hu, hne⟩
  | finished =>
    intro u hu
    obtain ⟨hu, hne⟩ := KeyedTable.mem_erase.1 hu
    exact Or.inr ⟨hu, hne⟩

theorem keptByEmission_not_closed : KeptByEmission fun s => s.isClosed = false :=
  ⟨fun _ _ h _ _ _ => h, fun _ _ _ _ _ _ _ => rfl⟩

/-- Driving all streams that may have become unblocked leaves all streams blocked. -/
theorem blocked_bodySteps {ids : List StreamId} (h : BodySteps ids p p' r) :
    0 < p.maxFrameSize → AllStreams (fun s => s.isClosed = false) p.streams →
      (∀ s ∈ p.streams.entries, s.streamId ∈ ids ∨ s.Blocked p.connectionOutFlow) →
      AllStreams (Stream.Blocked p'.connectionOutFlow) p'.streams := by
  induction h with
  | nil => exact fun _ _ hb s hs => (hb s hs).resolve_left List.not_mem_nil
  | @gone id ids p p' r hfind _ ih =>
    intro hmax hok hb
    refine ih hmax hok fun s hs => ?_
    have hne : s.streamId ≠ id := by
      rintro rfl
      exact KeyedTable.find?_eq_none_iff.1 hfind (KeyedTable.key_mem_keys hs)
    exact (hb s hs).imp_left fun hmem => (List.mem_cons.1 hmem).resolve_left hne
  | @cons id ids s p p₁ p' r₁ r hfind hstep _ ih =>
    intro hmax hok hb
    have hid : s.streamId = id := KeyedTable.key_of_find? hfind
    have hsame : p₁.maxFrameSize = p.maxFrameSize := by cases hstep <;> rfl
    have hwindow := (window_bodyStep hstep).1
    refine ih (hsame ▸ hmax) (AllStreams.bodyStep keptByEmission_not_closed hstep hok (hok.find hfind))
      fun u hu => ?_
    rcases blocked_bodyStep hmax (hok.find hfind) (by rw [hid]; exact hfind) hstep u hu with
      ⟨-, hblocked⟩ | ⟨hmem, hne⟩
    · exact Or.inr hblocked
    · rcases hb u hmem with hin | hblocked
      · exact Or.inl ((List.mem_cons.1 hin).resolve_left (hid ▸ hne))
      · exact Or.inr (hblocked.mono (by omega))

theorem blocked_of_runs {config : ClientConfig} {tr : List Entry}
    (h : Runs (ofConfig config) tr p) :
    AllStreams (Stream.Blocked p.connectionOutFlow) p.streams := by
  refine runs_invariant (I := fun _ p => AllStreams (Stream.Blocked p.connectionOutFlow) p.streams)
    .empty ?_ h
  intro tr p a p' r hr hp hstep
  obtain ⟨p₁, ids, r₁, hgrant, hbodies, -⟩ := hstep.sends
  have hok := stateOk_of_runs hr
  have htidy := tidy_of_runs hr
  -- on a closed connection, and on one that the frame closes, there is nothing to drive
  have hnone : p₁.streams.keys = [] →
      AllStreams (Stream.Blocked p'.connectionOutFlow) p'.streams := by
    intro hkeys s hs
    have hmem := noNewStreams_bodySteps hbodies _ (KeyedTable.key_mem_keys hs)
    rw [hkeys] at hmem
    exact (List.not_mem_nil hmem).elim
  by_cases hpc : p.closed = true
  · exact hnone (hgrant.closed htidy hpc)
  rcases hgrant.settings with ⟨-, hempty⟩ | ⟨-, -, hmin⟩
  · exact hnone (by rw [hempty]; rfl)
  obtain ⟨-, hmax⟩ := (maxFrameSize_of_runs hr).resolve_left hpc
  refine blocked_bodySteps hbodies (lt_of_lt_of_le (by decide) (hmin hmax)) ?_ ?_
  · intro s₁ hs₁
    rcases hgrant.streams s₁ hs₁ with ⟨s, hs, hsame, -⟩ | ⟨request, rehash, -, rfl, -⟩
    · exact hsame.not_closed (hok s hs).not_closed
    · exact (stateOk_openedStream p request).not_closed
  · intro s₁ hs₁
    rcases hgrant.streams s₁ hs₁ with ⟨s, hs, hsame, -, hids | ⟨hout, hconn⟩⟩ |
      ⟨request, rehash, -, rfl, hids, -⟩
    · exact Or.inl hids
    · refine Or.inr ?_
      have hblocked := hp s hs
      rw [hconn]
      unfold Stream.Blocked Stream.remainingBodySize at hblocked ⊢
      rwa [hsame.localEndStreamSent, hsame.rqst, hsame.requestBodyOffset, hout]
    · exact Or.inl hids

/-- No upload is stranded: a stream with bytes left to send has used up one of its windows. -/
theorem no_upload_stranded {config : ClientConfig} {tr : List Entry}
    (h : Runs (ofConfig config) tr p) {s : Stream} (hs : s ∈ p.streams.entries)
    (hopen : s.localEndStreamSent = false) (hrest : 0 < s.remainingBodySize) :
    min s.outflow.window p.connectionOutFlow.window ≤ 0 := by
  rcases blocked_of_runs h s hs with hlocal | h0 | havailable
  · rw [hopen] at hlocal
    cases hlocal
  · omega
  · unfold OutFlow.available at havailable
    split at havailable <;> omega

/-- A run that leaves ten bytes waiting: the peer has set the initial window to zero. -/
theorem no_upload_stranded_by_zero_window :
    ∃ tr p s, Runs (ofConfig {}) tr p ∧ s ∈ p.streams.entries ∧ s.localEndStreamSent = false ∧
      0 < s.remainingBodySize ∧ min s.outflow.window p.connectionOutFlow.window ≤ 0 := by
  have hrun : (Machine.run act (ofConfig {}) [.start, .receiveFrame (settingsFrame 4 0),
      .submitRequest postRequest (.id _)]).map (fun x => (x.1.streams.find? 1).map fun s =>
        (s.localEndStreamSent, s.remainingBodySize)) = .ok (some (false, 10)) := by
    decide +kernel
  obtain ⟨p, tr, hr, -, hresult⟩ := Machine.exists_runs_of_map hrun
  obtain ⟨s, hfind, hs⟩ := Option.map_eq_some_iff.1 hresult
  simp only [Prod.mk.injEq] at hs
  have hmem := KeyedTable.mem_of_find? hfind
  exact ⟨tr, p, s, hr, hmem, hs.1, by omega, no_upload_stranded hr hmem hs.1 (by omega)⟩

/-! ## The bytes of a body -/

/-- The DATA frames `frames` on the stream `streamId` carry a part of `body` from its start, and the
stream goes on where they end. -/
structure Uploaded (streamId : StreamId) (body : Bytes) (frames : List DataFrame)
    (p : ProtocolState) : Prop where
  live : ∀ s, p.streams.find? streamId = some s → s.rqst.body = body ∧
    payload frames = body.take s.requestBodyOffset
  sent : payload frames <+: body
  size : ∀ f ∈ frames, 0 < f.data.length
  endStream : ∀ a f b, frames = a ++ f :: b →
    (f.header.hasEndStreamFlag = true ↔ payload (a ++ [f]) = body)

section Uploaded

variable {id : StreamId} {body : Bytes} {frames : List DataFrame}

/-- The frames of a body step continue the body. -/
theorem Uploaded.extend {n : Nat} {more : List DataFrame} (h : Uploaded id body frames p)
    (hfind : p.streams.find? id = some s)
    (hsent : BodySent p.maxFrameSize s p.connectionOutFlow n more)
    (hlive : ∀ s', p'.streams.find? id = some s' → s'.rqst = s.rqst ∧
      s'.requestBodyOffset = s.requestBodyOffset + n) :
    Uploaded id body (frames ++ more) p' := by
  obtain ⟨hbody, htake⟩ := h.live s hfind
  have hmore := hsent.body
  rw [hbody] at hmore
  have hall : payload (frames ++ more) = body.take (s.requestBodyOffset + n) := by
    rw [payload_append, htake, hmore, List.take_add]
  have hrest : ∀ new, payload (frames ++ new) = body ↔
      payload new = s.rqst.body.drop s.requestBodyOffset := by
    intro new
    rw [payload_append, htake, hbody]
    constructor
    · intro hnew
      exact (List.append_right_inj _).1 (hnew.trans (List.take_append_drop _ body).symm)
    · intro hnew
      rw [hnew, List.take_append_drop]
  refine ⟨fun s' hs' => ?_, ?_, fun f hf => ?_, fun a f b heq => ?_⟩
  · obtain ⟨hrqst, hoff⟩ := hlive s' hs'
    rw [hrqst, hoff]
    exact ⟨hbody, hall⟩
  · rw [hall]
    exact List.take_prefix _ _
  · exact (List.mem_append.1 hf).elim (h.size f) fun hf => (hsent.size f hf).1
  · -- the frame is an old one, or one of the new ones behind all old ones
    rcases List.append_eq_append_iff.1 heq with ⟨c, rfl, hc⟩ | ⟨c, rfl, hc⟩
    · rw [hsent.endStream c f b hc, List.append_assoc, hrest]
    · cases c with
      | nil =>
        have hnew : more = [] ++ f :: b := by simpa using hc.symm
        rw [hsent.endStream [] f b hnew, List.nil_append, ← hrest, List.append_nil]
      | cons g c =>
        obtain ⟨rfl, -⟩ : f = g ∧ b = c ++ more := by simpa using hc
        exact h.endStream a f c rfl

theorem uploaded_bodyStep (h : Uploaded id body frames p)
    (hfind : p.streams.find? s.streamId = some s) (hstep : BodyStep p s p' r) :
    Uploaded id body (frames ++ dataFramesOn id r.outbound) p' := by
  have hsends : ∀ {n : Nat} {more : List DataFrame} {q : ProtocolState},
      BodySent p.maxFrameSize s p.connectionOutFlow n more →
      (∀ s', q.streams.find? s.streamId = some s' → s'.rqst = s.rqst ∧
        s'.requestBodyOffset = s.requestBodyOffset + n) →
      (∀ k, k ≠ s.streamId → q.streams.find? k = p.streams.find? k) →
      Uploaded id body (frames ++ dataFramesOn id (more.map .data)) q := by
    intro n more q hsent hsame hother
    rw [hsent.dataFramesOn_eq]
    split
    · rename_i hid
      subst hid
      exact h.extend hfind hsent hsame
    · -- nothing is sent on `id`, and its record stays
      rename_i hid
      rw [List.append_nil]
      exact ⟨fun s' hs' => h.live s' (hother id hid ▸ hs'), h.sent, h.size, h.endStream⟩
  have hset : ∀ u : Stream, u.streamId = s.streamId → ∀ k, (p.streams.set u).find? k =
      if k = s.streamId then some u else p.streams.find? k :=
    fun u hu k => KeyedTable.find?_set_of_find? hfind hu k
  cases hstep with
  | idle =>
    rw [dataFramesOn_nil, List.append_nil]
    exact h
  | partly n more hopen hsent hend =>
    have hput := hset (s.advanceBody n) rfl
    refine hsends hsent (fun s' hs' => ?_) fun k hk => (hput k).trans (if_neg hk)
    cases ((hput _).trans (if_pos rfl)).symm.trans hs'
    exact ⟨rfl, rfl⟩
  | wholly n more hopen hsent hend hremote =>
    have hput := hset { s.advanceBody n with streamState := .halfClosedLocal } rfl
    refine hsends hsent (fun s' hs' => ?_) fun k hk => (hput k).trans (if_neg hk)
    cases ((hput _).trans (if_pos rfl)).symm.trans hs'
    exact ⟨rfl, rfl⟩
  | finished n more hopen hsent =>
    refine hsends hsent (fun s' hs' => ?_) fun k hk => KeyedTable.find?_erase_ne _ hk
    cases (KeyedTable.find?_erase_self p.streams s.streamId).symm.trans hs'

theorem uploaded_bodySteps {ids : List StreamId} (hsteps : BodySteps ids p p' r) :
    ∀ {frames}, Uploaded id body frames p →
      Uploaded id body (frames ++ dataFramesOn id r.outbound) p' := by
  induction hsteps with
  | nil =>
    intro frames h
    rw [dataFramesOn_nil, List.append_nil]
    exact h
  | gone _ _ ih => exact fun h => ih h
  | @cons k ids s p p₁ p' r₁ r hfind hstep _ ih =>
    intro frames h
    have hk : s.streamId = k := KeyedTable.key_of_find? hfind
    rw [ProtocolStepResult.outbound_merge, dataFramesOn_append, ← List.append_assoc]
    exact ih (uploaded_bodyStep h (by rw [hk]; exact hfind) hstep)

/-- The peer's grants change nothing on the way of a body. -/
theorem Uploaded.granted {e : Entry} {ids : List StreamId} {p₁ : ProtocolState}
    (h : Uploaded id body frames p) (hgrant : SendGrant p e ids p₁) (hid : id < p.nextStreamId) :
    Uploaded id body frames p₁ := by
  refine ⟨fun s₁ hs₁ => ?_, h.sent, h.size, h.endStream⟩
  have hkey : s₁.streamId = id := KeyedTable.key_of_find? hs₁
  rcases hgrant.streams s₁ (KeyedTable.mem_of_find? hs₁) with
    ⟨s, hs, hsame, -⟩ | ⟨request, rehash, -, rfl, -⟩
  · have hfind := KeyedTable.mem_iff_find?.1 hs
    rw [← hsame.streamId, hkey] at hfind
    rw [hsame.rqst, hsame.requestBodyOffset]
    exact h.live s hfind
  · rw [← hkey] at hid
    exact absurd hid (lt_irrefl p.nextStreamId)

end Uploaded

/-- The entry opens the stream `streamId` for a request with the given body. -/
def Opens (streamId : StreamId) (body : Bytes) (e : Entry) : Prop :=
  ∃ request rehash, e.input = .submitRequest request rehash ∧
    e.output.submittedStreamId = some streamId ∧ request.body = body

/-- The step that opens a stream. -/
theorem uploaded_opens {id : StreamId} {body : Bytes} {a : Action}
    (hopens : Opens id body ⟨p, a, r⟩) (hstep : ActionStep p a p' r) :
    p.nextStreamId = id ∧ id < p'.nextStreamId ∧
      Uploaded id body (dataFramesOn id r.outbound) p' := by
  obtain ⟨request, rehash, hin, hout, hbody⟩ := hopens
  dsimp only at hin hout
  subst hin
  cases hstep with
  | refused => cases hout
  | @opened _ _ _ r₁ hcan hvalid hroom hpos hmax hstep =>
    cases hout
    have hfind : ((p.opening request rehash).putStream (p.openedStream request)).streams.find?
        p.nextStreamId = some (p.openedStream request) := by
      rw [find?_opening, if_pos rfl]
    have hstart : Uploaded p.nextStreamId body []
        ((p.opening request rehash).putStream (p.openedStream request)) := by
      refine ⟨fun s hs => ?_, List.nil_prefix, fun f hf => (List.not_mem_nil hf).elim,
        fun a f b heq => ?_⟩
      · cases hfind.symm.trans hs
        exact ⟨hbody, rfl⟩
      · simp at heq
    have hnext := (steady_bodyStep hstep).nextStreamId
    refine ⟨rfl, ?_, ?_⟩
    · rw [hnext]
      exact Nat.lt_add_of_pos_right (by decide : 0 < 2)
    · have h := uploaded_bodyStep hstart hfind hstep
      rw [dataFramesOn_append, (p.plain_requestHeaderFrames request).noData.dataFramesOn]
      exact h

/-- What a run has sent for the requests that it has opened. -/
structure Uploads (tr : List Entry) (p : ProtocolState) : Prop where
  fresh : ∀ id, p.nextStreamId ≤ id → dataFramesOn id (outboundOf tr) = []
  opened : ∀ id body, (∃ e ∈ tr, Opens id body e) →
    id < p.nextStreamId ∧ Uploaded id body (dataFramesOn id (outboundOf tr)) p

theorem uploads_of_runs {config : ClientConfig} {tr : List Entry}
    (h : Runs (ofConfig config) tr p) : Uploads tr p := by
  refine runs_invariant (I := Uploads) ?_ ?_ h
  · exact ⟨fun _ _ => rfl, fun _ _ ⟨e, he, _⟩ => (List.not_mem_nil he).elim⟩
  intro tr p a p' r hr hp hstep
  obtain ⟨p₁, ids, r₁, hgrant, hbodies, hdata⟩ := hstep.sends
  have hon : ∀ id, dataFramesOn id r.outbound = dataFramesOn id r₁.outbound := fun id => by
    rw [dataFramesOn, hdata]
    rfl
  refine ⟨fun id hid => ?_, fun id body hopens => ?_⟩
  · have hnot := hgrant.not_mem_of_next_le (tidy_of_runs hr) hstep hbodies hid
    simp only [outboundOf_append, outboundOf_cons, outboundOf_nil, List.append_nil,
      dataFramesOn_append]
    rw [hp.fresh id (hstep.next_le.trans hid), hon, dataFramesOn_bodySteps hbodies hnot]
    rfl
  · obtain ⟨e, he, hopens⟩ := hopens
    simp only [outboundOf_append, outboundOf_cons, outboundOf_nil, List.append_nil,
      dataFramesOn_append]
    rcases List.mem_append.1 he with he | he
    · obtain ⟨hlt, hup⟩ := hp.opened id body ⟨e, he, hopens⟩
      refine ⟨hlt.trans_le hstep.next_le, ?_⟩
      rw [hon]
      exact uploaded_bodySteps hbodies (hup.granted hgrant hlt)
    · rw [List.mem_singleton.1 he] at hopens
      obtain ⟨hid, hlt, hup⟩ := uploaded_opens hopens hstep
      rw [hp.fresh id (le_of_eq hid), List.nil_append]
      exact ⟨hlt, hup⟩

/-- The DATA frames of a step are no longer than the frame size in force after it. -/
theorem size_le_of_step {config : ClientConfig} {tr : List Entry} {a : Action}
    (h : Runs (ofConfig config) tr p) (hstep : ActionStep p a p' r) :
    ∀ f ∈ dataFrames r.outbound, f.data.length ≤ settingOf .maxFrameSize
      (peerSettingsOf (tr ++ [⟨p, a, r⟩])) Http2SettingInfo.defaultMaxFrameSize := by
  obtain ⟨p₁, ids, r₁, hgrant, hbodies, hdata⟩ := hstep.sends
  intro f hf
  rw [hdata] at hf
  have hlive : f.header.streamId ∈ p₁.streams.keys := by
    by_contra hnot
    have hnone := dataFramesOn_bodySteps hbodies hnot
    have hmem : f ∈ dataFramesOn f.header.streamId r₁.outbound :=
      List.mem_filter.2 ⟨hf, by simp⟩
    rw [hnone] at hmem
    exact List.not_mem_nil hmem
  have hpc : ¬ p.closed = true := fun hc => by
    rw [hgrant.closed (tidy_of_runs h) hc] at hlive
    exact List.not_mem_nil hlive
  obtain ⟨hmax, -⟩ := (maxFrameSize_of_runs h).resolve_left hpc
  rcases hgrant.settings with ⟨-, hempty⟩ | ⟨-, hmax₁, -⟩
  · rw [hempty] at hlive
    exact (List.not_mem_nil hlive).elim
  · rw [peerSettingsOf_snoc, settingOf_append, ← hmax, ← hmax₁]
    exact size_bodySteps hbodies f hf

/-- The DATA frames of a run on a stream that it has opened: they carry a prefix of the request body,
up to the offset of the stream while it lives; each carries at least one byte and no more than the
frame size in force; END_STREAM marks the frame that completes the body, which is the last one. -/
theorem body_emission {config : ClientConfig} {tr : List Entry} (h : Runs (ofConfig config) tr p)
    {id : StreamId} {body : Bytes} (hopens : ∃ e ∈ tr, Opens id body e) :
    (∀ s, p.streams.find? id = some s → s.rqst.body = body ∧
      payload (dataFramesOn id (outboundOf tr)) = body.take s.requestBodyOffset) ∧
    payload (dataFramesOn id (outboundOf tr)) <+: body ∧
    (∀ tr₁ e tr₂, tr = tr₁ ++ e :: tr₂ → ∀ f ∈ dataFramesOn id e.output.outbound,
      0 < f.data.length ∧ f.data.length ≤ settingOf .maxFrameSize (peerSettingsOf (tr₁ ++ [e]))
        Http2SettingInfo.defaultMaxFrameSize) ∧
    ∀ a f b, dataFramesOn id (outboundOf tr) = a ++ f :: b →
      ((f.header.hasEndStreamFlag = true ↔ payload (a ++ [f]) = body) ∧
        (f.header.hasEndStreamFlag = true → b = [])) := by
  obtain ⟨-, hup⟩ := (uploads_of_runs h).opened id body hopens
  refine ⟨hup.live, hup.sent, ?_, fun a f b heq => ⟨hup.endStream a f b heq, fun hend => ?_⟩⟩
  · rintro tr₁ e tr₂ rfl f hf
    have hpos : f ∈ dataFramesOn id (outboundOf (tr₁ ++ e :: tr₂)) := by
      simp only [outboundOf_append, outboundOf_cons, dataFramesOn_append, List.mem_append]
      exact Or.inr (Or.inl hf)
    obtain ⟨hr, p', hact⟩ := h.at_entry
    have hstep := actionStep_of_act (sound_of_runs hr) hact
    exact ⟨hup.size f hpos, size_le_of_step hr hstep f (List.mem_of_mem_filter hf)⟩
  · -- what follows the whole body is empty, and no frame is
    have hall := (hup.endStream a f b heq).1 hend
    have hpre := hup.sent
    have hsplit : payload (a ++ f :: b) = body ++ payload b := by
      rw [← hall, ← payload_append, List.append_assoc]
      rfl
    rw [heq, hsplit] at hpre
    have hnil : payload b = [] := by
      have hlen := hpre.length_le
      rw [List.length_append] at hlen
      exact List.eq_nil_of_length_eq_zero (by omega)
    cases b with
    | nil => rfl
    | cons g b =>
      have hpos := hup.size g (by rw [heq]; simp)
      rw [payload_cons, List.append_eq_nil_iff] at hnil
      rw [hnil.1] at hpos
      cases hpos

/-- The ten bytes of a request leave in one frame. -/
theorem body_emission_of_post :
    ∃ tr p, Runs (ofConfig {}) tr p ∧ (∃ e ∈ tr, Opens 1 postRequest.body e) ∧
      payload (dataFramesOn 1 (outboundOf tr)) <+: postRequest.body ∧
      payload (dataFramesOn 1 (outboundOf tr)) ≠ [] := by
  have hrun : (Machine.run act (ofConfig {}) [.start, .submitRequest postRequest (.id _)]).map
      (fun x => (x.2.map fun e => e.output.submittedStreamId, sentOn 1 (outboundOf x.2))) =
      .ok ([none, some 1], 10) := by decide +kernel
  obtain ⟨p, tr, hr, hin, hresult⟩ := Machine.exists_runs_of_map hrun
  simp only [Prod.mk.injEq] at hresult
  obtain ⟨e₁, e₂, rfl⟩ : ∃ e₁ e₂, tr = [e₁, e₂] :=
    List.length_eq_two.1 (by simpa using congrArg List.length hin)
  simp only [List.map_cons, List.map_nil, List.cons.injEq, and_true] at hin hresult
  have hopens : ∃ e ∈ [e₁, e₂], Opens 1 postRequest.body e :=
    ⟨e₂, by simp, postRequest, _, hin.2, hresult.1.2, rfl⟩
  obtain ⟨-, hpre, -⟩ := body_emission hr hopens
  refine ⟨_, p, hr, hopens, hpre, fun hnil => ?_⟩
  rw [sentOn, hnil] at hresult
  cases hresult.2

end Chttp2
