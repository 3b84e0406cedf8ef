import Chttp2.Protocol.Sending

/-!
# The windows for sent data

The window of the connection is exactly what the peer has granted less what has been sent
(`connection_window_exact`). The window of a stream is at most that, counted from the initial window
in force (`window_le_of_runs`), and a step that sends DATA on a stream stays within it
(`sent_le_of_runs`). A later SETTINGS frame may take back window that has been used already
(`stream_window_exceeded`).
-/

set_option autoImplicit false

namespace Chttp2

open ProtocolState

variable {p p' : ProtocolState} {s : Stream} {r : ProtocolStepResult}

/-! ## The connection -/

theorem window_bodyStep (h : BodyStep p s p' r) :
    p'.connectionOutFlow.window = p.connectionOutFlow.window - sent r.outbound ∧
      (0 ≤ p.connectionOutFlow.window → 0 ≤ p'.connectionOutFlow.window) := by
  have hstep : ∀ {n frames}, BodySent p.maxFrameSize s p.connectionOutFlow n frames →
      p.connectionOutFlow.window - n =
        p.connectionOutFlow.window - sent (frames.map OutboundBuffer.data) ∧
      (0 ≤ p.connectionOutFlow.window → 0 ≤ p.connectionOutFlow.window - n) := by
    intro n frames hsent
    have hle := (OutFlow.available_le s.outflow p.connectionOutFlow).2
    have hwindow := hsent.window
    rw [hsent.sent_eq]
    exact ⟨rfl, fun h => by omega⟩
  cases h with
  | idle => exact ⟨by simp, id⟩
  | partly n frames hopen hsent => exact hstep hsent
  | wholly n frames hopen hsent => exact hstep hsent
  | finished n frames hopen hsent => exact hstep hsent

theorem window_bodySteps {ids : List StreamId} (h : BodySteps ids p p' r) :
    p'.connectionOutFlow.window = p.connectionOutFlow.window - sent r.outbound ∧
      (0 ≤ p.connectionOutFlow.window → 0 ≤ p'.connectionOutFlow.window) := by
  induction h with
  | nil => exact ⟨by simp, id⟩
  | gone _ _ ih => exact ih
  | cons _ hstep _ ih =>
    obtain ⟨heq, hle⟩ := window_bodyStep hstep
    refine ⟨?_, fun h => ih.2 (hle h)⟩
    rw [ih.1, heq, ProtocolStepResult.outbound_merge, sent_append]
    omega

/-- The window of the connection is 65535 and all accepted increments less all DATA that has been
sent, and it is never negative. -/
theorem connection_window_exact {config : ClientConfig} {tr : List Entry} {p : ProtocolState}
    (h : Runs (ofConfig config) tr p) :
    p.connectionOutFlow.window = 65535 + granted 0 tr - sent (outboundOf tr) ∧
      0 ≤ p.connectionOutFlow.window := by
  refine runs_invariant (I := fun tr p => p.connectionOutFlow.window =
    65535 + granted 0 tr - sent (outboundOf tr) ∧ 0 ≤ p.connectionOutFlow.window) ?_ ?_ h
  · exact ⟨rfl, (by decide : (0 : Int) ≤ 65535)⟩
  · rintro tr p a p' r - ⟨heq, hle⟩ hstep
    obtain ⟨p₁, ids, r₁, hgrant, hbodies, hdata⟩ := hstep.sends
    obtain ⟨hw, hpos⟩ := window_bodySteps hbodies
    have hconn := hgrant.connection
    have hsent : sent r.outbound = sent r₁.outbound := by rw [sent, hdata, sent]
    simp only [granted_snoc, outboundOf_append, outboundOf_cons, outboundOf_nil, List.append_nil,
      sent_append, hsent]
    exact ⟨by push_cast; omega, hpos (by omega)⟩

/-- The window after a request with a body of ten bytes. -/
theorem connection_window_exact_after_upload :
    ∃ tr p, Runs (ofConfig {}) tr p ∧ sent (outboundOf tr) = 10 ∧
      p.connectionOutFlow.window = 65535 + granted 0 tr - sent (outboundOf tr) ∧
      0 ≤ p.connectionOutFlow.window := by
  have hrun : (Machine.run act (ofConfig {}) [.start, .submitRequest postRequest (.id _)]).map
      (fun x => sent (outboundOf x.2)) = .ok 10 := by decide +kernel
  obtain ⟨p, tr, hr, -, hsent⟩ := Machine.exists_runs_of_map hrun
  exact ⟨tr, p, hr, hsent, connection_window_exact hr⟩

/-! ## Streams -/

/-- A limit for the windows of streams, moved by what a body step sends. The step sends on live
streams only, and not more than the limit. -/
structure Spends (L : StreamId → Int) (p p' : ProtocolState) (out : List OutboundBuffer) : Prop where
  window : AllStreams (fun s => s.outflow.window ≤ L s.streamId - sentOn s.streamId out) p'.streams
  sent : ∀ id, sentOn id out = 0 ∨ ((sentOn id out : Int) ≤ L id ∧ id ∈ p.streams.keys)

theorem spends_bodyStep {L : StreamId → Int} (hfind : p.streams.find? s.streamId = some s)
    (hL : AllStreams (fun s => s.outflow.window ≤ L s.streamId) p.streams)
    (h : BodyStep p s p' r) : Spends L p p' r.outbound := by
  have hs : s.outflow.window ≤ L s.streamId := hL.find hfind
  have hsent : ∀ {n frames}, BodySent p.maxFrameSize s p.connectionOutFlow n frames → ∀ id,
      sentOn id (frames.map OutboundBuffer.data) = 0 ∨
        ((sentOn id (frames.map OutboundBuffer.data) : Int) ≤ L id ∧ id ∈ p.streams.keys) := by
    intro n frames hsent id
    have hle := (OutFlow.available_le s.outflow p.connectionOutFlow).1
    rw [hsent.sentOn_eq]
    split
    · rename_i hid
      rcases hsent.window with h0 | hn
      · exact Or.inl h0
      · rw [hid]
        exact Or.inr ⟨by omega, KeyedTable.mem_keys_of_find? hfind⟩
    · exact Or.inl rfl
  -- the records that are written back have spent what they sent; the others sent nothing
  have hset : ∀ {n frames s'}, BodySent p.maxFrameSize s p.connectionOutFlow n frames →
      s'.streamId = s.streamId → s'.outflow.window = s.outflow.window - n →
      AllStreams (fun u => u.outflow.window ≤ L u.streamId -
        sentOn u.streamId (frames.map OutboundBuffer.data)) (p.streams.set s') := by
    intro n frames s' hsent hid hw u hu
    rcases KeyedTable.mem_set.1 hu with ⟨rfl, -⟩ | ⟨hu, hne⟩
    · rw [hsent.sentOn_eq, if_pos hid, hw, hid]
      omega
    · have hother : u.streamId ≠ s.streamId := hid ▸ hne
      have hwindow : u.outflow.window ≤ L u.streamId := hL u hu
      rw [hsent.sentOn_eq, if_neg hother]
      simpa using hwindow
  cases h with
  | idle =>
    refine ⟨fun u hu => ?_, fun _ => Or.inl rfl⟩
    have hwindow : u.outflow.window ≤ L u.streamId := hL u hu
    simpa using hwindow
  | partly n frames hopen h => exact ⟨hset h rfl rfl, hsent h⟩
  | wholly n frames hopen h => exact ⟨hset h rfl rfl, hsent h⟩
  | finished n frames hopen h =>
    refine ⟨fun u hu => ?_, hsent h⟩
    obtain ⟨hu, hne⟩ := KeyedTable.mem_erase.1 hu
    have hwindow : u.outflow.window ≤ L u.streamId := hL u hu
    dsimp only
    rw [h.sentOn_eq, if_neg hne]
    simpa using hwindow

theorem spends_bodySteps {ids : List StreamId} (h : BodySteps ids p p' r) :
    ∀ {L : StreamId → Int}, AllStreams (fun s => s.outflow.window ≤ L s.streamId) p.streams →
      Spends L p p' r.outbound := by
  induction h with
  | nil =>
    intro L hL
    refine ⟨fun u hu => ?_, fun _ => Or.inl rfl⟩
    have hwindow : u.outflow.window ≤ L u.streamId := hL u hu
    simpa using hwindow
  | gone _ _ ih => exact fun hL => ih hL
  | @cons id ids s p p₁ p' r₁ r hfind hstep _ ih =>
    intro L hL
    have hsid : s.streamId = id := KeyedTable.key_of_find? hfind
    have h₁ := spends_bodyStep (by rw [hsid]; exact hfind) hL hstep
    have h₂ := ih (L := fun id => L id - sentOn id r₁.outbound) h₁.window
    refine ⟨fun u hu => ?_, fun k => ?_⟩
    · have hwindow := h₂.window u hu
      dsimp only at hwindow ⊢
      rw [ProtocolStepResult.outbound_merge, sentOn_append]
      push_cast
      omega
    · rw [ProtocolStepResult.outbound_merge, sentOn_append]
      rcases h₁.sent k with h0 | ⟨hle, hmem⟩
      · rw [h0, Nat.zero_add]
        rcases h₂.sent k with h0' | ⟨hle', hmem'⟩
        · exact Or.inl h0'
        · exact Or.inr ⟨by omega, noNewStreams_bodyStep hstep k hmem'⟩
      · refine Or.inr ⟨?_, hmem⟩
        rcases h₂.sent k with h0' | ⟨hle', -⟩
        · omega
        · push_cast
          omega

/-- The limit of the window of a stream: the initial window and all increments less what has been
sent. -/
def sendLimit (initialWindowSize : Nat) (tr : List Entry) (streamId : StreamId) : Int :=
  wrapInt32 initialWindowSize + granted streamId tr - sentOn streamId (outboundOf tr)

/-- What holds of the send windows along a run. -/
structure SendWindows (config : ClientConfig) (tr : List Entry) (p : ProtocolState) : Prop where
  initialWindowSize : p.closed = true ∨ p.initialWindowSize =
    settingOf .initialWindowSize (peerSettingsOf tr) config.initialWindowSize
  window : AllStreams (fun s => s.outflow.window ≤ sendLimit p.initialWindowSize tr s.streamId)
    p.streams
  fresh : ∀ id, p.nextStreamId ≤ id → sentOn id (outboundOf tr) = 0

theorem openedStream_window (p : ProtocolState) (request : Request) :
    (p.openedStream request).outflow.window = wrapInt32 p.initialWindowSize := by
  have hrange := wrapInt32_range (p.initialWindowSize : Int)
  have hadd : ({} : OutFlow).add (wrapInt32 p.initialWindowSize) =
      some ⟨wrapInt32 p.initialWindowSize⟩ :=
    OutFlow.add_eq_some.2 ⟨by simp, by simpa using hrange.2, by simpa using hrange.1⟩
  show ((({} : OutFlow).add (wrapInt32 p.initialWindowSize)).getD {}).window = _
  rw [hadd]
  rfl

/-- The windows after the peer's grants have been taken over. -/
theorem SendWindows.granted {config : ClientConfig} {tr : List Entry} {a : Action}
    {ids : List StreamId} {p₁ : ProtocolState} (hp : SendWindows config tr p)
    (h : SendGrant p ⟨p, a, r⟩ ids p₁) :
    AllStreams (fun s => s.outflow.window ≤
      wrapInt32 p₁.initialWindowSize + Chttp2.granted s.streamId (tr ++ [⟨p, a, r⟩]) -
        sentOn s.streamId (outboundOf tr)) p₁.streams := by
  intro s₁ hs₁
  rcases h.streams s₁ hs₁ with ⟨s, hs, hsame, hle, -⟩ | ⟨request, rehash, hin, rfl, -, -, -⟩
  · have hw := hp.window s hs
    simp only [sendLimit] at hw
    rw [hsame.streamId, granted_snoc]
    push_cast
    omega
  · have hfresh := hp.fresh p.nextStreamId (le_refl _)
    have hiws : p₁.initialWindowSize = p.initialWindowSize := by
      rcases h.settings with ⟨-, hempty⟩ | ⟨heq, -⟩
      · rw [hempty] at hs₁
        exact (List.not_mem_nil hs₁).elim
      · dsimp only at hin
        subst hin
        exact heq
    have hid : (p.openedStream request).streamId = p.nextStreamId := rfl
    rw [openedStream_window, hid, hfresh, hiws]
    omega

theorem SendWindows.spends {config : ClientConfig} {tr : List Entry} {a : Action}
    {ids : List StreamId} {p₁ : ProtocolState} {r₁ : ProtocolStepResult}
    (hp : SendWindows config tr p) (h : SendGrant p ⟨p, a, r⟩ ids p₁)
    (hbodies : BodySteps ids p₁ p' r₁) :
    Spends (fun id => wrapInt32 p₁.initialWindowSize + Chttp2.granted id (tr ++ [⟨p, a, r⟩]) -
      sentOn id (outboundOf tr)) p₁ p' r₁.outbound := by
  have hL := hp.granted h
  refine spends_bodySteps hbodies ?_
  exact hL

/-- The streams of a closed connection have no windows to grant. -/
theorem SendGrant.closed {e : Entry} {ids : List StreamId} {p₁ : ProtocolState}
    (h : SendGrant p e ids p₁) (htidy : p.Tidy) (hclosed : p.closed = true) :
    p₁.streams.keys = [] := by
  refine List.eq_nil_iff_forall_not_mem.2 fun id hid => ?_
  obtain ⟨s₁, hs₁, rfl⟩ := KeyedTable.mem_keys.1 hid
  rcases h.streams s₁ hs₁ with ⟨s, hs, -⟩ | ⟨request, rehash, -, rfl, -, hopen, -⟩
  · have hmem := KeyedTable.key_mem_keys hs
    rw [htidy.closed hclosed] at hmem
    exact List.not_mem_nil hmem
  · rw [hclosed] at hopen
    cases hopen

/-- The initial window in force after the grants. -/
theorem SendWindows.inForce {config : ClientConfig} {tr : List Entry} {a : Action}
    {ids : List StreamId} {p₁ : ProtocolState} (hp : SendWindows config tr p)
    (h : SendGrant p ⟨p, a, r⟩ ids p₁) (hpc : ¬ p.closed = true) :
    (p₁.closed = true ∧ p₁.streams = .empty) ∨ p₁.initialWindowSize =
      settingOf .initialWindowSize (peerSettingsOf (tr ++ [⟨p, a, r⟩])) config.initialWindowSize := by
  have heq := hp.initialWindowSize.resolve_left hpc
  rcases h.settings with h₁ | ⟨h₁, -⟩
  · exact Or.inl h₁
  · rw [h₁, heq, peerSettingsOf_snoc, settingOf_append]
    exact Or.inr rfl

/-- Every step keeps the windows within their limits, and what it sends on a stream fits. -/
theorem SendWindows.step {config : ClientConfig} {tr : List Entry} {a : Action}
    (hp : SendWindows config tr p) (htidy : p.Tidy) (hstep : ActionStep p a p' r) :
    SendWindows config (tr ++ [⟨p, a, r⟩]) p' ∧
      ∀ id, sentOn id r.outbound = 0 ∨ 0 ≤ sendLimit (settingOf .initialWindowSize
        (peerSettingsOf (tr ++ [⟨p, a, r⟩])) config.initialWindowSize) (tr ++ [⟨p, a, r⟩]) id := by
  obtain ⟨p₁, ids, r₁, hgrant, hbodies, hdata⟩ := hstep.sends
  have hspend := hp.spends hgrant hbodies
  have hsent : ∀ id, sentOn id r.outbound = sentOn id r₁.outbound := fun id => by
    rw [sentOn, dataFramesOn, hdata]
    rfl
  have htotal : ∀ id, sentOn id (outboundOf (tr ++ [⟨p, a, r⟩])) =
      sentOn id (outboundOf tr) + sentOn id r₁.outbound := fun id => by
    simp [hsent]
  have hiws : p'.initialWindowSize = p₁.initialWindowSize :=
    (congrArg ProtocolState.initialWindowSize hbodies.eq_with :)
  have hclosed : p'.closed = p₁.closed := (congrArg ProtocolState.closed hbodies.eq_with :)
  refine ⟨⟨?_, fun s hs => ?_, fun id hid => ?_⟩, fun id => ?_⟩
  -- the settings in force
  · by_cases hpc : p.closed = true
    · exact Or.inl (hstep.closed_of_closed hpc)
    rcases hp.inForce hgrant hpc with ⟨h₁, -⟩ | h₁
    · exact Or.inl (hclosed.trans h₁)
    · exact Or.inr (hiws.trans h₁)
  -- the windows of the streams
  · have hw := hspend.window s hs
    simp only [sendLimit, htotal, hiws] at hw ⊢
    push_cast
    omega
  -- ids that are not given out
  · rw [htotal, hp.fresh id (hstep.next_le.trans hid), Nat.zero_add]
    rcases hspend.sent id with h0 | ⟨-, hmem⟩
    · exact h0
    · exact absurd hmem (hgrant.not_mem_of_next_le htidy hstep hbodies hid)
  -- what has been sent in this step fits the settings that the step ends with
  · rw [hsent]
    rcases hspend.sent id with h0 | ⟨hle, hmem⟩
    · exact Or.inl h0
    · have hpc : ¬ p.closed = true := fun hc => by
        rw [hgrant.closed htidy hc] at hmem
        exact List.not_mem_nil hmem
      rcases hp.inForce hgrant hpc with ⟨-, hempty⟩ | h₁
      · rw [hempty] at hmem
        exact (List.not_mem_nil hmem).elim
      · rw [← h₁]
        simp only [sendLimit, htotal]
        push_cast
        omega

theorem sendWindows_of_runs {config : ClientConfig} {tr : List Entry}
    (h : Runs (ofConfig config) tr p) : SendWindows config tr p := by
  refine runs_invariant (I := fun tr p => SendWindows config tr p) ?_ ?_ h
  · exact ⟨Or.inr rfl, .empty, fun _ _ => rfl⟩
  · exact fun tr p a p' r hr hp hstep => (hp.step (tidy_of_runs hr) hstep).1

/-! ## The window that the peer has granted -/

/-- The window of a stream as the peer counts it: its initial window, 65535 until it announces one,
and its increments on the stream. -/
def peerWindow (streamId : StreamId) (tr : List Entry) : Nat :=
  settingOf .initialWindowSize (peerSettingsOf tr)
    Http2SettingInfo.defaultInitialWindowSize + granted streamId tr

theorem settingOf_mono (parameter : Http2SettingParameter) (settings : List (Nat × Nat)) :
    ∀ {a b : Nat}, a ≤ b → settingOf parameter settings a ≤ settingOf parameter settings b := by
  induction settings with
  | nil => exact fun h => h
  | cons setting settings ih =>
    intro a b h
    simp only [settingOf, List.foldl_cons] at ih ⊢
    split
    · exact le_refl _
    · exact ih h

/-- A parameter that is announced does not depend on its default. -/
theorem settingOf_of_mem {parameter : Http2SettingParameter} {setting : Nat × Nat}
    (hparameter : Http2SettingParameter.ofNat setting.1 = parameter) (settings : List (Nat × Nat))
    (hmem : setting ∈ settings) (a b : Nat) :
    settingOf parameter settings a = settingOf parameter settings b := by
  induction settings generalizing a b with
  | nil => cases hmem
  | cons head settings ih =>
    simp only [settingOf, List.foldl_cons] at ih ⊢
    rcases List.mem_cons.1 hmem with rfl | hmem
    · rw [if_pos hparameter, if_pos hparameter]
    · exact ih hmem _ _

theorem wrapInt32_natCast_le (n : Nat) : wrapInt32 n ≤ n :=
  wrapInt32_le (by simp only [int32Min]; omega)

/-- A step that sends DATA on a stream leaves the total within the window that the peer has granted,
if the client's own setting does not exceed the default or the peer has announced its own. -/
theorem sent_le_of_runs {config : ClientConfig} {tr : List Entry} {e : Entry}
    (h : Runs (ofConfig config) (tr ++ [e]) p)
    (hstart : config.initialWindowSize ≤ Http2SettingInfo.defaultInitialWindowSize ∨
      ∃ setting ∈ peerSettingsOf (tr ++ [e]),
        Http2SettingParameter.ofNat setting.1 = .initialWindowSize)
    (id : StreamId) (hsend : 0 < sentOn id e.output.outbound) :
    sentOn id (outboundOf (tr ++ [e])) ≤ peerWindow id (tr ++ [e]) := by
  obtain ⟨hr, hact⟩ := h.last
  have hstep := actionStep_of_act (sound_of_runs hr) hact
  have hle := ((sendWindows_of_runs hr).step (tidy_of_runs hr) hstep).2 id
  have hlimit : 0 ≤ sendLimit (settingOf .initialWindowSize (peerSettingsOf (tr ++ [e]))
      config.initialWindowSize) (tr ++ [e]) id :=
    hle.resolve_left (Nat.pos_iff_ne_zero.1 hsend)
  have hsetting : settingOf .initialWindowSize (peerSettingsOf (tr ++ [e]))
      config.initialWindowSize ≤ settingOf .initialWindowSize (peerSettingsOf (tr ++ [e]))
        Http2SettingInfo.defaultInitialWindowSize := by
    rcases hstart with hle | ⟨setting, hmem, hparameter⟩
    · exact settingOf_mono _ _ hle
    · exact (settingOf_of_mem hparameter _ hmem _ _).le
  have hwrap := wrapInt32_natCast_le (settingOf .initialWindowSize (peerSettingsOf (tr ++ [e]))
    config.initialWindowSize)
  simp only [sendLimit] at hlimit
  unfold peerWindow
  omega

/-- A run that sends ten bytes with the request. -/
theorem sent_le_of_upload :
    ∃ tr e p, Runs (ofConfig {}) (tr ++ [e]) p ∧ 0 < sentOn 1 e.output.outbound ∧
      sentOn 1 (outboundOf (tr ++ [e])) ≤ peerWindow 1 (tr ++ [e]) := by
  have hrun : (Machine.run act (ofConfig {}) [.start, .submitRequest postRequest (.id _)]).map
      (fun x => (x.2.getLast?.map fun e => sentOn 1 e.output.outbound)) = .ok (some 10) := by
    decide +kernel
  obtain ⟨p, tr, hr, -, hsent⟩ := Machine.exists_runs_of_map hrun
  rcases List.eq_nil_or_concat tr with rfl | ⟨tr, e, rfl⟩
  · cases hsent
  · rw [List.concat_eq_append] at hr hsent
    have h10 : sentOn 1 e.output.outbound = 10 := by simpa using hsent
    exact ⟨tr, e, p, hr, by omega, sent_le_of_runs hr (Or.inl (le_refl _)) 1 (by omega)⟩

/-- The peer may lower its initial window below what has been sent already: ten bytes have been sent
on stream 1 when SETTINGS sets the window to zero. -/
theorem stream_window_exceeded :
    ∃ tr p, Runs (ofConfig {}) tr p ∧ p.closed = false ∧
      peerWindow 1 tr < sentOn 1 (outboundOf tr) := by
  have hrun : (Machine.run act (ofConfig {}) [.start, .submitRequest postRequest (.id _),
      .receiveFrame (settingsFrame 4 0)]).map
        (fun x => (x.1.closed, peerWindow 1 x.2, sentOn 1 (outboundOf x.2))) =
      .ok (false, 0, 10) := by decide +kernel
  obtain ⟨p, tr, hr, -, hresult⟩ := Machine.exists_runs_of_map hrun
  simp only [Prod.mk.injEq] at hresult
  exact ⟨tr, p, hr, hresult.1, by omega⟩

end Chttp2
