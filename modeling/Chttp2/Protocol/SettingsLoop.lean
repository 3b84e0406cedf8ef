import Chttp2.Protocol.StreamTable

/-!
# The loop over the streams after a SETTINGS frame

An accepted SETTINGS frame moves the send windows of all streams by the same amount, `windowShift`,
and `Acceptable` says which frames are accepted (`applyPeerSettings_eq_none_iff`). The loop that then
drives the request bodies erases the entry of a stream when it finishes its body and its response is
already complete. `Finishes` says of which streams this is true, in terms of the windows before the
frame, and `settings_loop_safe_iff` that the loop erases no entry if and only if there is no such
stream.
-/

set_option autoImplicit false

namespace Chttp2

namespace ProtocolState

/-! ## Accepted settings -/

/-- How far a list of settings moves the send windows, when the initial window is `old`. -/
def windowShift : List (Nat × Nat) → Nat → Int
  | [], _ => 0
  | (id, value) :: settings, old =>
    if Http2SettingParameter.ofNat id = .initialWindowSize then
      wrapInt32 (wrapInt32 value - wrapInt32 old) + windowShift settings value
    else windowShift settings old

/-- A setting with a value that a server may announce. -/
def LegalSetting (setting : Nat × Nat) : Prop :=
  match Http2SettingParameter.ofNat setting.1 with
  | .enablePush => setting.2 = 0
  | .maxFrameSize => Http2SettingInfo.minimumMaxFrameSize ≤ setting.2 ∧
      setting.2 ≤ Http2SettingInfo.maximumMaxFrameSize
  | .initialWindowSize => setting.2 ≤ Http2SettingInfo.maximumWindowSize
  | _ => True

/-- The window is a 32-bit number. -/
def FitsInt32 (window : Int) : Prop := window ≤ int32Max ∧ int32Min ≤ window

/-- All settings are legal, and each change of the initial window leaves the windows of the streams
within 32 bits. -/
structure Acceptable (settings : List (Nat × Nat)) (streams : List Stream) (old : Nat) : Prop where
  legal : ∀ setting ∈ settings, LegalSetting setting
  fits : ∀ before setting after, settings = before ++ setting :: after →
    Http2SettingParameter.ofNat setting.1 = .initialWindowSize →
      ∀ s ∈ streams, FitsInt32 (s.outflow.window + windowShift (before ++ [setting]) old)

section Settings

variable {p p' : ProtocolState}

theorem shiftWindow_zero : Stream.shiftWindow 0 = id := by
  funext s
  rw [Stream.shiftWindow, Int.add_zero]
  rfl

theorem shiftWindow_shiftWindow (a b : Int) (streams : List Stream) :
    (streams.map (Stream.shiftWindow a)).map (Stream.shiftWindow b) =
      streams.map (Stream.shiftWindow (a + b)) := by
  rw [List.map_map]
  refine List.map_congr_left fun s _ => ?_
  show s.withOutflow ⟨s.outflow.window + a + b⟩ = s.withOutflow ⟨s.outflow.window + (a + b)⟩
  rw [Int.add_assoc]

/-- The loop over the windows succeeds if and only if every window stays within 32 bits. -/
theorem adjustWindows_snd (delta : Int) (ids : List StreamId) : ∀ p : ProtocolState, ids.Nodup →
    ((adjustWindows delta ids p).2 = true ↔ ∀ s ∈ p.streams.entries, s.streamId ∈ ids →
      FitsInt32 (s.outflow.window + delta)) := by
  induction ids with
  | nil => exact fun p _ => iff_of_true rfl fun s _ h => absurd h List.not_mem_nil
  | cons id ids ih =>
    intro p hnd
    obtain ⟨hnot, hids⟩ := List.nodup_cons.1 hnd
    rw [adjustWindows]
    cases hfind : p.streams.find? id with
    | none =>
      refine (ih p hids).trans ⟨fun h s hs hmem => ?_, fun h s hs hmem => h s hs
        (List.mem_cons_of_mem _ hmem)⟩
      rcases List.mem_cons.1 hmem with rfl | hmem
      · exact absurd (KeyedTable.key_mem_keys hs) (KeyedTable.find?_eq_none_iff.1 hfind)
      · exact h s hs hmem
    | some s =>
      have hid : s.streamId = id := KeyedTable.key_of_find? hfind
      have hmem := KeyedTable.mem_of_find? hfind
      dsimp only
      cases hadd : s.outflow.add delta with
      | none =>
        refine iff_of_false Bool.false_ne_true fun h => ?_
        have hfits := h s hmem (by simp [hid])
        rw [OutFlow.add_eq_some.2 ⟨rfl, hfits⟩] at hadd
        cases hadd
      | some outflow =>
        obtain ⟨rfl, hfits⟩ := OutFlow.add_eq_some.1 hadd
        refine (ih _ hids).trans ⟨fun h u hu hmem' => ?_, fun h u hu hmem' => ?_⟩
        · rcases List.mem_cons.1 hmem' with heq | hmem'
          · rw [KeyedTable.eq_of_key_eq hu hmem (heq.trans hid.symm)]
            exact hfits
          · refine h u (KeyedTable.mem_set.2 (Or.inr ⟨hu, fun heq => hnot ?_⟩)) hmem'
            rw [← hid]
            exact heq ▸ hmem'
        · rcases KeyedTable.mem_set.1 hu with ⟨rfl, -⟩ | ⟨hu, -⟩
          · exact absurd (hid ▸ hmem') hnot
          · exact h u hu (List.mem_cons_of_mem _ hmem')

theorem windowShift_cons (setting : Nat × Nat) (settings : List (Nat × Nat)) (old : Nat) :
    windowShift (setting :: settings) old = windowShift [setting] old +
      windowShift settings (settingOf .initialWindowSize [setting] old) := by
  obtain ⟨id, value⟩ := setting
  simp only [windowShift, settingOf, List.foldl_cons, List.foldl_nil]
  split
  · rw [Int.add_zero]
  · rw [Int.zero_add]

theorem acceptable_singleton {setting : Nat × Nat} {streams : List Stream} {old : Nat} :
    Acceptable [setting] streams old ↔ LegalSetting setting ∧
      (Http2SettingParameter.ofNat setting.1 = .initialWindowSize →
        ∀ s ∈ streams, FitsInt32 (s.outflow.window + windowShift [setting] old)) := by
  constructor
  · rintro ⟨hlegal, hfits⟩
    exact ⟨hlegal setting (by simp), hfits [] setting [] rfl⟩
  · rintro ⟨hlegal, hfits⟩
    refine ⟨fun setting' hmem => ?_, fun before setting' after heq => ?_⟩
    · rw [List.mem_singleton.1 hmem]
      exact hlegal
    · obtain ⟨rfl, rfl, rfl⟩ : before = [] ∧ setting = setting' ∧ after = [] := by
        cases before <;> simp_all
      exact hfits

/-- The settings of a frame are accepted one after the other. -/
theorem acceptable_cons {setting : Nat × Nat} {settings : List (Nat × Nat)} {streams : List Stream}
    {old : Nat} : Acceptable (setting :: settings) streams old ↔ Acceptable [setting] streams old ∧
      Acceptable settings (streams.map (Stream.shiftWindow (windowShift [setting] old)))
        (settingOf .initialWindowSize [setting] old) := by
  have hshift : ∀ before s, (Stream.shiftWindow (windowShift [setting] old) s).outflow.window +
      windowShift before (settingOf .initialWindowSize [setting] old) =
        s.outflow.window + windowShift (setting :: before) old := by
    intro before s
    rw [windowShift_cons setting before, ← Int.add_assoc]
    rfl
  constructor
  · rintro ⟨hlegal, hfits⟩
    refine ⟨acceptable_singleton.2 ⟨hlegal _ (by simp), hfits [] setting settings rfl⟩,
      fun setting' hmem => hlegal setting' (List.mem_cons_of_mem _ hmem), ?_⟩
    rintro before setting' after rfl hparameter s hs
    obtain ⟨u, hu, rfl⟩ := List.mem_map.1 hs
    rw [hshift]
    exact hfits (setting :: before) setting' after rfl hparameter u hu
  · rintro ⟨hfirst, hrest⟩
    obtain ⟨hlegal, hfits⟩ := acceptable_singleton.1 hfirst
    refine ⟨fun setting' hmem => ?_, fun before setting' after heq hparameter s hs => ?_⟩
    · rcases List.mem_cons.1 hmem with rfl | hmem
      · exact hlegal
      · exact hrest.legal setting' hmem
    · cases before with
      | nil =>
        obtain ⟨rfl, rfl⟩ := List.cons.inj heq
        exact hfits hparameter s hs
      | cons first before =>
        obtain ⟨rfl, rfl⟩ := List.cons.inj heq
        have hrest' := hrest.fits before setting' after rfl hparameter _
          (List.mem_map_of_mem hs)
        rwa [hshift] at hrest'

/-- One setting is accepted exactly if it is acceptable. -/
theorem applyPeerSetting_eq_none_iff (p : ProtocolState) (setting : Nat × Nat) :
    (p.applyPeerSetting (Http2SettingParameter.ofNat setting.1) setting.2).2 = none ↔
      Acceptable [setting] p.streams.entries p.initialWindowSize := by
  rw [acceptable_singleton, LegalSetting]
  cases hparameter : Http2SettingParameter.ofNat setting.1 with
  | initialWindowSize =>
    have hkeys : ∀ s ∈ p.streams.entries, s.streamId ∈ p.streams.keys :=
      fun s hs => KeyedTable.key_mem_keys hs
    have hloop := adjustWindows_snd
      (wrapInt32 (wrapInt32 setting.2 - wrapInt32 p.initialWindowSize)) p.streams.keys
      { p with initialWindowSize := setting.2 } p.streams.nodup_keys
    have hshift : windowShift [setting] p.initialWindowSize =
        wrapInt32 (wrapInt32 setting.2 - wrapInt32 p.initialWindowSize) := by
      simp [windowShift, hparameter]
    simp only [applyPeerSetting, hshift, true_imp_iff]
    split
    · rename_i hgt
      exact iff_of_false (by simp) fun h => absurd h.1 (not_le.2 hgt)
    · rename_i hle
      cases hok : (adjustWindows (wrapInt32 (wrapInt32 setting.2 - wrapInt32 p.initialWindowSize))
          p.streams.keys { p with initialWindowSize := setting.2 }).2 with
      | true =>
        exact iff_of_true (by simp) ⟨not_lt.1 hle, fun s hs => hloop.1 hok s hs (hkeys s hs)⟩
      | false =>
        refine iff_of_false (by simp) fun h => ?_
        rw [hloop.2 fun s hs _ => h.2 s hs] at hok
        cases hok
  | enablePush =>
    simp only [applyPeerSetting]
    split <;> simp_all
  | maxFrameSize =>
    simp only [applyPeerSetting]
    split <;> simp <;> omega
  | _ => simp [applyPeerSetting]

/-- What an accepted setting does to the streams. -/
theorem entries_applyPeerSetting {setting : Nat × Nat}
    (h : p.applyPeerSetting (Http2SettingParameter.ofNat setting.1) setting.2 = (p', none)) :
    p'.streams.entries = p.streams.entries.map
      (Stream.shiftWindow (windowShift [setting] p.initialWindowSize)) := by
  have hstep := settingStep_of_eq h
  generalize hparameter : Http2SettingParameter.ofNat setting.1 = parameter at hstep
  have hshift : windowShift [setting] p.initialWindowSize =
      if parameter = .initialWindowSize then
        wrapInt32 (wrapInt32 setting.2 - wrapInt32 p.initialWindowSize) else 0 := by
    simp [windowShift, hparameter]
  rw [hshift]
  cases hstep with
  | initialWindowSize hle hsame hall =>
    rw [if_pos rfl]
    exact KeyedTable.entries_eq_map hsame.1 hall
  | maxConcurrentStreams | headerTableSize | enablePush | maxFrameSize | maxHeaderListSize | other =>
    -- the others leave the streams alone
    rw [if_neg (by simp), shiftWindow_zero, List.map_id]

/-- A list of settings is accepted exactly if it is acceptable. -/
theorem applyPeerSettings_eq_none_iff (settings : List (Nat × Nat)) : ∀ p : ProtocolState,
    (applyPeerSettings settings p).2 = none ↔
      Acceptable settings p.streams.entries p.initialWindowSize := by
  induction settings with
  | nil => exact fun p => iff_of_true rfl ⟨by simp, by simp⟩
  | cons setting settings ih =>
    intro p
    have hone := applyPeerSetting_eq_none_iff p setting
    rw [acceptable_cons, ← hone, applyPeerSettings]
    cases heq : p.applyPeerSetting (Http2SettingParameter.ofNat setting.1) setting.2 with
    | mk p₁ code =>
      cases code with
      | some code => simp
      | none =>
        rw [← entries_applyPeerSetting heq, ← (inForce_applyPeerSetting heq).initialWindowSize]
        simpa using ih p₁

/-- What an accepted list of settings does to the streams. -/
theorem entries_applyPeerSettings (settings : List (Nat × Nat)) : ∀ {p p' : ProtocolState},
    applyPeerSettings settings p = (p', none) → p'.streams.entries =
      p.streams.entries.map (Stream.shiftWindow (windowShift settings p.initialWindowSize)) := by
  induction settings with
  | nil =>
    intro p p' h
    cases h
    rw [windowShift, shiftWindow_zero, List.map_id]
  | cons setting settings ih =>
    intro p p' h
    rw [applyPeerSettings] at h
    split at h
    · cases h
    · rename_i p₁ heq
      rw [ih h, entries_applyPeerSetting heq, (inForce_applyPeerSetting heq).initialWindowSize,
        shiftWindow_shiftWindow, ← windowShift_cons]

end Settings

/-! ## The loop -/

/-- No call of `emitPendingRequestBody` in the loop over the streams erases an entry. -/
def iteratesSafely : List StreamId → ProtocolState → Bool
  | [], _ => true
  | id :: ids, p =>
    match p.streams.find? id with
    | none => iteratesSafely ids p
    | some stream =>
      match p.emitPendingRequestBody stream with
      | .ok (p', _) => decide (p'.streams.keys = p.streams.keys) && iteratesSafely ids p'
      | .error _ => true

/-- What a stream takes of the connection window if its send window is `delta` more than now and the
connection window is large enough. -/
def demand (delta : Int) (s : Stream) : Nat :=
  if s.localEndStreamSent then 0
  else min s.remainingBodySize (s.outflow.window + delta).toNat

/-- The response of the stream is complete, the rest of its body fits into its send window, moved by
`delta`, and into what the streams `before` it leave of the connection window `conn`. -/
structure Finishes (delta conn : Int) (before : List Stream) (s : Stream) : Prop where
  remote : s.remoteEndStreamReceived = true
  unsent : s.localEndStreamSent = false
  rest : 0 < s.remainingBodySize
  window : s.remainingBodySize ≤ s.outflow.window + delta
  connection : ((before.map (demand delta)).sum + s.remainingBodySize : Nat) ≤ conn

section Loop

variable {p p' : ProtocolState} {s : Stream} {r : ProtocolStepResult}

/-- A step of the loop that leaves the entry in the table takes what the stream demands, or all that
is left of the connection window. -/
structure Passes (p : ProtocolState) (s : Stream) (p' : ProtocolState) : Prop where
  keys : p'.streams.keys = p.streams.keys
  others : ∀ k, k ≠ s.streamId → p'.streams.find? k = p.streams.find? k
  maxFrameSize : p'.maxFrameSize = p.maxFrameSize
  connection : p'.connectionOutFlow.window = p.connectionOutFlow.window -
    (min (demand 0 s) p.connectionOutFlow.window.toNat : Nat)

/-- A stream of which a call erases the entry finishes, and no other. -/
theorem bodyStep_cases (hmax : 0 < p.maxFrameSize) (hopen : s.isClosed = false)
    (hfind : p.streams.find? s.streamId = some s) (h : BodyStep p s p' r) :
    (Finishes 0 p.connectionOutFlow.window [] s ∧ p'.streams.keys ≠ p.streams.keys) ∨
      (¬ Finishes 0 p.connectionOutFlow.window [] s ∧ Passes p s p') := by
  have hmem := KeyedTable.mem_keys_of_find? hfind
  -- as much is sent as the windows and the body allow
  have hamount : ∀ {n frames}, BodySent p.maxFrameSize s p.connectionOutFlow n frames →
      s.localEndStreamSent = false →
        n = min (demand 0 s) p.connectionOutFlow.window.toNat := by
    intro n frames hsent hlocal
    have hn := hsent.amount hmax
    rw [demand, hlocal, if_neg Bool.false_ne_true]
    omega
  have hput : ∀ {u : Stream} {q : ProtocolState}, u.streamId = s.streamId →
      q.streams = p.streams → (q.putStream u).streams.keys = p.streams.keys ∧
        ∀ k, k ≠ s.streamId → (q.putStream u).streams.find? k = p.streams.find? k := by
    intro u q hid hq
    refine ⟨(keys_putStream q u).trans (congrArg KeyedTable.keys hq), fun k hk => ?_⟩
    rw [find?_putStream (by rw [hid, hq]; exact hmem), if_neg (by rw [hid]; exact hk), hq]
  cases h with
  | idle h =>
    have hlocal : s.localEndStreamSent = true := h.resolve_right (by simp [hopen])
    refine Or.inr ⟨fun h => ?_, rfl, fun _ _ => rfl, rfl, ?_⟩
    · rw [h.unsent] at hlocal
      cases hlocal
    · simp [demand, hlocal]
  | partly n frames hlocal hsent hend =>
    obtain ⟨hkeys, hothers⟩ := hput (u := s.advanceBody n)
      (q := { p with connectionOutFlow := ⟨p.connectionOutFlow.window - n⟩ }) rfl rfl
    refine Or.inr ⟨fun h => ?_, hkeys, hothers, rfl, ?_⟩
    · have hn := hsent.amount hmax
      have hrest := h.rest
      have hwindow := h.window
      have hconn := h.connection
      have hall : 0 < n ∧ n = s.remainingBodySize := by
        simp only [List.map_nil, List.sum_nil] at hconn
        omega
      have hsome : (s.advanceBody n).localEndStreamSent =
          (s.localEndStreamSent || decide (0 < n ∧ n = s.remainingBodySize)) := rfl
      -- then the last byte has been sent, and the stream does not stay
      rw [hsome, decide_eq_true hall, Bool.or_true] at hend
      cases hend
    · rw [← hamount hsent hlocal]
      rfl
  | wholly n frames hlocal hsent hend hremote =>
    obtain ⟨hkeys, hothers⟩ := hput (u := { s.advanceBody n with streamState := .halfClosedLocal })
      (q := { p with connectionOutFlow := ⟨p.connectionOutFlow.window - n⟩ }) rfl rfl
    refine Or.inr ⟨fun h => ?_, hkeys, hothers, rfl, ?_⟩
    · have hremote' := h.remote
      rw [hremote] at hremote'
      cases hremote'
    · rw [← hamount hsent hlocal]
      rfl
  | finished n frames hlocal hsent hend hremote =>
    refine Or.inl ⟨?_, fun heq => ?_⟩
    · have hn := hsent.amount hmax
      have hall : 0 < n ∧ n = s.remainingBodySize := by
        simpa [Stream.advanceBody, hlocal] using hend
      refine ⟨hremote, hlocal, by omega, by omega, ?_⟩
      simp only [List.map_nil, List.sum_nil]
      omega
    · have hgone : s.streamId ∈ (p.streams.erase s.streamId).keys := by
        rw [show (p.streams.erase s.streamId).keys = p.streams.keys from heq]
        exact hmem
      simp at hgone

/-- A later stream finishes after a step exactly if it does when the demand of the stream of the step
is counted in. -/
theorem Passes.finishes_iff {u : Stream} {before : List Stream} (h : Passes p s p') :
    Finishes 0 p'.connectionOutFlow.window before u ↔
      Finishes 0 p.connectionOutFlow.window (s :: before) u := by
  have hsum : ((s :: before).map (demand 0)).sum = demand 0 s + (before.map (demand 0)).sum := rfl
  have hconn := h.connection
  constructor
  · rintro ⟨hremote, hunsent, hrest, hwindow, hconnection⟩
    refine ⟨hremote, hunsent, hrest, hwindow, ?_⟩
    rw [hsum]
    omega
  · rintro ⟨hremote, hunsent, hrest, hwindow, hconnection⟩
    refine ⟨hremote, hunsent, hrest, hwindow, ?_⟩
    rw [hsum] at hconnection
    omega

/-- The loop over the rest of the table erases no entry if and only if none of the streams that it
visits finishes. -/
theorem iteratesSafely_iff (streams : List Stream) : ∀ p : ProtocolState,
    0 < p.maxFrameSize → (streams.map Stream.streamId).Nodup →
    (∀ s ∈ streams, p.streams.find? s.streamId = some s ∧ s.isClosed = false) →
    (iteratesSafely (streams.map Stream.streamId) p = true ↔ ∀ before s after,
      streams = before ++ s :: after → ¬ Finishes 0 p.connectionOutFlow.window before s) := by
  induction streams with
  | nil => exact fun p _ _ _ => iff_of_true rfl fun before s after h => by simp at h
  | cons s streams ih =>
    intro p hmax hnd hstreams
    rw [List.map_cons, List.nodup_cons] at hnd
    obtain ⟨hnot, hrest⟩ := hnd
    obtain ⟨hfind, hopen⟩ := hstreams s (by simp)
    obtain ⟨p', r, heq, hstep⟩ := p.emitPendingRequestBody_eq s
    have hloop : iteratesSafely ((s :: streams).map Stream.streamId) p = true ↔
        p'.streams.keys = p.streams.keys ∧
          iteratesSafely (streams.map Stream.streamId) p' = true := by
      rw [List.map_cons, iteratesSafely, hfind]
      dsimp only
      rw [heq, Bool.and_eq_true, decide_eq_true_eq]
    rw [hloop]
    rcases bodyStep_cases hmax hopen hfind hstep with ⟨hfinishes, hkeys⟩ | ⟨hnotfinishes, hpasses⟩
    · exact iff_of_false (fun h => hkeys h.1) fun h => h [] s streams rfl hfinishes
    · have hnext := ih p' (by rw [hpasses.maxFrameSize]; exact hmax) hrest fun u hu => by
        have hne : u.streamId ≠ s.streamId := fun h => hnot (h ▸ List.mem_map_of_mem hu)
        rw [hpasses.others _ hne]
        exact hstreams u (List.mem_cons_of_mem _ hu)
      rw [hnext]
      refine ⟨fun h before u after heq' => ?_, fun h => ⟨hpasses.keys, fun before u after heq' => ?_⟩⟩
      · cases before with
        | nil =>
          obtain ⟨rfl, -⟩ := List.cons.inj heq'
          exact hnotfinishes
        | cons first before =>
          obtain ⟨rfl, htail⟩ := List.cons.inj heq'
          rw [← hpasses.finishes_iff]
          exact h.2 before u after htail
      · rw [hpasses.finishes_iff]
        exact h (s :: before) u after (by rw [heq']; rfl)

end Loop

/-! ## The frame -/

/-- The frame has the form of a SETTINGS frame with parameters. -/
def CarriesSettings (f : RawFrame) : Prop :=
  f.header.streamId = 0 ∧ f.header.payloadLength % 6 = 0 ∧ f.header.hasAckFlag = false

/-- Where the loop over the streams starts, when `processSettingFrame` gets there. -/
def StartsLoop (p : ProtocolState) (f : RawFrame) (p₁ : ProtocolState) : Prop :=
  CarriesSettings f ∧ applyPeerSettings f.settings { p with gotPeerSettings := true } = (p₁, none)

/-- Where the loop starts, the rest of `processSettingFrame` is the loop and the acknowledgement. -/
theorem processSettingFrame_loop {p p₁ : ProtocolState} {f : RawFrame} (h : p.StartsLoop f p₁) :
    p.processSettingFrame f = (do
      let (p', result) ← emitPendingBodies p₁.streams.keys p₁
      return (p', result.merge
        { outbound := [.settings settingsAck], events := [.settingsReceived] })) := by
  obtain ⟨⟨hid, hlen, hack⟩, happly⟩ := h
  have hread : applyPeerSettings (settingsOf (f.header.payloadLength / 6) f.data)
      { p with gotPeerSettings := true } = (p₁, none) := happly
  rw [processSettingFrame, if_neg (not_not.2 hid), if_neg (not_not.2 hlen), if_neg (by simp [hack])]
  simp only [SettingFrame.ofRaw_eq hlen, ok_bind, hread]

section Shift

variable {delta conn : Int} {s : Stream} {before : List Stream}

theorem demand_shiftWindow : demand 0 (s.shiftWindow delta) = demand delta s := by
  unfold demand
  rw [Int.add_zero]
  rfl

/-- The streams with their windows moved, and the streams before the frame. -/
theorem finishes_shiftWindow :
    Finishes 0 conn (before.map (Stream.shiftWindow delta)) (s.shiftWindow delta) ↔
      Finishes delta conn before s := by
  have hsum : (before.map (Stream.shiftWindow delta)).map (demand 0) =
      before.map (demand delta) := by
    rw [List.map_map]
    exact List.map_congr_left fun u _ => demand_shiftWindow
  constructor
  · rintro ⟨hremote, hunsent, hrest, hwindow, hconnection⟩
    rw [Int.add_zero] at hwindow
    rw [hsum] at hconnection
    exact ⟨hremote, hunsent, hrest, hwindow, hconnection⟩
  · rintro ⟨hremote, hunsent, hrest, hwindow, hconnection⟩
    refine ⟨hremote, hunsent, hrest, ?_, ?_⟩
    · rw [Int.add_zero]
      exact hwindow
    · rw [hsum]
      exact hconnection

end Shift

/-- The streams when the loop starts. -/
theorem StartsLoop.entries {p p₁ : ProtocolState} {f : RawFrame} (h : p.StartsLoop f p₁) :
    p₁.streams.entries = p.streams.entries.map
      (Stream.shiftWindow (windowShift f.settings p.initialWindowSize)) :=
  (entries_applyPeerSettings f.settings h.2 :)

/-- The loop that an accepted frame starts, in terms of the state before the frame. -/
theorem StartsLoop.iteratesSafely_iff {p p₁ : ProtocolState} {f : RawFrame}
    (h : p.StartsLoop f p₁) (hopen : AllStreams (fun s => s.isClosed = false) p.streams)
    (hmax : Http2SettingInfo.minimumMaxFrameSize ≤ p.maxFrameSize) :
    iteratesSafely p₁.streams.keys p₁ = true ↔ ∀ before s after,
      p.streams.entries = before ++ s :: after →
        ¬ Finishes (windowShift f.settings p.initialWindowSize) p.connectionOutFlow.window
          before s := by
  have hentries := h.entries
  have hconn : p₁.connectionOutFlow = p.connectionOutFlow := by
    rw [(tuned_of_settings h.2).eq]
  have hmax₁ : 0 < p₁.maxFrameSize :=
    lt_of_lt_of_le (by decide) ((inForce_of_settings f.settings h.2).minimum hmax)
  have hloop := ProtocolState.iteratesSafely_iff p₁.streams.entries p₁ hmax₁
    p₁.streams.nodup_keys fun s hs => by
      refine ⟨KeyedTable.mem_iff_find?.1 hs, ?_⟩
      rw [hentries] at hs
      obtain ⟨u, hu, rfl⟩ := List.mem_map.1 hs
      exact hopen u hu
  rw [KeyedTable.keys, hloop, hentries, hconn]
  constructor
  · intro hnone before s after heq hfinishes
    refine hnone _ _ (after.map (Stream.shiftWindow (windowShift f.settings p.initialWindowSize)))
      ?_ (finishes_shiftWindow.2 hfinishes)
    rw [heq, List.map_append, List.map_cons]
  · intro hnone before s after heq hfinishes
    obtain ⟨before', rest, heq', rfl, htail⟩ := List.map_eq_append_iff.1 heq
    obtain ⟨s', after', rfl, rfl, rfl⟩ := List.map_eq_cons_iff.1 htail
    exact hnone before' s' after' heq' (finishes_shiftWindow.1 hfinishes)

/-- For every reached state and every frame: while `processSettingFrame` runs its loop over the
streams, no call of `emitPendingRequestBody` erases an entry, if and only if the frame is refused or
no stream finishes. The checks of `receiveFrame` come before all this: a frame that they refuse does
not get to the loop. -/
theorem settings_loop_safe_iff {config : ClientConfig} {tr : List OperationEntry}
    {p : ProtocolState} (h : Machine.Runs operate (ofConfig config) tr p) (f : RawFrame) :
    (∀ p₁, p.StartsLoop f p₁ → iteratesSafely p₁.streams.keys p₁ = true) ↔
      (CarriesSettings f → Acceptable f.settings p.streams.entries p.initialWindowSize →
        ∀ before s after, p.streams.entries = before ++ s :: after →
          ¬ Finishes (windowShift f.settings p.initialWindowSize) p.connectionOutFlow.window
            before s) := by
  have hp := tableInvariant_of_runs h
  have hempty : p.closed = true → p.streams.entries = [] := fun hclosed =>
    List.map_eq_nil_iff.1 (hp.tidy.closed hclosed)
  have hstart : ∀ p₁, p.StartsLoop f p₁ → (iteratesSafely p₁.streams.keys p₁ = true ↔
      ∀ before s after, p.streams.entries = before ++ s :: after →
        ¬ Finishes (windowShift f.settings p.initialWindowSize) p.connectionOutFlow.window
          before s) := by
    intro p₁ hloop
    rcases minimum_le_maxFrameSize h with hclosed | hmax
    · have hentries : p₁.streams.entries = [] := by
        rw [hloop.entries, hempty hclosed, List.map_nil]
      refine iff_of_true ?_ fun before s after heq => ?_
      · rw [KeyedTable.keys, hentries]
        rfl
      · rw [hempty hclosed] at heq
        simp at heq
    · exact hloop.iteratesSafely_iff (fun s hs => (hp.streams s hs).not_closed) hmax
  have haccepted := applyPeerSettings_eq_none_iff f.settings { p with gotPeerSettings := true }
  constructor
  · intro hsafe hcarries hacceptable
    cases happly : applyPeerSettings f.settings { p with gotPeerSettings := true } with
    | mk p₁ code =>
      have hnone : code = none := by
        rw [happly] at haccepted
        exact haccepted.2 hacceptable
      subst hnone
      exact (hstart p₁ ⟨hcarries, happly⟩).1 (hsafe p₁ ⟨hcarries, happly⟩)
  · intro hnone p₁ hloop
    refine (hstart p₁ hloop).2 (hnone hloop.1 (haccepted.1 ?_))
    rw [hloop.2]

/-- A request whose body is held back by the peer's window, and its complete response. -/
def answeredUpload : List Operation :=
  [.act .start, .act (.receiveFrame (settingsFrame 4 0)),
    .act (.submitRequest postRequest (.id _)), .act (.receiveFrame (okResponseFrame 5))]

/-- The peer opens the window for half of the body. -/
theorem settings_loop_safe_of_small_window :
    ∃ tr p, Machine.Runs operate (ofConfig {}) tr p ∧
      p.streams.entries.map Stream.remainingBodySize = [10] ∧
      ((∀ p₁, p.StartsLoop (settingsFrame 4 5) p₁ →
          iteratesSafely p₁.streams.keys p₁ = true) ↔
        (CarriesSettings (settingsFrame 4 5) →
          Acceptable (settingsFrame 4 5).settings p.streams.entries p.initialWindowSize →
          ∀ before s after, p.streams.entries = before ++ s :: after →
            ¬ Finishes (windowShift (settingsFrame 4 5).settings p.initialWindowSize)
              p.connectionOutFlow.window before s)) := by
  have hrun : (Machine.run operate (ofConfig {}) answeredUpload).map
      (fun x => x.1.streams.entries.map Stream.remainingBodySize) = .ok [10] := by decide +kernel
  obtain ⟨p, tr, hr, -, hresult⟩ := Machine.exists_runs_of_map hrun
  exact ⟨tr, p, hr, hresult, settings_loop_safe_iff hr (settingsFrame 4 5)⟩

/-- The peer opens the window for the whole body, and the loop erases the entry that it stands on. -/
theorem settings_loop_erases :
    ∃ tr p p₁, Machine.Runs operate (ofConfig {}) tr p ∧ p.StartsLoop (settingsFrame 4 100) p₁ ∧
      iteratesSafely p₁.streams.keys p₁ = false := by
  have hrun : (Machine.run operate (ofConfig {}) answeredUpload).map
      (fun x => match applyPeerSettings (settingsFrame 4 100).settings
          { x.1 with gotPeerSettings := true } with
        | (p₁, code) => (code, iteratesSafely p₁.streams.keys p₁)) = .ok (none, false) := by
    decide +kernel
  obtain ⟨p, tr, hr, -, hresult⟩ := Machine.exists_runs_of_map hrun
  cases happly : applyPeerSettings (settingsFrame 4 100).settings
      { p with gotPeerSettings := true } with
  | mk p₁ code =>
    simp only [happly, Prod.mk.injEq] at hresult
    obtain ⟨rfl, herases⟩ := hresult
    exact ⟨tr, p, p₁, hr, ⟨⟨rfl, rfl, rfl⟩, happly⟩, herases⟩

end ProtocolState

end Chttp2
