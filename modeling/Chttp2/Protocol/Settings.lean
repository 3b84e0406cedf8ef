import Chttp2.Protocol.Failure

/-!
# What the peer's settings do

`adjustWindows` shifts the send windows of the streams and touches nothing else
(`adjustWindows_eq`). `Tuned` describes the state after any prefix of a SETTINGS frame; it holds also
when a setting is refused (`tuned_applyPeerSettings`).
-/

set_option autoImplicit false

namespace Chttp2

/-- The stream with another send window. -/
def Stream.withOutflow (s : Stream) (outflow : OutFlow) : Stream := { s with outflow }

/-- The stream with its send window moved by `delta`. -/
def Stream.shiftWindow (delta : Int) (s : Stream) : Stream :=
  s.withOutflow ⟨s.outflow.window + delta⟩

namespace ProtocolState

/-- The streams of `t'` are those of `t` in the same order, each with some send window. -/
def SameButWindows (t t' : StreamTable) : Prop :=
  t'.keys = t.keys ∧
    ∀ k, ∃ outflow, t'.find? k = (t.find? k).map fun s => s.withOutflow outflow

theorem SameButWindows.refl (t : StreamTable) : SameButWindows t t := by
  refine ⟨rfl, fun k => ?_⟩
  cases h : t.find? k with
  | none => exact ⟨{}, rfl⟩
  | some s => exact ⟨s.outflow, rfl⟩

theorem SameButWindows.trans {t t' t'' : StreamTable} (h : SameButWindows t t')
    (h' : SameButWindows t' t'') : SameButWindows t t'' := by
  refine ⟨h'.1.trans h.1, fun k => ?_⟩
  obtain ⟨a, ha⟩ := h.2 k
  obtain ⟨b, hb⟩ := h'.2 k
  refine ⟨b, ?_⟩
  rw [hb, ha, Option.map_map]
  rfl

/-- Writing a send window back. -/
theorem sameButWindows_set {t : StreamTable} {s : Stream} (h : t.find? s.streamId = some s)
    (outflow : OutFlow) : SameButWindows t (t.set (s.withOutflow outflow)) := by
  refine ⟨KeyedTable.keys_set t _, fun k => ?_⟩
  have hkey : (s.withOutflow outflow).streamId ∈ t.keys := KeyedTable.mem_keys_of_find? h
  rw [KeyedTable.find?_set hkey]
  by_cases hk : k = s.streamId
  · subst hk
    refine ⟨outflow, ?_⟩
    rw [h]
    exact if_pos rfl
  · rw [if_neg (show k ≠ (s.withOutflow outflow).streamId from hk)]
    exact (SameButWindows.refl t).2 k

/-- The loop over the streams: it shifts every window of the list, or it stops early. -/
theorem adjustWindows_eq (delta : Int) (ids : List StreamId) :
    ∀ p : ProtocolState, ids.Nodup →
      ∃ t ok, adjustWindows delta ids p = ({ p with streams := t }, ok) ∧
        SameButWindows p.streams t ∧
        (ok = true → ∀ k, t.find? k =
          if k ∈ ids then (p.streams.find? k).map (Stream.shiftWindow delta)
          else p.streams.find? k) := by
  induction ids with
  | nil =>
    intro p _
    exact ⟨p.streams, true, rfl, .refl _, fun _ k => by simp⟩
  | cons id ids ih =>
    intro p hnd
    obtain ⟨hnot, hids⟩ := List.nodup_cons.1 hnd
    simp only [adjustWindows]
    cases hfind : p.streams.find? id with
    | none =>
      obtain ⟨t, ok, heq, hsame, hok⟩ := ih p hids
      refine ⟨t, ok, heq, hsame, fun h k => ?_⟩
      rw [hok h k]
      by_cases hk : k = id
      · subst hk
        simp [hnot, hfind]
      · simp [hk]
    | some s =>
      have hid : s.streamId = id := KeyedTable.key_of_find? hfind
      subst hid
      dsimp only
      cases hadd : s.outflow.add delta with
      -- the window would overflow: the loop stops here
      | none => exact ⟨p.streams, false, rfl, .refl _, fun h => by cases h⟩
      | some outflow =>
        obtain ⟨rfl, -⟩ := OutFlow.add_eq_some.1 hadd
        obtain ⟨t, ok, heq, hsame, hok⟩ := ih (p.putStream (s.shiftWindow delta)) hids
        have hset : SameButWindows p.streams (p.putStream (s.shiftWindow delta)).streams :=
          sameButWindows_set hfind _
        refine ⟨t, ok, heq, hset.trans hsame, fun h k => ?_⟩
        rw [hok h k, find?_putStream (s := s.shiftWindow delta)
          (KeyedTable.mem_keys_of_find? hfind)]
        by_cases hk : k = s.streamId
        · subst hk
          rw [if_neg hnot, if_pos (by rfl), if_pos (by simp), hfind]
          rfl
        · have hne : k ≠ (s.shiftWindow delta).streamId := hk
          simp [hk, hne]

/-! ## All settings -/

/-- The states that a prefix of a SETTINGS frame leads to. -/
structure Tuned (p p' : ProtocolState) : Prop where
  eq : p' = { p with
    maxConcurrentStreams := p'.maxConcurrentStreams
    encodeHeaderTableSize := p'.encodeHeaderTableSize
    maxFrameSize := p'.maxFrameSize
    initialWindowSize := p'.initialWindowSize
    maxHeaderListSize := p'.maxHeaderListSize
    enablePush := p'.enablePush
    hpack := p'.hpack
    streams := p'.streams }
  streams : SameButWindows p.streams p'.streams
  decodeTable : p'.hpack.decodeTable = p.hpack.decodeTable
  decodeTableLimit : p'.hpack.decodeTableLimit = p.hpack.decodeTableLimit

theorem Tuned.refl (p : ProtocolState) : Tuned p p := ⟨rfl, .refl _, rfl, rfl⟩

theorem Tuned.trans {p p' p'' : ProtocolState} (h : Tuned p p') (h' : Tuned p' p'') :
    Tuned p p'' := by
  refine ⟨?_, h.streams.trans h'.streams, h'.decodeTable.trans h.decodeTable,
    h'.decodeTableLimit.trans h.decodeTableLimit⟩
  rw [h'.eq, h.eq]

/-- What one setting does: it changes its member, and the initial window size the windows besides,
or it is refused. -/
inductive SettingStep (p : ProtocolState) (value : Nat) :
    Http2SettingParameter → ProtocolState → Option ErrorCode → Prop
  | maxConcurrentStreams :
      SettingStep p value .maxConcurrentStreams { p with maxConcurrentStreams := value } none
  | headerTableSize :
      SettingStep p value .headerTableSize
        { p with encodeHeaderTableSize := value, hpack := p.hpack.setEncodeTableSize value } none
  | enablePush : SettingStep p value .enablePush { p with enablePush := false } none
  | maxFrameSize (hmin : Http2SettingInfo.minimumMaxFrameSize ≤ value) :
      SettingStep p value .maxFrameSize { p with maxFrameSize := value } none
  | initialWindowSize {t : StreamTable} (hle : value ≤ Http2SettingInfo.maximumWindowSize)
      (hsame : SameButWindows p.streams t)
      (hshift : ∀ k ∈ p.streams.keys, t.find? k = (p.streams.find? k).map
        (Stream.shiftWindow (wrapInt32 (wrapInt32 value - wrapInt32 p.initialWindowSize)))) :
      SettingStep p value .initialWindowSize { p with initialWindowSize := value, streams := t } none
  | maxHeaderListSize :
      SettingStep p value .maxHeaderListSize { p with maxHeaderListSize := value } none
  | other (code : Nat) : SettingStep p value (.other code) p none
  | refused (parameter : Http2SettingParameter) (code : ErrorCode) :
      SettingStep p value parameter p (some code)
  | windowOverflow {t : StreamTable} (hle : value ≤ Http2SettingInfo.maximumWindowSize)
      (hsame : SameButWindows p.streams t) :
      SettingStep p value .initialWindowSize { p with initialWindowSize := value, streams := t }
        (some .flowControlError)

theorem settingStep_applyPeerSetting (p : ProtocolState) (parameter : Http2SettingParameter)
    (value : Nat) : SettingStep p value parameter (p.applyPeerSetting parameter value).1
      (p.applyPeerSetting parameter value).2 := by
  cases parameter with
  | maxConcurrentStreams => exact .maxConcurrentStreams
  | headerTableSize => exact .headerTableSize
  | enablePush =>
    simp only [applyPeerSetting]
    split
    · exact .refused _ _
    · exact .enablePush
  | maxFrameSize =>
    simp only [applyPeerSetting]
    split
    · exact .refused _ _
    · rename_i hrange
      exact .maxFrameSize (not_lt.1 fun hlt => hrange (Or.inl hlt))
  | initialWindowSize =>
    simp only [applyPeerSetting]
    split
    · exact .refused _ _
    · rename_i hle
      obtain ⟨t, ok, heq, hsame, hok⟩ := adjustWindows_eq
        (wrapInt32 (wrapInt32 value - wrapInt32 p.initialWindowSize)) p.streams.keys
        { p with initialWindowSize := value } p.streams.nodup_keys
      simp only [heq]
      cases ok with
      | true =>
        exact .initialWindowSize (not_lt.1 hle) hsame fun k hk => (hok rfl k).trans (if_pos hk)
      | false => exact .windowOverflow (not_lt.1 hle) hsame
  | maxHeaderListSize => exact .maxHeaderListSize
  | other code => exact .other code

theorem settingStep_of_eq {p p₁ : ProtocolState} {parameter : Http2SettingParameter} {value : Nat}
    {code : Option ErrorCode} (h : p.applyPeerSetting parameter value = (p₁, code)) :
    SettingStep p value parameter p₁ code := by
  have hstep := p.settingStep_applyPeerSetting parameter value
  rwa [h] at hstep

theorem SettingStep.tuned {p p₁ : ProtocolState} {parameter : Http2SettingParameter} {value : Nat}
    {code : Option ErrorCode} (h : SettingStep p value parameter p₁ code) : Tuned p p₁ := by
  cases h with
  | initialWindowSize _ hsame => exact ⟨rfl, hsame, rfl, rfl⟩
  | windowOverflow _ hsame => exact ⟨rfl, hsame, rfl, rfl⟩
  | other => exact .refl p
  | refused => exact .refl p
  | _ => exact ⟨rfl, .refl _, rfl, rfl⟩

theorem tuned_applyPeerSettings (settings : List (Nat × Nat)) :
    ∀ p : ProtocolState, Tuned p (applyPeerSettings settings p).1 := by
  induction settings with
  | nil => exact fun p => .refl p
  | cons setting settings ih =>
    intro p
    obtain ⟨id, value⟩ := setting
    simp only [applyPeerSettings]
    split
    · rename_i p₁ code heq
      exact (settingStep_of_eq heq).tuned
    · rename_i p₁ heq
      exact (settingStep_of_eq heq).tuned.trans (ih p₁)

/-- The state after an accepted SETTINGS frame. -/
theorem tuned_of_settings {p p₁ : ProtocolState} {settings : List (Nat × Nat)}
    (h : applyPeerSettings settings p = (p₁, none)) : Tuned p p₁ := by
  have htuned := tuned_applyPeerSettings settings p
  rwa [h] at htuned

/-- What no setting of a list takes away, no prefix of it takes away. -/
theorem applyPeerSettings_invariant {I : ProtocolState → Prop}
    (hstep : ∀ {p p₁ value parameter code}, SettingStep p value parameter p₁ code → I p → I p₁)
    (settings : List (Nat × Nat)) : ∀ p : ProtocolState, I p →
      I (applyPeerSettings settings p).1 := by
  induction settings with
  | nil => exact fun _ hp => hp
  | cons setting settings ih =>
    intro p hp
    obtain ⟨id, value⟩ := setting
    simp only [applyPeerSettings]
    split
    · rename_i p₁ code heq
      exact hstep (settingStep_of_eq heq) hp
    · rename_i p₁ heq
      exact ih p₁ (hstep (settingStep_of_eq heq) hp)

/-- The initial window stays within the bound of a setting. -/
theorem initialWindowSize_le_applyPeerSettings (settings : List (Nat × Nat)) (p : ProtocolState)
    (hp : p.initialWindowSize ≤ Http2SettingInfo.maximumWindowSize) :
    (applyPeerSettings settings p).1.initialWindowSize ≤ Http2SettingInfo.maximumWindowSize := by
  refine applyPeerSettings_invariant
    (I := fun p => p.initialWindowSize ≤ Http2SettingInfo.maximumWindowSize) ?_ settings p hp
  intro p p₁ value parameter code h hp
  cases h with
  | initialWindowSize hle => exact hle
  | windowOverflow hle => exact hle
  | _ => exact hp

/-! ## Values in force -/

/-- The value of a parameter after a list of settings. -/
def settingOf (parameter : Http2SettingParameter) (settings : List (Nat × Nat)) (value : Nat) :
    Nat :=
  settings.foldl (fun v setting =>
    if Http2SettingParameter.ofNat setting.1 = parameter then setting.2 else v) value

@[simp] theorem settingOf_nil (parameter : Http2SettingParameter) (value : Nat) :
    settingOf parameter [] value = value := rfl

@[simp] theorem settingOf_append (parameter : Http2SettingParameter) (a b : List (Nat × Nat))
    (value : Nat) :
    settingOf parameter (a ++ b) value = settingOf parameter b (settingOf parameter a value) :=
  List.foldl_append

/-- The state `p₁` has the settings in force after `settings`, and every send window has followed the
change of the initial window, as far as 32-bit numbers can. -/
structure InForce (settings : List (Nat × Nat)) (p p₁ : ProtocolState) : Prop where
  initialWindowSize :
    p₁.initialWindowSize = settingOf .initialWindowSize settings p.initialWindowSize
  maxFrameSize : p₁.maxFrameSize = settingOf .maxFrameSize settings p.maxFrameSize
  minimum : Http2SettingInfo.minimumMaxFrameSize ≤ p.maxFrameSize →
    Http2SettingInfo.minimumMaxFrameSize ≤ p₁.maxFrameSize
  window : ∀ s₁ ∈ p₁.streams.entries, ∃ s ∈ p.streams.entries, ∃ outflow,
    s₁ = s.withOutflow outflow ∧ outflow.window ≤
      s.outflow.window + (wrapInt32 p₁.initialWindowSize - wrapInt32 p.initialWindowSize)

theorem InForce.refl (p : ProtocolState) : InForce [] p p :=
  ⟨rfl, rfl, id, fun s hs => ⟨s, hs, s.outflow, rfl, by omega⟩⟩

theorem InForce.trans {a b : List (Nat × Nat)} {p p₁ p₂ : ProtocolState} (h : InForce a p p₁)
    (h' : InForce b p₁ p₂) : InForce (a ++ b) p p₂ := by
  refine ⟨?_, ?_, fun hm => h'.minimum (h.minimum hm), fun s₂ hs₂ => ?_⟩
  · rw [h'.initialWindowSize, h.initialWindowSize, settingOf_append]
  · rw [h'.maxFrameSize, h.maxFrameSize, settingOf_append]
  · obtain ⟨s₁, hs₁, o₂, rfl, hle₂⟩ := h'.window s₂ hs₂
    obtain ⟨s, hs, o₁, rfl, hle₁⟩ := h.window s₁ hs₁
    refine ⟨s, hs, o₂, rfl, ?_⟩
    have heq : (s.withOutflow o₁).outflow.window = o₁.window := rfl
    omega

/-- A setting that changes no window. -/
theorem InForce.of_streams {p p₁ : ProtocolState} {setting : Nat × Nat}
    (hw : p₁.initialWindowSize = p.initialWindowSize)
    (hparameter : Http2SettingParameter.ofNat setting.1 ≠ .initialWindowSize)
    (hm : p₁.maxFrameSize = settingOf .maxFrameSize [setting] p.maxFrameSize)
    (hmin : Http2SettingInfo.minimumMaxFrameSize ≤ p.maxFrameSize →
      Http2SettingInfo.minimumMaxFrameSize ≤ p₁.maxFrameSize)
    (hstreams : p₁.streams = p.streams) : InForce [setting] p p₁ := by
  refine ⟨?_, hm, hmin, fun s hs => ?_⟩
  · rw [hw, settingOf, List.foldl_cons, List.foldl_nil, if_neg hparameter]
  · rw [hstreams] at hs
    exact ⟨s, hs, s.outflow, rfl, by rw [hw]; omega⟩

/-- The shift of the windows never exceeds the change of the setting. -/
theorem shift_le {value old : Nat} (h : value ≤ Http2SettingInfo.maximumWindowSize) :
    wrapInt32 (wrapInt32 value - wrapInt32 old) ≤ wrapInt32 value - wrapInt32 old := by
  refine wrapInt32_le ?_
  have h1 := (wrapInt32_range old).2
  have h2 : wrapInt32 value = value := by
    refine wrapInt32_of_range ?_ ?_ <;>
      simp only [int32Min, int32Max, Http2SettingInfo.maximumWindowSize] at * <;> omega
  rw [h2]
  simp only [int32Min, int32Max] at *
  omega

theorem inForce_applyPeerSetting {p p₁ : ProtocolState} {setting : Nat × Nat}
    (h : p.applyPeerSetting (Http2SettingParameter.ofNat setting.1) setting.2 = (p₁, none)) :
    InForce [setting] p p₁ := by
  have hset : ∀ parameter value, settingOf parameter [setting] value =
      if Http2SettingParameter.ofNat setting.1 = parameter then setting.2 else value :=
    fun _ _ => rfl
  have hstep := settingStep_of_eq h
  generalize hparameter : Http2SettingParameter.ofNat setting.1 = parameter at hset hstep
  cases hstep with
  | @initialWindowSize t hle hsame hshift =>
    -- the only setting that reaches the streams: every window moves by the difference
    refine ⟨by rw [hset]; rfl, by rw [hset]; rfl, id, fun s₁ hs₁ => ?_⟩
    have hmem : s₁.streamId ∈ p.streams.keys := hsame.1 ▸ KeyedTable.key_mem_keys hs₁
    have hfind : t.find? s₁.streamId = some s₁ := KeyedTable.mem_iff_find?.1 hs₁
    rw [hshift _ hmem, Option.map_eq_some_iff] at hfind
    obtain ⟨s, hs, rfl⟩ := hfind
    refine ⟨s, KeyedTable.mem_of_find? hs, _, rfl, ?_⟩
    have hle' := @shift_le _ p.initialWindowSize hle
    show s.outflow.window + wrapInt32 (wrapInt32 setting.2 - wrapInt32 p.initialWindowSize) ≤
      s.outflow.window + (wrapInt32 setting.2 - wrapInt32 p.initialWindowSize)
    omega
  | maxFrameSize hmin =>
    exact .of_streams rfl (by simp [hparameter]) (by rw [hset]; rfl) (fun _ => hmin) rfl
  | maxConcurrentStreams | headerTableSize | enablePush | maxHeaderListSize | other =>
    exact .of_streams rfl (by simp [hparameter]) (by rw [hset]; rfl) id rfl

/-- An accepted SETTINGS frame is in force. -/
theorem inForce_of_settings (settings : List (Nat × Nat)) :
    ∀ {p p₁ : ProtocolState}, applyPeerSettings settings p = (p₁, none) → InForce settings p p₁ := by
  induction settings with
  | nil =>
    intro p p₁ h
    cases h
    exact .refl p
  | cons setting settings ih =>
    intro p p₁ h
    simp only [applyPeerSettings] at h
    split at h
    · cases h
    · rename_i q heq
      exact (inForce_applyPeerSetting heq).trans (ih h)

end ProtocolState

end Chttp2
