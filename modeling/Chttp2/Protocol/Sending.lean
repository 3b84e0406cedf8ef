import Chttp2.Protocol.Lifetime

/-!
# What a step sends

`grantOn` and `peerSettings` read from an entry what the peer grants to the sender. Every step first
takes over what the peer grants and then drives the bodies of some streams, each of the others being
as it was before (`ActionStep.sends`). All properties of sent DATA are proved from these two parts:
`SendGrant` and `BodySteps`.
-/

set_option autoImplicit false

namespace Chttp2

open ProtocolState

/-! ## What the peer grants -/

/-- The increment of an accepted WINDOW_UPDATE frame on a stream, or on the connection for
stream 0. -/
def grantOn (streamId : StreamId) (e : Entry) : Nat :=
  match e.input with
  | .receiveFrame f =>
    if f.header.type = .windowUpdate ∧ f.header.streamId = streamId ∧
        .windowUpdateReceived streamId f.windowIncrement ∈ e.output.events then f.windowIncrement
    else 0
  | _ => 0

/-- The total of the accepted increments on a stream. -/
def granted (streamId : StreamId) (tr : List Entry) : Nat := Machine.total (grantOn streamId) tr

/-- The settings of an accepted SETTINGS frame. -/
def peerSettings (e : Entry) : List (Nat × Nat) :=
  match e.input with
  | .receiveFrame f =>
    if f.header.type = .settings ∧ f.header.hasAckFlag = false ∧
        .settingsReceived ∈ e.output.events then f.settings
    else []
  | _ => []

/-- All settings that the peer has announced, in order. -/
def peerSettingsOf (tr : List Entry) : List (Nat × Nat) := tr.flatMap peerSettings

@[simp] theorem granted_nil (id : StreamId) : granted id [] = 0 := rfl

@[simp] theorem granted_snoc (id : StreamId) (tr : List Entry) (e : Entry) :
    granted id (tr ++ [e]) = granted id tr + grantOn id e := by
  simp [granted]

@[simp] theorem peerSettingsOf_nil : peerSettingsOf [] = [] := rfl

@[simp] theorem peerSettingsOf_snoc (tr : List Entry) (e : Entry) :
    peerSettingsOf (tr ++ [e]) = peerSettingsOf tr ++ peerSettings e := by
  simp [peerSettingsOf]

section Entries

variable {id : StreamId} {p : ProtocolState} {a : Action} {f : RawFrame} {r : ProtocolStepResult}

theorem grantOn_of_not_mem (h : ∀ n, .windowUpdateReceived id n ∉ r.events) :
    grantOn id ⟨p, a, r⟩ = 0 := by
  cases a with
  | receiveFrame f => exact if_neg fun hc => h _ hc.2.2
  | _ => rfl

theorem grantOn_of_accepted (ht : f.header.type = .windowUpdate) (hid : f.header.streamId = id)
    (h : .windowUpdateReceived id f.windowIncrement ∈ r.events) :
    grantOn id ⟨p, .receiveFrame f, r⟩ = f.windowIncrement :=
  if_pos ⟨ht, hid, h⟩

theorem grantOn_of_ne (h : f.header.type = .windowUpdate → f.header.streamId ≠ id) :
    grantOn id ⟨p, .receiveFrame f, r⟩ = 0 :=
  if_neg fun hc => h hc.1 hc.2.1

theorem peerSettings_of_not_mem (h : .settingsReceived ∉ r.events) :
    peerSettings ⟨p, a, r⟩ = [] := by
  cases a with
  | receiveFrame f => exact if_neg fun hc => h hc.2.2
  | _ => rfl

theorem peerSettings_of_accepted (ht : f.header.type = .settings)
    (hack : f.header.hasAckFlag = false) (h : .settingsReceived ∈ r.events) :
    peerSettings ⟨p, .receiveFrame f, r⟩ = f.settings :=
  if_pos ⟨ht, hack, h⟩

theorem peerSettings_of_ne (h : f.header.type ≠ .settings) :
    peerSettings ⟨p, .receiveFrame f, r⟩ = [] :=
  if_neg fun hc => h hc.1

end Entries

/-! ## Uploads -/

/-- The records agree in all that the sending of the request body reads. -/
structure Stream.SameUpload (s s' : Stream) : Prop where
  streamId : s'.streamId = s.streamId
  rqst : s'.rqst = s.rqst
  requestBodyOffset : s'.requestBodyOffset = s.requestBodyOffset
  localEndStreamSent : s'.localEndStreamSent = s.localEndStreamSent
  not_closed : s.isClosed = false → s'.isClosed = false

/-- The record continues a stream of the table, with the same upload and the same window. -/
def Continues (t : StreamTable) (s' : Stream) : Prop :=
  ∃ s ∈ t.entries, s.SameUpload s' ∧ s'.outflow = s.outflow

theorem continues_of_mem {t : StreamTable} {s : Stream} (h : s ∈ t.entries) : Continues t s :=
  ⟨s, h, ⟨rfl, rfl, rfl, rfl, id⟩, rfl⟩

/-- Receiving a frame leaves uploads alone. -/
theorem keptByReceiving_continues (t : StreamTable) : KeptByReceiving (Continues t) where
  answered := fun _ ⟨u, hu, h, ho⟩ _ => ⟨u, hu, ⟨h.1, h.2, h.3, h.4, fun _ => rfl⟩, ho⟩
  withData := fun _ _ _ _ _ _ ⟨u, hu, h, ho⟩ _ _ => ⟨u, hu, ⟨h.1, h.2, h.3, h.4, h.5⟩, ho⟩
  openBlock := fun _ _ _ ⟨u, hu, h, ho⟩ _ => ⟨u, hu, ⟨h.1, h.2, h.3, h.4, h.5⟩, ho⟩
  withFragment := fun _ _ ⟨u, hu, h, ho⟩ => ⟨u, hu, ⟨h.1, h.2, h.3, h.4, h.5⟩, ho⟩
  endBlock := fun _ _ ⟨u, hu, h, ho⟩ => ⟨u, hu, ⟨h.1, h.2, h.3, h.4, h.5⟩, ho⟩
  withInformational := fun _ _ ⟨u, hu, h, ho⟩ => ⟨u, hu, ⟨h.1, h.2, h.3, h.4, h.5⟩, ho⟩
  withHeaders := fun _ _ _ ⟨u, hu, h, ho⟩ _ _ => ⟨u, hu, ⟨h.1, h.2, h.3, h.4, h.5⟩, ho⟩
  withTrailers := fun _ _ _ ⟨u, hu, h, ho⟩ _ => ⟨u, hu, ⟨h.1, h.2, h.3, h.4, h.5⟩, ho⟩

theorem allStreams_continues (t : StreamTable) : AllStreams (Continues t) t :=
  fun _ => continues_of_mem

/-! ## Results without DATA -/

namespace ProtocolState

variable {p p' : ProtocolState} {s : Stream} {r : ProtocolStepResult} {f : RawFrame}

theorem plain_streamFailure (p : ProtocolState) (id : StreamId) (code : ErrorCode) (rst : Bool) :
    Plain (p.streamFailure id code rst).outbound :=
  .of_reset ((p.streamFailure_outbound id code rst).imp_right fun h => ⟨_, h⟩)

theorem plain_connectionFailure (p : ProtocolState) (code : ErrorCode) (text : Bytes) :
    Plain (p.connectionFailure code text).outbound := by
  rcases p.connectionFailure_outbound code text with h | h
  · rw [h]
    exact .nil
  · rw [h]
    exact .singleton rfl fun _ => rfl

theorem plain_closeResult (p : ProtocolState) : Plain p.closeResult.outbound := by
  rcases p.closeResult_outbound with h | h
  · rw [h]
    exact .nil
  · rw [h]
    exact .singleton rfl fun _ => rfl

theorem Report.plain (h : Report p f r) : Plain r.outbound := by
  cases h with
  | priorityLength => exact .singleton rfl fun _ => rfl
  | ping => exact .singleton rfl fun _ => rfl
  | _ => exact .nil

theorem plain_ending {b : Bool} (h : Ending p s b p' r) : Plain r.outbound := .of_reset h.outbound

theorem BlockStep.plain {b : Bool} (h : BlockStep p s b p' r) : Plain r.outbound :=
  .of_reset h.outbound

theorem noData_refreshFrames (id : StreamId) (n : Int) : NoData (refreshFrames id n) := by
  rcases refreshFrames_cases id n with h | h
  · rw [h]
    rfl
  · rw [h]
    rfl

end ProtocolState

/-! ## Events that grant nothing -/

/-- Neither a window of the connection nor settings are reported. -/
structure NoGrant (events : List ProtocolEvent) : Prop where
  window : ∀ n, .windowUpdateReceived 0 n ∉ events
  settings : .settingsReceived ∉ events

theorem NoGrant.nil : NoGrant [] := ⟨by simp, by simp⟩

theorem NoGrant.append {a b : List ProtocolEvent} (ha : NoGrant a) (hb : NoGrant b) :
    NoGrant (a ++ b) := by
  refine ⟨fun n h => ?_, fun h => ?_⟩
  · exact (List.mem_append.1 h).elim (ha.window n) (hb.window n)
  · exact (List.mem_append.1 h).elim ha.settings hb.settings

namespace ProtocolState

variable {p p' : ProtocolState} {s : Stream} {r : ProtocolStepResult} {f : RawFrame}

theorem noGrant_failureEvents (code : ErrorCode) (ids : List StreamId) :
    NoGrant (ids.flatMap (failureEvents code)) := by
  constructor <;> simp [failureEvents]

theorem noGrant_streamFailure (p : ProtocolState) (id : StreamId) (code : ErrorCode) (rst : Bool) :
    NoGrant (p.streamFailure id code rst).events := by
  constructor <;> simp [streamFailure, failureEvents]

theorem noGrant_connectionFailure (p : ProtocolState) (code : ErrorCode) (text : Bytes) :
    NoGrant (p.connectionFailure code text).events := by
  unfold connectionFailure
  refine .append (.append ?_ (noGrant_failureEvents _ _)) (by constructor <;> simp)
  split <;> constructor <;> simp

theorem Report.noGrant (h : Report p f r) : NoGrant r.events := by
  cases h with
  | lateWindow ht hid => constructor <;> simp [Ne.symm hid]
  | _ => constructor <;> simp

theorem noGrant_ending {b : Bool} (h : Ending p s b p' r) : NoGrant r.events := by
  cases h with
  | mismatch => exact noGrant_streamFailure _ _ _ _
  | _ => constructor <;> simp

theorem BlockStep.noGrant {b : Bool} (h : BlockStep p s b p' r) : NoGrant r.events := by
  cases h with
  | tooLarge => exact noGrant_streamFailure _ _ _ _
  | rejected => exact noGrant_streamFailure _ _ _ _
  | informational => constructor <;> simp
  | headers headers cl hd hsize hv hfinal hend =>
    exact NoGrant.append (by constructor <;> simp) (noGrant_ending hend)
  | trailers headers cl hd hsize hv hfinal hconnect hend =>
    exact NoGrant.append (by constructor <;> simp) (noGrant_ending hend)

end ProtocolState

/-! ## The two parts of a step -/

/-- The sending side before and after, if nothing is granted and nothing sent. -/
structure SendIdle (p p' : ProtocolState) (r : ProtocolStepResult) : Prop where
  noData : NoData r.outbound
  noGrant : NoGrant r.events
  connection : p'.connectionOutFlow = p.connectionOutFlow
  settings : (p'.closed = true ∧ p'.streams = .empty) ∨
    (p'.initialWindowSize = p.initialWindowSize ∧ p'.maxFrameSize = p.maxFrameSize)
  streams : AllStreams (Continues p.streams) p'.streams

/-- `p₁` is `p` with all that the peer grants in the entry `e`. The streams outside `ids` have the
windows that they had. -/
structure SendGrant (p : ProtocolState) (e : Entry) (ids : List StreamId) (p₁ : ProtocolState) :
    Prop where
  connection : p₁.connectionOutFlow.window = p.connectionOutFlow.window + grantOn 0 e
  settings : (p₁.closed = true ∧ p₁.streams = .empty) ∨
    (p₁.initialWindowSize = settingOf .initialWindowSize (peerSettings e) p.initialWindowSize ∧
      p₁.maxFrameSize = settingOf .maxFrameSize (peerSettings e) p.maxFrameSize ∧
      (Http2SettingInfo.minimumMaxFrameSize ≤ p.maxFrameSize →
        Http2SettingInfo.minimumMaxFrameSize ≤ p₁.maxFrameSize))
  streams : ∀ s₁ ∈ p₁.streams.entries,
    (∃ s ∈ p.streams.entries, s.SameUpload s₁ ∧
      s₁.outflow.window ≤ s.outflow.window + grantOn s.streamId e +
        (wrapInt32 p₁.initialWindowSize - wrapInt32 p.initialWindowSize) ∧
      (s₁.streamId ∈ ids ∨
        s₁.outflow = s.outflow ∧ p₁.connectionOutFlow = p.connectionOutFlow)) ∨
    ∃ request rehash, e.input = .submitRequest request rehash ∧ s₁ = p.openedStream request ∧
      s₁.streamId ∈ ids ∧ p.closed = false ∧ p₁.nextStreamId = p.nextStreamId + 2

/-- A step that sends nothing, as a grant. -/
theorem SendIdle.grant {p p' : ProtocolState} {r : ProtocolStepResult} (h : SendIdle p p' r)
    (a : Action) : SendGrant p ⟨p, a, r⟩ [] p' where
  connection := by
    rw [h.connection, grantOn_of_not_mem h.noGrant.window]
    simp
  settings := by
    rw [peerSettings_of_not_mem h.noGrant.settings]
    rcases h.settings with hclosed | ⟨hiws, hmax⟩
    · exact Or.inl hclosed
    · exact Or.inr ⟨hiws, hmax, fun hm => hmax ▸ hm⟩
  streams := by
    intro s₁ hs₁
    obtain ⟨s, hs, hsame, hout⟩ := h.streams s₁ hs₁
    refine Or.inl ⟨s, hs, hsame, ?_, Or.inr ⟨hout, h.connection⟩⟩
    rcases h.settings with ⟨-, hempty⟩ | ⟨hiws, -⟩
    · rw [hempty] at hs₁
      exact (List.not_mem_nil hs₁).elim
    · rw [hout, hiws]
      omega

namespace ProtocolState

variable {p p' : ProtocolState} {s : Stream} {r : ProtocolStepResult} {f : RawFrame}

/-- Failing a stream. -/
theorem sendIdle_removeStream (p q : ProtocolState) (s : Stream) (id : StreamId) (code : ErrorCode)
    (rst : Bool) : SendIdle p (p.removeStream s) (q.streamFailure id code rst) where
  noData := (plain_streamFailure q id code rst).noData
  noGrant := noGrant_streamFailure q id code rst
  connection := rfl
  settings := Or.inr ⟨rfl, rfl⟩
  streams := (allStreams_continues p.streams).erase _

/-- Applied settings move the windows of all streams. -/
theorem sendGrant_settings {p₁ : ProtocolState} (ht : f.header.type = .settings)
    (hack : f.header.hasAckFlag = false)
    (happ : applyPeerSettings f.settings { p with gotPeerSettings := true } = (p₁, none)) :
    SendGrant p ⟨p, .receiveFrame f, r.merge
      { outbound := [.settings settingsAck], events := [.settingsReceived] }⟩
      p₁.streams.keys p₁ := by
  have hgrant : ∀ id, grantOn id ⟨p, .receiveFrame f, r.merge
      { outbound := [.settings settingsAck], events := [.settingsReceived] }⟩ = 0 :=
    fun id => grantOn_of_ne fun hw => by simp [ht] at hw
  have hsettings : peerSettings ⟨p, .receiveFrame f, r.merge
      { outbound := [.settings settingsAck], events := [.settingsReceived] }⟩ = f.settings :=
    peerSettings_of_accepted ht hack (by simp)
  have hin := inForce_of_settings f.settings happ
  refine ⟨?_, ?_, ?_⟩
  · rw [hgrant, (tuned_of_settings happ).disturbed.connectionOutFlow]
    simp
  · rw [hsettings]
    exact Or.inr ⟨hin.initialWindowSize, hin.maxFrameSize, hin.minimum⟩
  · intro s₁ hs₁
    obtain ⟨s, hs, outflow, heq, hle⟩ := hin.window s₁ hs₁
    refine Or.inl ⟨s, hs, ?_, ?_, Or.inl (KeyedTable.key_mem_keys hs₁)⟩
    · rw [heq]
      exact ⟨rfl, rfl, rfl, rfl, id⟩
    · rw [hgrant, heq]
      have hle' : outflow.window ≤ s.outflow.window +
        (wrapInt32 p₁.initialWindowSize - wrapInt32 p.initialWindowSize) := hle
      show outflow.window ≤ _
      omega

theorem sendGrant_connectionWindow {outflow : OutFlow} (ht : f.header.type = .windowUpdate)
    (hid : f.header.streamId = 0)
    (hadd : p.connectionOutFlow.add f.windowIncrement = some outflow) :
    SendGrant p ⟨p, .receiveFrame f, ProtocolStepResult.merge
      { events := [.windowUpdateReceived 0 f.windowIncrement] } r⟩ p.streams.keys
      { p with connectionOutFlow := outflow } := by
  obtain ⟨rfl, -⟩ := OutFlow.add_eq_some.1 hadd
  refine ⟨?_, ?_, ?_⟩
  · rw [grantOn_of_accepted ht hid (by simp)]
  · rw [peerSettings_of_ne (by simp [ht])]
    exact Or.inr ⟨rfl, rfl, id⟩
  · intro s₁ hs₁
    exact Or.inl ⟨s₁, hs₁, ⟨rfl, rfl, rfl, rfl, id⟩, by dsimp only; omega,
      Or.inl (KeyedTable.key_mem_keys hs₁)⟩

theorem sendGrant_streamWindow {outflow : OutFlow} (ht : f.header.type = .windowUpdate)
    (hid : f.header.streamId ≠ 0) (hfind : p.streams.find? f.header.streamId = some s)
    (hadd : s.outflow.add f.windowIncrement = some outflow) :
    SendGrant p ⟨p, .receiveFrame f, ProtocolStepResult.merge
      { events := [.windowUpdateReceived f.header.streamId f.windowIncrement] } r⟩ [s.streamId]
      (p.putStream (s.withOutflow outflow)) := by
  obtain ⟨rfl, -⟩ := OutFlow.add_eq_some.1 hadd
  have hsid : s.streamId = f.header.streamId := KeyedTable.key_of_find? hfind
  refine ⟨?_, ?_, ?_⟩
  · rw [grantOn_of_ne fun _ => hid]
    exact (Int.add_zero _).symm
  · rw [peerSettings_of_ne (by simp [ht])]
    exact Or.inr ⟨rfl, rfl, id⟩
  · intro s₁ hs₁
    rcases KeyedTable.mem_set.1 hs₁ with ⟨rfl, -⟩ | ⟨hmem, -⟩
    · refine Or.inl ⟨s, KeyedTable.mem_of_find? hfind, ⟨rfl, rfl, rfl, rfl, id⟩, ?_,
        Or.inl (List.mem_singleton_self _)⟩
      rw [grantOn_of_accepted ht hsid.symm (by simp [hsid])]
      show s.outflow.window + (f.windowIncrement : Int) ≤ _
      dsimp only [putStream]
      omega
    · -- the windows of the other streams stay
      refine Or.inl ⟨s₁, hmem, ⟨rfl, rfl, rfl, rfl, id⟩, ?_, Or.inr ⟨rfl, rfl⟩⟩
      dsimp only [putStream]
      omega

/-- Every frame grants, and then bodies are sent. -/
theorem FrameStep.sends (hstep : FrameStep p f p' r) :
    ∃ p₁ ids r₁, SendGrant p ⟨p, .receiveFrame f, r⟩ ids p₁ ∧ BodySteps ids p₁ p' r₁ ∧
      dataFrames r.outbound = dataFrames r₁.outbound := by
  have hself := allStreams_continues p.streams
  have hR := keptByReceiving_continues p.streams
  -- most frames send nothing and grant nothing
  have hidle : SendIdle p p' r → ∃ p₁ ids r₁, SendGrant p ⟨p, .receiveFrame f, r⟩ ids p₁ ∧
      BodySteps ids p₁ p' r₁ ∧ dataFrames r.outbound = dataFrames r₁.outbound :=
    fun h => ⟨p', [], {}, h.grant _, .nil p', h.noData⟩
  cases hstep with
  | reported h =>
    exact hidle ⟨h.plain.noData, h.noGrant, rfl, Or.inr ⟨rfl, rfl⟩, hself⟩
  | connectionFailed hv hd hpre =>
    have hplain := plain_connectionFailure
    have hquiet := noGrant_connectionFailure
    refine hidle ⟨?_, ?_, hd.connectionOutFlow, Or.inl ⟨rfl, rfl⟩, .empty⟩
    · rcases hpre with rfl | ⟨promised, rfl⟩
      · exact NoData.append rfl (hplain _ _ _).noData
      · exact NoData.append rfl (hplain _ _ _).noData
    · rcases hpre with rfl | ⟨promised, rfl⟩
      · exact NoGrant.nil.append (hquiet _ _ _)
      · exact NoGrant.append (by constructor <;> simp) (hquiet _ _ _)
  | dataRefused => exact hidle (sendIdle_removeStream p p _ _ _ _)
  | dataOnRemoved =>
    exact hidle ⟨noData_refreshFrames _ _, .nil, rfl, Or.inr ⟨rfl, rfl⟩, hself⟩
  | dataOnBodiless s =>
    have h := sendIdle_removeStream p p s f.header.streamId .protocolError true
    exact hidle ⟨h.1, h.2, rfl, Or.inr ⟨rfl, rfl⟩, h.5⟩
  | dataStored s ht hfind hopen hfinal htake hbody hend =>
    have hs := hR.withData s _ _ _ _ f.dataFragment (hself.find hfind) hopen htake
    refine hidle ⟨?_, NoGrant.nil.append (noGrant_ending hend),
      (congrArg ProtocolState.connectionOutFlow hend.eq_with :),
      Or.inr ⟨(congrArg ProtocolState.initialWindowSize hend.eq_with :),
        (congrArg ProtocolState.maxFrameSize hend.eq_with :)⟩, ?_⟩
    · exact ((noData_refreshFrames _ _).append (noData_refreshFrames _ _)).append
        (plain_ending hend).noData
    · exact AllStreams.ending hend hself hs (hR.answered _ hs)
  | headersRefused => exact hidle (sendIdle_removeStream p p _ _ _ _)
  | ghostHeaders => exact hidle ⟨rfl, .nil, rfl, Or.inr ⟨rfl, rfl⟩, hself⟩
  | ghostHeadersOpen => exact hidle ⟨rfl, .nil, rfl, Or.inr ⟨rfl, rfl⟩, hself⟩
  | headersOpen s ht hfind hopen =>
    exact hidle ⟨rfl, .nil, rfl, Or.inr ⟨rfl, rfl⟩,
      hself.set (hR.openBlock s _ _ (hself.find hfind) hopen)⟩
  | headersBlock s ht hfind hopen hend hblock =>
    exact hidle ⟨hblock.plain.noData, hblock.noGrant,
      (congrArg ProtocolState.connectionOutFlow hblock.eq_with :),
      Or.inr ⟨(congrArg ProtocolState.initialWindowSize hblock.eq_with :),
        (congrArg ProtocolState.maxFrameSize hblock.eq_with :)⟩,
      AllStreams.blockStep hR.toKeptByHeaders hblock hself (hR.withFragment s _ (hself.find hfind))⟩
  | streamReset s =>
    have h := sendIdle_removeStream p p s f.header.streamId .noError false
    exact hidle ⟨NoData.append rfl (plain_streamFailure _ _ _ _).noData,
      NoGrant.append (by constructor <;> simp) (noGrant_streamFailure _ _ _ _), rfl,
      Or.inr ⟨rfl, rfl⟩, h.5⟩
  | @settingsApplied p₁ _ r₁ ht hack happ hbodies =>
    exact ⟨p₁, p₁.streams.keys, r₁, sendGrant_settings ht hack happ, hbodies,
      (dataFrames_append (a := r₁.outbound)).trans (List.append_nil _)⟩
  | goAway =>
    refine hidle ⟨rfl, ?_, rfl, Or.inr ⟨rfl, rfl⟩, hself.eraseAll _⟩
    exact NoGrant.append (a := [_]) (by constructor <;> simp) (noGrant_failureEvents _ _)
  | connectionWindow ht hid hadd hbodies =>
    exact ⟨_, _, _, sendGrant_connectionWindow ht hid hadd, hbodies, rfl⟩
  | windowRefused => exact hidle (sendIdle_removeStream p p _ _ _ _)
  | @streamWindow s outflow _ _ ht hid hfind hadd hbody =>
    -- the body is the one of the record that has just been written back
    have hput : (p.putStream (s.withOutflow outflow)).streams.find? s.streamId =
        some (s.withOutflow outflow) := by
      have hkey : (s.withOutflow outflow).streamId ∈ p.streams.keys := (mem_keys_of_find? hfind :)
      rw [find?_putStream hkey]
      exact if_pos rfl
    exact ⟨_, [s.streamId], _, sendGrant_streamWindow ht hid hfind hadd, .single hput hbody, rfl⟩
  | ghostContinuationOpen => exact hidle ⟨rfl, .nil, rfl, Or.inr ⟨rfl, rfl⟩, hself⟩
  | ghostContinuation => exact hidle ⟨rfl, .nil, rfl, Or.inr ⟨rfl, rfl⟩, hself⟩
  | continuationOpen s ht hexp hid hfind =>
    exact hidle ⟨rfl, .nil, rfl, Or.inr ⟨rfl, rfl⟩,
      hself.set (hR.withFragment s _ (hself.find hfind))⟩
  | continuationBlock s ht hexp hid hfind hend hblock =>
    exact hidle ⟨hblock.plain.noData, hblock.noGrant,
      (congrArg ProtocolState.connectionOutFlow hblock.eq_with :),
      Or.inr ⟨(congrArg ProtocolState.initialWindowSize hblock.eq_with :),
        (congrArg ProtocolState.maxFrameSize hblock.eq_with :)⟩,
      AllStreams.blockStep hR.toKeptByHeaders hblock hself (hR.endBlock s _ (hself.find hfind))⟩

/-- Every step grants, and then bodies are sent. -/
theorem ActionStep.sends {a : Action} (hstep : ActionStep p a p' r) :
    ∃ p₁ ids r₁, SendGrant p ⟨p, a, r⟩ ids p₁ ∧ BodySteps ids p₁ p' r₁ ∧
      dataFrames r.outbound = dataFrames r₁.outbound := by
  have hself := allStreams_continues p.streams
  have hidle : SendIdle p p' r → ∃ p₁ ids r₁, SendGrant p ⟨p, a, r⟩ ids p₁ ∧
      BodySteps ids p₁ p' r₁ ∧ dataFrames r.outbound = dataFrames r₁.outbound :=
    fun h => ⟨p', [], {}, h.grant _, .nil p', h.noData⟩
  cases hstep with
  | startedAgain =>
    exact hidle ⟨rfl, by constructor <;> simp, rfl, Or.inr ⟨rfl, rfl⟩, hself⟩
  | started => exact hidle ⟨rfl, by constructor <;> simp, rfl, Or.inr ⟨rfl, rfl⟩, hself⟩
  | refused => exact hidle ⟨rfl, by constructor <;> simp, rfl, Or.inr ⟨rfl, rfl⟩, hself⟩
  | @opened request rehash _ r₁ hcan hvalid hroom hpos hmax hbody =>
    -- the stream is entered with the initial windows, and its body is sent at once
    have hput : ((p.opening request rehash).putStream (p.openedStream request)).streams.find?
        p.nextStreamId = some (p.openedStream request) := by
      rw [find?_opening, if_pos rfl]
    refine ⟨(p.opening request rehash).putStream (p.openedStream request), [p.nextStreamId], r₁,
      ⟨?_, Or.inr ⟨rfl, rfl, id⟩, ?_⟩, .single hput hbody, ?_⟩
    · exact (Int.add_zero _).symm
    · intro s₁ hs₁
      rcases mem_opening hs₁ with rfl | hmem
      · exact Or.inr ⟨request, rehash, rfl, rfl, List.mem_singleton_self _,
          canSubmitRequests_open hcan, rfl⟩
      · refine Or.inl ⟨s₁, hmem, ⟨rfl, rfl, rfl, rfl, id⟩, ?_, Or.inr ⟨rfl, rfl⟩⟩
        have hiws : ((p.opening request rehash).putStream (p.openedStream request)).initialWindowSize
          = p.initialWindowSize := rfl
        rw [hiws]
        omega
    · rw [dataFrames_append, (p.plain_requestHeaderFrames request).noData, List.nil_append]
  | cancelIgnored => exact hidle ⟨rfl, .nil, rfl, Or.inr ⟨rfl, rfl⟩, hself⟩
  | cancelled => exact hidle (sendIdle_removeStream p p _ _ _ _)
  | pingIgnored => exact hidle ⟨rfl, .nil, rfl, Or.inr ⟨rfl, rfl⟩, hself⟩
  | pinged => exact hidle ⟨rfl, .nil, rfl, Or.inr ⟨rfl, rfl⟩, hself⟩
  | closedAgain => exact hidle ⟨rfl, .nil, rfl, Or.inr ⟨rfl, rfl⟩, hself⟩
  | closed =>
    refine hidle ⟨p.plain_closeResult.noData, ?_, rfl, Or.inr ⟨rfl, rfl⟩, .empty⟩
    refine .append (.append ?_ (noGrant_failureEvents _ _)) (by constructor <;> simp)
    split <;> constructor <;> simp
  | transportLost =>
    refine hidle ⟨rfl, ?_, rfl, Or.inr ⟨rfl, rfl⟩, .empty⟩
    exact .append (noGrant_failureEvents _ _) (by constructor <;> simp)
  | transportLostAgain =>
    exact hidle ⟨rfl, by constructor <;> simp, rfl, Or.inr ⟨rfl, rfl⟩, hself⟩
  | frameIgnored => exact hidle ⟨rfl, .nil, rfl, Or.inr ⟨rfl, rfl⟩, hself⟩
  | frame f hopen hup hframe => exact hframe.sends

/-- Streams that are not in the table send no DATA. -/
theorem dataFramesOn_bodySteps {ids : List StreamId} (h : BodySteps ids p p' r) {id : StreamId}
    (hid : id ∉ p.streams.keys) : dataFramesOn id r.outbound = [] := by
  induction h with
  | nil => rfl
  | gone _ _ ih => exact ih hid
  | @cons k ids s p p₁ p' r₁ r hfind hstep _ ih =>
    have hkey : s.streamId ∈ p.streams.keys := mem_keys_of_find? hfind
    have hne : id ≠ s.streamId := fun he => hid (he ▸ hkey)
    rw [ProtocolStepResult.outbound_merge, dataFramesOn_append,
      ih fun hmem => hid (noNewStreams_bodyStep hstep id hmem), List.append_nil]
    cases hstep with
    | idle => rfl
    | partly n frames hopen h => exact (h.dataFramesOn_eq id).trans (if_neg hne)
    | wholly n frames hopen h => exact (h.dataFramesOn_eq id).trans (if_neg hne)
    | finished n frames hopen h => exact (h.dataFramesOn_eq id).trans (if_neg hne)

/-- The DATA frames of body steps are no longer than the frame size in force. -/
theorem size_bodySteps {ids : List StreamId} (h : BodySteps ids p p' r) :
    ∀ f ∈ dataFrames r.outbound, f.data.length ≤ p.maxFrameSize := by
  induction h with
  | nil => exact fun f hf => (List.not_mem_nil hf).elim
  | gone _ _ ih => exact ih
  | @cons k ids s p p₁ p' r₁ r hfind hstep _ ih =>
    have hsame : p₁.maxFrameSize = p.maxFrameSize := by cases hstep <;> rfl
    have hsent : ∀ {n frames}, BodySent p.maxFrameSize s p.connectionOutFlow n frames →
        ∀ f ∈ dataFrames (frames.map OutboundBuffer.data), f.data.length ≤ p.maxFrameSize := by
      intro n frames hsent f hf
      rw [dataFrames_map_data] at hf
      exact (hsent.size f hf).2
    intro f hf
    rw [ProtocolStepResult.outbound_merge, dataFrames_append] at hf
    rcases List.mem_append.1 hf with hf | hf
    · cases hstep with
      | idle => exact (List.not_mem_nil hf).elim
      | partly n frames hopen h => exact hsent h f hf
      | wholly n frames hopen h => exact hsent h f hf
      | finished n frames hopen h => exact hsent h f hf
    · exact hsame ▸ ih f hf

end ProtocolState

variable {p p' : ProtocolState} {r : ProtocolStepResult}

/-- No stream has an id that has not been given out. -/
theorem SendGrant.not_mem_of_next_le {a : Action} {ids : List StreamId} {p₁ : ProtocolState}
    {r₁ : ProtocolStepResult} (h : SendGrant p ⟨p, a, r⟩ ids p₁) (htidy : p.Tidy)
    (hstep : ActionStep p a p' r) (hbodies : BodySteps ids p₁ p' r₁) {id : StreamId}
    (hid : p'.nextStreamId ≤ id) : id ∉ p₁.streams.keys := by
  intro hmem
  obtain ⟨s₁, hs₁, rfl⟩ := KeyedTable.mem_keys.1 hmem
  rcases h.streams s₁ hs₁ with ⟨s, hs, hsame, -⟩ | ⟨request, rehash, -, rfl, -, -, hnext⟩
  · have hlt := htidy.lt_next _ (KeyedTable.key_mem_keys hs)
    rw [← hsame.streamId] at hlt
    exact absurd hlt (not_lt.2 (hstep.next_le.trans hid))
  · rw [(steady_bodySteps hbodies).nextStreamId, hnext] at hid
    exact absurd hid (not_le.2 (Nat.lt_add_of_pos_right (by decide : 0 < 2)))

end Chttp2
