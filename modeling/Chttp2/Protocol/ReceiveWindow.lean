import Chttp2.Protocol.ReceiveCredit

/-!
# The windows a peer may use

The client counts what a peer may send in `connectionInflow` and in the `inflow` of each stream. The
peer counts it from what the client has told it: the INITIAL_WINDOW_SIZE of the client's SETTINGS
and the WINDOW_UPDATE frames (`FitsWindows`). While the client's counts are no lower than the peer's
(`Covered`), DATA that fits the peer's windows raises no FLOW_CONTROL_ERROR.

The counts start out different where the configured window is below 65535, and where the peer has
announced a smaller window of its own before a request (`own_window_overwritten`), since one member
holds both values. Runs that avoid these two and an empty DATA frame at an exhausted window keep
`Covered` (`fitting_data_not_charged`).
-/

set_option autoImplicit false

namespace Chttp2

open ProtocolState

/-! ## What the peer has been told -/

/-- The payload length of the DATA frame that a step receives on a stream. -/
def receivedDataOn (id : StreamId) (e : Entry) : Nat :=
  match e.input with
  | .receiveFrame f =>
    if f.header.type = .data ∧ f.header.streamId = id then f.header.payloadLength else 0
  | _ => 0

/-- The total payload length of the DATA frames received on a stream. -/
def receivedOn (id : StreamId) (tr : List Entry) : Nat := Machine.total (receivedDataOn id) tr

@[simp] theorem receivedOn_nil (id : StreamId) : receivedOn id [] = 0 := rfl

@[simp] theorem receivedOn_snoc (id : StreamId) (tr : List Entry) (e : Entry) :
    receivedOn id (tr ++ [e]) = receivedOn id tr + receivedDataOn id e := by
  simp [receivedOn]

/-- The settings in a buffer. -/
def OutboundBuffer.settingsOf : OutboundBuffer → List (Nat × Nat)
  | .settings frame => frame.settings
  | _ => []

/-- The settings that outbound buffers announce. -/
def ownSettings (out : List OutboundBuffer) : List (Nat × Nat) :=
  out.flatMap OutboundBuffer.settingsOf

/-- The stream window that the client's own SETTINGS advertise. -/
def advertisedWindow (out : List OutboundBuffer) : Nat :=
  settingOf .initialWindowSize (ownSettings out) Http2SettingInfo.defaultInitialWindowSize

/-- A DATA frame that fits both windows as the peer knows them after the trace. -/
def FitsWindows (tr : List Entry) (f : RawFrame) : Prop :=
  receivedOn f.header.streamId tr + f.header.payloadLength ≤
      advertisedWindow (outboundOf tr) + creditOn f.header.streamId (outboundOf tr) ∧
    received tr + f.header.payloadLength ≤ 65535 + creditOn 0 (outboundOf tr)

instance (tr : List Entry) (f : RawFrame) : Decidable (FitsWindows tr f) :=
  inferInstanceAs (Decidable (_ ∧ _))

/-- A received DATA frame fits the windows as the peer knows them. -/
def Entry.fits (before : List Entry) (e : Entry) : Prop :=
  match e.input with
  | .receiveFrame f => f.header.type = .data → FitsWindows before f
  | _ => True

instance (before : List Entry) (e : Entry) : Decidable (e.fits before) :=
  match e with
  | ⟨_, .receiveFrame f, _⟩ =>
    inferInstanceAs (Decidable (f.header.type = .data → FitsWindows before f))
  | ⟨_, .start, _⟩ | ⟨_, .submitRequest _ _, _⟩ | ⟨_, .cancelStream _ _, _⟩ | ⟨_, .sendPing, _⟩
  | ⟨_, .close, _⟩ | ⟨_, .onTransportClosed, _⟩ => instDecidableTrue

/-- Every DATA frame of the run fits the windows as the peer knows them. -/
def Compliant (tr : List Entry) : Prop := Machine.Along Entry.fits tr

instance : DecidablePred Compliant := fun tr => inferInstanceAs (Decidable (Machine.Along _ tr))

/-- A request is submitted while the member for the initial window holds at least what the client
has advertised. -/
def Entry.keepsOwnWindow (before : List Entry) (e : Entry) : Prop :=
  match e.input with
  | .submitRequest _ _ => advertisedWindow (outboundOf before) ≤ e.pre.initialWindowSize
  | _ => True

instance (before : List Entry) (e : Entry) : Decidable (e.keepsOwnWindow before) :=
  match e with
  | ⟨p, .submitRequest _ _, _⟩ =>
    inferInstanceAs (Decidable (advertisedWindow (outboundOf before) ≤ p.initialWindowSize))
  | ⟨_, .start, _⟩ | ⟨_, .receiveFrame _, _⟩ | ⟨_, .cancelStream _ _, _⟩ | ⟨_, .sendPing, _⟩
  | ⟨_, .close, _⟩ | ⟨_, .onTransportClosed, _⟩ => instDecidableTrue

/-- Every request is submitted under a window that is not smaller than the advertised one. -/
def OwnWindowKept (tr : List Entry) : Prop := Machine.Along Entry.keepsOwnWindow tr

instance : DecidablePred OwnWindowKept := fun tr =>
  inferInstanceAs (Decidable (Machine.Along _ tr))

/-- An empty DATA frame arrives on a stream that is gone while the window of the connection is used
up. -/
def Entry.emptyDataAtLimit (e : Entry) : Prop :=
  match e.input with
  | .receiveFrame f => f.header.type = .data ∧ f.header.payloadLength = 0 ∧
      e.pre.streams.find? f.header.streamId = none ∧ e.pre.connectionInflow.avail ≤ 0
  | _ => False

instance (e : Entry) : Decidable e.emptyDataAtLimit :=
  match e with
  | ⟨_, .receiveFrame _, _⟩ => inferInstanceAs (Decidable (_ ∧ _))
  | ⟨_, .start, _⟩ | ⟨_, .submitRequest _ _, _⟩ | ⟨_, .cancelStream _ _, _⟩ | ⟨_, .sendPing, _⟩
  | ⟨_, .close, _⟩ | ⟨_, .onTransportClosed, _⟩ => instDecidableFalse

/-! ## Raised errors -/

/-- The error that an event reports as raised by the client. -/
def ProtocolEvent.raised : ProtocolEvent → Option ErrorCode
  | .goAwaySent _ code _ | .connectionError code | .connectionClosed code | .streamClosed _ code
  | .responseFailed _ code => some code
  | _ => none

/-- The error code that a buffer sends to the peer. -/
def OutboundBuffer.raised : OutboundBuffer → Option Nat
  | .rstStream frame => some frame.errorCode
  | .goAway frame => some frame.errorCode
  | _ => none

/-- The result raises FLOW_CONTROL_ERROR. -/
def RaisesFlowControl (r : ProtocolStepResult) : Prop :=
  (∃ e ∈ r.events, e.raised = some .flowControlError) ∨
    ∃ b ∈ r.outbound, b.raised = some ErrorCode.flowControlError.toNat

instance : DecidablePred RaisesFlowControl := fun _ => inferInstanceAs (Decidable (_ ∨ _))

/-- The client raises FLOW_CONTROL_ERROR on receiving DATA. -/
def Entry.chargesData (e : Entry) : Prop :=
  match e.input with
  | .receiveFrame f => f.header.type = .data ∧ RaisesFlowControl e.output
  | _ => False

instance (e : Entry) : Decidable e.chargesData :=
  match e with
  | ⟨_, .receiveFrame _, _⟩ => inferInstanceAs (Decidable (_ ∧ _))
  | ⟨_, .start, _⟩ | ⟨_, .submitRequest _ _, _⟩ | ⟨_, .cancelStream _ _, _⟩ | ⟨_, .sendPing, _⟩
  | ⟨_, .close, _⟩ | ⟨_, .onTransportClosed, _⟩ => instDecidableFalse

section Raised

variable {a b : ProtocolStepResult} {p : ProtocolState} {code : ErrorCode}

theorem raisesFlowControl_merge :
    RaisesFlowControl (a.merge b) ↔ RaisesFlowControl a ∨ RaisesFlowControl b := by
  simp only [RaisesFlowControl, ProtocolStepResult.merge, List.mem_append, or_and_right,
    exists_or]
  exact or_or_or_comm

theorem not_raises_of_quiet (hevents : ∀ e ∈ a.events, e.raised = none)
    (hout : ∀ b ∈ a.outbound, b.raised = none) : ¬ RaisesFlowControl a := by
  rintro (⟨e, he, hraised⟩ | ⟨b, hb, hraised⟩)
  · rw [hevents e he] at hraised
    cases hraised
  · rw [hout b hb] at hraised
    cases hraised

theorem refreshFrames_raised (id : StreamId) (n : Int) :
    ∀ b ∈ refreshFrames id n, b.raised = none := by
  intro b hb
  rcases refreshFrames_cases id n with h | h
  · rw [h] at hb
    cases hb
  · rw [h] at hb
    rw [List.mem_singleton.1 hb]
    rfl

/-- Failing a stream raises the error it is failed with. -/
theorem not_raises_streamFailure (id : StreamId) (rst : Bool)
    (hcode : code.toNat ≠ ErrorCode.flowControlError.toNat) :
    ¬ RaisesFlowControl (p.streamFailure id code rst) := by
  have hne : code ≠ .flowControlError := fun h => hcode (congrArg ErrorCode.toNat h)
  rintro (⟨e, he, hraised⟩ | ⟨b, hb, hraised⟩)
  · simp only [streamFailure, failureEvents, List.mem_cons, List.not_mem_nil, or_false] at he
    rcases he with rfl | rfl <;> exact hne (Option.some.inj hraised)
  · simp only [streamFailure] at hb
    split at hb
    · rw [List.mem_singleton.1 hb] at hraised
      exact hcode (Option.some.inj hraised)
    · cases hb

theorem not_raises_connectionFailure (text : Bytes)
    (hcode : code.toNat ≠ ErrorCode.flowControlError.toNat) :
    ¬ RaisesFlowControl (p.connectionFailure code text) := by
  have hne : code ≠ .flowControlError := fun h => hcode (congrArg ErrorCode.toNat h)
  rintro (⟨e, he, hraised⟩ | ⟨b, hb, hraised⟩)
  · have hcodes : ∀ e ∈ (p.connectionFailure code text).events, e.raised = some code := by
      intro e he
      simp only [connectionFailure, List.mem_append, List.mem_flatMap] at he
      rcases he with (he | ⟨k, -, he⟩) | he
      · split at he
        · rw [List.mem_singleton.1 he]
          rfl
        · cases he
      · simp only [failureEvents, List.mem_cons, List.not_mem_nil, or_false] at he
        rcases he with rfl | rfl <;> rfl
      · simp only [List.mem_cons, List.not_mem_nil, or_false] at he
        rcases he with rfl | rfl <;> rfl
    rw [hcodes e he] at hraised
    exact hne (Option.some.inj hraised)
  · simp only [connectionFailure] at hb
    split at hb
    · rw [List.mem_singleton.1 hb] at hraised
      exact hcode (Option.some.inj hraised)
    · cases hb

theorem not_raises_ending {p' : ProtocolState} {s : Stream} {endStream : Bool}
    {r : ProtocolStepResult} (h : Ending p s endStream p' r) : ¬ RaisesFlowControl r := by
  cases h with
  | goesOn => exact not_raises_of_quiet (by simp) (by simp)
  | mismatch => exact not_raises_streamFailure _ _ (by decide)
  | finished => simp [RaisesFlowControl, ProtocolEvent.raised]
  | answered => simp [RaisesFlowControl, ProtocolEvent.raised]

end Raised

/-! ## Results that announce no settings -/

/-- The buffers announce no settings. -/
def NoSettings (out : List OutboundBuffer) : Prop := ownSettings out = []

namespace NoSettings

variable {a b : List OutboundBuffer} {p p' : ProtocolState} {s : Stream} {r : ProtocolStepResult}
  {f : RawFrame}

theorem nil : NoSettings [] := rfl

theorem append (ha : NoSettings a) (hb : NoSettings b) : NoSettings (a ++ b) := by
  rw [NoSettings, ownSettings, List.flatMap_append]
  exact (congrArg₂ (· ++ ·) ha hb :)

theorem data (frames : List DataFrame) : NoSettings (frames.map .data) := by
  rw [NoSettings, ownSettings, List.flatMap_eq_nil_iff]
  intro b hb
  obtain ⟨frame, -, rfl⟩ := List.mem_map.1 hb
  rfl

/-- An RST_STREAM frame at most. -/
theorem of_reset (h : a = [] ∨ ∃ frame, a = [.rstStream frame]) : NoSettings a := by
  rcases h with rfl | ⟨frame, rfl⟩ <;> rfl

theorem refreshFrames (id : StreamId) (n : Int) : NoSettings (refreshFrames id n) := by
  rcases refreshFrames_cases id n with h | h <;> rw [h] <;> rfl

theorem streamFailure (p : ProtocolState) (id : StreamId) (code : ErrorCode) (rst : Bool) :
    NoSettings (p.streamFailure id code rst).outbound :=
  of_reset ((p.streamFailure_outbound id code rst).imp_right fun h => ⟨_, h⟩)

theorem connectionFailure (p : ProtocolState) (code : ErrorCode) (text : Bytes) :
    NoSettings (p.connectionFailure code text).outbound := by
  rcases p.connectionFailure_outbound code text with h | h <;> rw [h] <;> rfl

theorem closeResult (p : ProtocolState) : NoSettings p.closeResult.outbound := by
  rcases p.closeResult_outbound with h | h <;> rw [h] <;> rfl

theorem bodyStep (h : BodyStep p s p' r) : NoSettings r.outbound := by
  obtain ⟨frames, hframes, -⟩ := h.outbound
  rw [hframes]
  exact data frames

theorem bodySteps {ids : List StreamId} (h : BodySteps ids p p' r) : NoSettings r.outbound := by
  obtain ⟨frames, hframes⟩ := h.outbound
  rw [hframes]
  exact data frames

theorem emitContinuations (maxFrameSize : Nat) (id : StreamId) (fuel : Nat) :
    ∀ span, NoSettings (emitContinuations maxFrameSize id fuel span) := by
  induction fuel with
  | zero => exact fun _ => nil
  | succ fuel ih =>
    intro span
    rw [ProtocolState.emitContinuations]
    split
    · exact nil
    · exact append (a := [_]) rfl (ih _)

theorem requestHeaderFrames (p : ProtocolState) (request : Request) :
    NoSettings (p.requestHeaderFrames request) :=
  append (a := [_]) rfl (emitContinuations _ _ _ _)

/-- A received frame makes the client announce no settings. -/
theorem frameStep (h : FrameStep p f p' r) : NoSettings r.outbound := by
  cases h with
  | reported h => cases h <;> exact nil
  | connectionFailed hv hd hpre =>
    have hquiet := connectionFailure
    rcases hpre with rfl | ⟨promised, rfl⟩ <;> exact nil.append (hquiet _ _ _)
  | dataRefused => exact streamFailure _ _ _ _
  | dataOnRemoved => exact refreshFrames _ _
  | dataOnBodiless => exact streamFailure _ _ _ _
  | dataStored s ht hfind hopen hfinal htake hbody hend =>
    exact ((refreshFrames _ _).append (refreshFrames _ _)).append (of_reset hend.outbound)
  | headersRefused => exact streamFailure _ _ _ _
  | headersBlock s ht hfind hopen hend hblock => exact of_reset hblock.outbound
  | streamReset => exact nil.append (streamFailure _ _ _ _)
  | settingsApplied ht hack happ hbodies => exact (bodySteps hbodies).append rfl
  | connectionWindow ht hid hadd hbodies => exact nil.append (bodySteps hbodies)
  | windowRefused => exact streamFailure _ _ _ _
  | streamWindow s ht hid hfind hadd hbody => exact nil.append (bodyStep hbody)
  | continuationBlock s ht hexp hid hfind hend hblock => exact of_reset hblock.outbound
  | _ => exact nil

/-- Only `start` announces settings. -/
theorem actionStep {x : Action} (h : ActionStep p x p' r) (hstarted : p.started = true) :
    NoSettings r.outbound := by
  cases h with
  | started h =>
    rw [hstarted] at h
    cases h
  | opened request rehash hcan hvalid hroom hpos hmax hbody =>
    exact (requestHeaderFrames p request).append (bodyStep hbody)
  | cancelled => exact streamFailure _ _ _ _
  | closed => exact closeResult p
  | frame f hopen hup hframe => exact frameStep hframe
  | _ => exact nil

end NoSettings

/-! ## One step -/

namespace ProtocolState

variable {p p' : ProtocolState} {s : Stream} {r : ProtocolStepResult} {f : RawFrame} {a : Action}

/-- WINDOW_UPDATE frames go to the connection and to live streams. -/
theorem FrameStep.creditOn_eq_zero (hstep : FrameStep p f p' r) {id : StreamId} (h0 : id ≠ 0)
    (hid : id ∉ p.streams.keys) : creditOn id r.outbound = 0 := by
  by_cases ht : f.header.type = .data
  · cases hstep with
    | reported h => exact h.plain.noCredit.creditOn id
    | connectionFailed hv hd hpre => exact (noCredit_connectionFailed _ hpre).creditOn id
    | dataRefused => exact (plain_streamFailure _ _ _ _).noCredit.creditOn id
    | dataOnRemoved => rw [creditOn_refreshFrames, if_neg (Ne.symm h0)]
    | dataOnBodiless => exact (plain_streamFailure _ _ _ _).noCredit.creditOn id
    | dataStored s _ hfind hopen hfinal htake hbody hend =>
      have hne : f.header.streamId ≠ id := fun h => hid (h ▸ KeyedTable.mem_keys_of_find? hfind)
      rw [ProtocolStepResult.outbound_merge, creditOn_append, creditOn_append,
        creditOn_refreshFrames, creditOn_refreshFrames, if_neg (Ne.symm h0), if_neg hne,
        (plain_ending hend).noCredit.creditOn]
    | _ => simp_all
  · exact (hstep.noCredit ht).creditOn id

/-- The streams that an ended or continued response leaves: the others, and its own with the same
window. -/
theorem mem_of_ending {e : Bool} (h : Ending p s e p' r) {u : Stream}
    (hu : u ∈ p'.streams.entries) : (u ∈ p.streams.entries ∧ u.streamId ≠ s.streamId) ∨
      (u.streamId = s.streamId ∧ u.inflow = s.inflow) := by
  have hset : ∀ s' : Stream, s'.streamId = s.streamId → s'.inflow = s.inflow →
      u ∈ (p.streams.set s').entries → (u ∈ p.streams.entries ∧ u.streamId ≠ s.streamId) ∨
        (u.streamId = s.streamId ∧ u.inflow = s.inflow) := by
    intro s' hid hflow hmem
    rcases KeyedTable.mem_set.1 hmem with ⟨rfl, -⟩ | ⟨hmem, hne⟩
    · exact Or.inr ⟨hid, hflow⟩
    · exact Or.inl ⟨hmem, hid ▸ hne⟩
  cases h with
  | goesOn => exact hset s rfl rfl hu
  | mismatch => exact Or.inl (KeyedTable.mem_erase.1 hu)
  | finished => exact Or.inl (KeyedTable.mem_erase.1 hu)
  | answered => exact hset s.answered rfl rfl hu

/-- The record goes back to a stream of the table with the same receive window. -/
def SameInflow (t : StreamTable) (u : Stream) : Prop :=
  ∃ s ∈ t.entries, s.streamId = u.streamId ∧ u.inflow = s.inflow

theorem keptByEmission_sameInflow (t : StreamTable) : KeptByEmission (SameInflow t) :=
  ⟨fun _ _ h _ _ _ => h, fun _ _ h _ _ _ _ => h⟩

theorem keptByHeaders_sameInflow (t : StreamTable) : KeptByHeaders (SameInflow t) where
  answered := fun _ h _ => h
  openBlock := fun _ _ _ h _ => h
  withFragment := fun _ _ h => h
  endBlock := fun _ _ h => h
  withInformational := fun _ _ h => h
  withHeaders := fun _ _ _ h _ _ => h
  withTrailers := fun _ _ _ h _ => h

theorem allStreams_sameInflow (t : StreamTable) : AllStreams (SameInflow t) t :=
  fun s hs => ⟨s, hs, rfl, rfl⟩

/-- The window of a stream shrinks by at most what the stream receives, besides what is
announced. -/
theorem FrameStep.streamCredit (hstep : FrameStep p f p' r) (hp : p.Sound) (htidy : p.Tidy)
    {u : Stream} (hu : u ∈ p'.streams.entries) : ∃ s ∈ p.streams.entries,
      s.streamId = u.streamId ∧ s.inflow.avail + creditOn u.streamId r.outbound ≤
        u.inflow.avail + receivedDataOn u.streamId ⟨p, .receiveFrame f, r⟩ := by
  have hnonneg : (0 : Int) ≤ receivedDataOn u.streamId ⟨p, .receiveFrame f, r⟩ := Int.natCast_nonneg _
  -- a stream with the window it had, to which nothing is announced
  have hsame : SameInflow p.streams u → creditOn u.streamId r.outbound = 0 → ∃ s ∈ p.streams.entries,
      s.streamId = u.streamId ∧ s.inflow.avail + creditOn u.streamId r.outbound ≤
        u.inflow.avail + receivedDataOn u.streamId ⟨p, .receiveFrame f, r⟩ := by
    rintro ⟨s, hs, hid, hflow⟩ hcredit
    refine ⟨s, hs, hid, ?_⟩
    rw [hcredit, hflow]
    push_cast
    omega
  by_cases ht : f.header.type = .data
  · cases hstep with
    | reported h => exact hsame ⟨u, hu, rfl, rfl⟩ (h.plain.noCredit.creditOn _)
    | connectionFailed => cases hu
    | dataRefused =>
      exact hsame ⟨u, (KeyedTable.mem_erase.1 hu).1, rfl, rfl⟩
        ((plain_streamFailure _ _ _ _).noCredit.creditOn _)
    | dataOnRemoved =>
      refine hsame ⟨u, hu, rfl, rfl⟩ ?_
      have hodd := htidy.odd _ (KeyedTable.key_mem_keys hu)
      rw [creditOn_refreshFrames, if_neg]
      intro h0
      rw [← h0] at hodd
      cases hodd
    | dataOnBodiless =>
      exact hsame ⟨u, (KeyedTable.mem_erase.1 hu).1, rfl, rfl⟩
        ((plain_streamFailure _ _ _ _).noCredit.creditOn _)
    | @dataStored s conn inflow _ r₁ _ hfind hopen hfinal htake hbody hend =>
      have hkey : s.streamId = f.header.streamId := KeyedTable.key_of_find? hfind
      have hzero : (0 : StreamId) ≠ u.streamId := by
        intro h0
        have hodd : u.streamId % 2 = 1 := by
          rcases mem_of_ending hend hu with ⟨hmem, -⟩ | ⟨hid, -⟩
          · exact htidy.odd _ (KeyedTable.key_mem_keys hmem)
          · rw [hid]
            exact htidy.odd s.streamId (KeyedTable.key_mem_keys (KeyedTable.mem_of_find? hfind))
        rw [← h0] at hodd
        cases hodd
      have hcredit : ∀ m n : Int, creditOn u.streamId (refreshFrames 0 m ++
          refreshFrames f.header.streamId n ++ r₁.outbound) =
            if f.header.streamId = u.streamId then n.toNat else 0 := by
        intro m n
        rw [creditOn_append, creditOn_append, creditOn_refreshFrames, creditOn_refreshFrames,
          if_neg hzero, (plain_ending hend).noCredit.creditOn, Nat.zero_add, Nat.add_zero]
      rcases mem_of_ending hend hu with ⟨hmem, hne⟩ | ⟨hid, hflow⟩
      · refine hsame ⟨u, hmem, rfl, rfl⟩ ((hcredit _ _).trans (if_neg ?_))
        intro h
        exact hne (h.symm.trans hkey.symm)
      · -- the stream that receives the bytes takes them and gives them back
        obtain ⟨hfit, -, rfl⟩ := InFlow.takeInflows_eq_some.1 htake
        have hid' : u.streamId = f.header.streamId := hid.trans hkey
        have hs := KeyedTable.mem_of_find? hfind
        obtain ⟨h1, -, h3, -⟩ := InFlow.add_spec
          (f := { s.inflow with avail := s.inflow.avail - f.header.payloadLength })
          (n := f.header.payloadLength) (by omega) (hp.inflow s hs).unsnt_nonneg
          (InFlow.add_of_take (hp.inflow s hs) (by omega))
        have hgot : ∀ o, receivedDataOn u.streamId ⟨p, .receiveFrame f, o⟩ =
            f.header.payloadLength := fun _ => if_pos ⟨ht, hid'.symm⟩
        refine ⟨s, hs, hid.symm, ?_⟩
        rw [ProtocolStepResult.outbound_merge, hcredit, if_pos hid'.symm, hgot, hflow]
        show s.inflow.avail + ((InFlow.add _ _).1.toNat : Int) ≤ (InFlow.add _ _).2.avail + _
        rw [h3, Int.toNat_of_nonneg h1]
        simp only
        omega
    | _ => simp_all
  · refine hsame ?_ ((hstep.noCredit ht).creditOn _)
    exact AllStreams.frameStep_of_data (keptByEmission_sameInflow _) (keptByHeaders_sameInflow _)
      (fun _ _ h => h) (fun hdata => absurd hdata ht) hstep (allStreams_sameInflow _) u hu

theorem openedStream_inflow (p : ProtocolState) (request : Request) :
    (p.openedStream request).inflow = ({} : InFlow).init (wrapInt32 p.initialWindowSize) := rfl

/-- The streams after a step: those that were there, with windows that shrink by at most what has
been received, and the one that a request opens. -/
theorem ActionStep.streamCredit (hstep : ActionStep p a p' r) (hp : p.Sound) (htidy : p.Tidy)
    {u : Stream} (hu : u ∈ p'.streams.entries) :
    (∃ s ∈ p.streams.entries, s.streamId = u.streamId ∧
        s.inflow.avail + creditOn u.streamId r.outbound ≤
          u.inflow.avail + receivedDataOn u.streamId ⟨p, a, r⟩) ∨
      ∃ request rehash, a = .submitRequest request rehash ∧ p.canSubmitRequests = true ∧
        u.streamId = p.nextStreamId ∧ u.inflow.avail = wrapInt32 p.initialWindowSize := by
  -- a local action gives no credit
  have hsame : (∀ f, a ≠ .receiveFrame f) → u ∈ p.streams.entries →
      ∃ s ∈ p.streams.entries, s.streamId = u.streamId ∧
        s.inflow.avail + creditOn u.streamId r.outbound ≤
          u.inflow.avail + receivedDataOn u.streamId ⟨p, a, r⟩ := by
    intro ha hmem
    refine ⟨u, hmem, rfl, ?_⟩
    rw [(hstep.noCredit ha).creditOn]
    push_cast
    omega
  cases hstep with
  | opened request rehash hcan hvalid hroom hpos hmax hbody =>
    obtain ⟨s, hs, hid, hflow⟩ := AllStreams.bodyStep (keptByEmission_sameInflow _) hbody
      (allStreams_sameInflow _) ⟨p.openedStream request, KeyedTable.mem_of_find? (by
        rw [find?_opening, if_pos rfl]), rfl, rfl⟩ u hu
    rcases mem_opening hs with rfl | hmem
    · rw [openedStream_inflow] at hflow
      exact Or.inr ⟨request, rehash, rfl, hcan, hid.symm, by rw [hflow, InFlow.init]⟩
    · refine Or.inl ⟨s, hmem, hid, ?_⟩
      have hquiet := (p.plain_requestHeaderFrames request).noCredit.append (noCredit_bodyStep hbody)
      rw [hquiet.creditOn, hflow]
      push_cast
      omega
  | cancelled => exact Or.inl (hsame (by simp) (KeyedTable.mem_erase.1 hu).1)
  | closed => cases hu
  | transportLost => cases hu
  | frameIgnored f =>
    refine Or.inl ⟨u, hu, rfl, ?_⟩
    have hzero : creditOn u.streamId ([] : List OutboundBuffer) = 0 := rfl
    rw [hzero]
    push_cast
    omega
  | frame f hopen hup hframe => exact Or.inl (hframe.streamCredit hp htidy hu)
  | _ => exact Or.inl (hsame (by simp) hu)

/-- Nothing is announced on a stream that is not in the table. -/
theorem ActionStep.creditOn_eq_zero (hstep : ActionStep p a p' r) {id : StreamId} (h0 : id ≠ 0)
    (hid : id ∉ p.streams.keys) : creditOn id r.outbound = 0 := by
  cases a with
  | receiveFrame f =>
    cases hstep with
    | frameIgnored => rfl
    | frame _ hopen hup hframe => exact hframe.creditOn_eq_zero h0 hid
  | _ => exact (hstep.noCredit (by simp)).creditOn id

/-- The member for the initial window stays within the bound of the setting. -/
theorem ActionStep.initialWindowSize_le (hstep : ActionStep p a p' r) (hopen : p'.closed = false)
    (hp : p.initialWindowSize ≤ Http2SettingInfo.maximumWindowSize) :
    p'.initialWindowSize ≤ Http2SettingInfo.maximumWindowSize := by
  cases hstep with
  | opened request rehash hcan hvalid hroom hpos hmax hbody =>
      rw [hbody.eq_with]
      exact hp
  | frame f hwas hup hframe =>
    cases hframe with
    | connectionFailed => cases hopen
    | dataStored s ht hfind hok hfinal htake hbody hend =>
      rw [hend.eq_with]
      exact hp
    | headersBlock s ht hfind hok hend hblock =>
      rw [hblock.eq_with]
      exact hp
    | @settingsApplied p₁ _ _ ht hack happ hbodies =>
      rw [hbodies.eq_with]
      have hle := initialWindowSize_le_applyPeerSettings f.settings
        { p with gotPeerSettings := true } hp
      rwa [happ] at hle
    | connectionWindow ht hid hadd hbodies =>
      rw [hbodies.eq_with]
      exact hp
    | streamWindow s ht hid hfind hadd hbody =>
      rw [hbody.eq_with]
      exact hp
    | continuationBlock s ht hexp hid hfind hend hblock =>
      rw [hblock.eq_with]
      exact hp
    | _ => exact hp
  | _ => exact hp

end ProtocolState

/-! ## The client's counts cover the peer's -/

@[simp] theorem ownSettings_append (a b : List OutboundBuffer) :
    ownSettings (a ++ b) = ownSettings a ++ ownSettings b :=
  List.flatMap_append

/-- The client's windows are no smaller than the peer believes them to be. -/
structure Covered (tr : List Entry) (p : ProtocolState) : Prop where
  connection : (65535 : Int) + creditOn 0 (outboundOf tr) ≤
    p.connectionInflow.avail + received tr
  streams : AllStreams (fun s => (advertisedWindow (outboundOf tr) : Int) +
    creditOn s.streamId (outboundOf tr) ≤ s.inflow.avail + receivedOn s.streamId tr) p.streams
  unopened : ∀ id ≠ 0, p.nextStreamId ≤ id → creditOn id (outboundOf tr) = 0
  unstarted : p.started = false → p.streams.keys = []
  initial : p.initialWindowSize ≤ Http2SettingInfo.maximumWindowSize

namespace Covered

variable {tr : List Entry} {p p' : ProtocolState} {a : Action} {r : ProtocolStepResult}

/-- A step keeps the cover as long as the connection stays open. -/
theorem step (hp : Covered tr p) (hsound : p.Sound) (htidy : p.Tidy)
    (hlost : p.transportClosed = true → p.closed = true) (hstep : ActionStep p a p' r)
    (hkept : ∀ request rehash, a = .submitRequest request rehash →
      advertisedWindow (outboundOf tr) ≤ p.initialWindowSize) (hopen : p'.closed = false) :
    Covered (tr ++ [⟨p, a, r⟩]) p' := by
  have hcredit : ∀ id, creditOn id (outboundOf (tr ++ [⟨p, a, r⟩])) =
      creditOn id (outboundOf tr) + creditOn id r.outbound := fun id => by
    simp [creditOn_append]
  have hnext : 0 < p.nextStreamId := Nat.pos_of_ne_zero fun h0 => by
    have hodd := htidy.next_odd
    rw [h0] at hodd
    cases hodd
  -- before the start there are no streams
  have hbefore : p.started = false → ∀ u, u ∉ p'.streams.entries := by
    intro hnot u hu
    rcases hstep.streamCredit hsound htidy hu with ⟨s, hs, -⟩ | ⟨_, _, -, hcan, -⟩
    · have hmem := KeyedTable.key_mem_keys hs
      rw [hp.unstarted hnot] at hmem
      cases hmem
    · simp [canSubmitRequests, hnot] at hcan
  refine ⟨?_, fun u hu => ?_, fun id h0 hid => ?_, fun hnot => ?_,
    hstep.initialWindowSize_le hopen hp.initial⟩
  -- the window of the connection
  · have h := (hstep.credit hsound htidy hlost hopen).avail
    have hconn := hp.connection
    rw [hcredit, received_snoc]
    push_cast
    omega
  -- the windows of the streams
  · cases hstarted : p.started with
    | false => exact absurd hu (hbefore hstarted u)
    | true =>
      have hadvertised : advertisedWindow (outboundOf (tr ++ [⟨p, a, r⟩])) =
          advertisedWindow (outboundOf tr) := by
        have hnone : ownSettings r.outbound = [] := NoSettings.actionStep hstep hstarted
        simp [advertisedWindow, hnone]
      rw [hadvertised, hcredit, receivedOn_snoc]
      rcases hstep.streamCredit hsound htidy hu with ⟨s, hs, hid, hle⟩ |
        ⟨request, rehash, rfl, -, hid, havail⟩
      · have hstream := hp.streams s hs
        simp only [hid] at hstream
        push_cast
        omega
      · -- nothing has been announced yet on the stream of a new request
        have hfresh := hp.unopened p.nextStreamId hnext.ne' (Nat.le_refl _)
        have hzero : creditOn u.streamId r.outbound = 0 :=
          (hstep.noCredit (by simp)).creditOn _
        have hwrap : wrapInt32 p.initialWindowSize = p.initialWindowSize := by
          have hle := hp.initial
          refine wrapInt32_of_range ?_ ?_ <;>
            simp only [int32Min, int32Max, Http2SettingInfo.maximumWindowSize] at * <;> omega
        have hadv := hkept request rehash rfl
        rw [hzero, havail, hwrap, hid, hfresh]
        push_cast
        omega
  -- ids that are not given out have no credit
  · have hid' := Nat.le_trans hstep.next_le hid
    rw [hcredit, hp.unopened id h0 hid', hstep.creditOn_eq_zero h0 fun hmem =>
      absurd (htidy.lt_next id hmem) (Nat.not_lt.2 hid')]
  · have hnot' : p.started = false := by
      by_contra h
      rw [hstep.started_of_started (by simpa using h)] at hnot
      cases hnot
    refine List.eq_nil_iff_forall_not_mem.2 fun id hid => ?_
    obtain ⟨u, hu, -⟩ := KeyedTable.mem_keys.1 hid
    exact hbefore hnot' u hu

end Covered

/-! ## DATA that fits -/

namespace ProtocolState

variable {p p' : ProtocolState} {r : ProtocolStepResult} {f : RawFrame} {code : ErrorCode}

/-- A DATA frame that fails the connection for its size exceeds a window, or it is empty and the
window of the connection is used up. -/
theorem Violation.code_ne (hv : Violation p f code) (ht : f.header.type = .data)
    (hconn : (f.header.payloadLength : Int) ≤ p.connectionInflow.avail)
    (hstream : ∀ s, p.streams.find? f.header.streamId = some s →
      (f.header.payloadLength : Int) ≤ s.inflow.avail)
    (hempty : p.streams.find? f.header.streamId = none → f.header.payloadLength = 0 →
      0 < p.connectionInflow.avail) : code.toNat ≠ ErrorCode.flowControlError.toNat := by
  have htype : ∀ type, f.header.type = type → type ≠ .data →
      code.toNat ≠ ErrorCode.flowControlError.toNat := by
    intro type h hne
    exact absurd (h.symm.trans ht) hne
  cases hv with
  | beforeSettings | interrupting | streamId | neverOpened => decide
  | oversized | length => decide
  | padding hk h hcode => rcases hcode with rfl | rfl <;> decide
  | idle h => rcases h with h | h <;> exact htype _ h (by decide)
  | dataOverConnection _ hnone htake =>
    have hfits : 0 < p.connectionInflow.avail := by
      rcases Nat.eq_zero_or_pos f.header.payloadLength with h0 | hpos
      · exact hempty hnone h0
      · omega
    rw [InFlow.take_eq_some.2 ⟨hfits, hconn, rfl⟩] at htake
    cases htake
  | dataOverWindow s _ hfind hopen hfinal htake =>
    rw [InFlow.takeInflows_eq_some.2 ⟨Or.inr ⟨hconn, hstream s hfind⟩, rfl, rfl⟩] at htake
    cases htake
  | headersTooLarge s h => exact htype _ h (by decide)
  | headersUndecodable s h => exact htype _ h (by decide)
  | ghostHeadersUndecodable h => exact htype _ h (by decide)
  | unexpectedContinuation h => exact htype _ h (by decide)
  | continuationTooLarge s h => exact htype _ h (by decide)
  | continuationUndecodable s h => exact htype _ h (by decide)
  | ghostContinuationTooLarge h => exact htype _ h (by decide)
  | ghostContinuationUndecodable h => exact htype _ h (by decide)
  | settings h => exact htype _ h (by decide)
  | pushPromise h => exact htype _ h (by decide)
  | zeroIncrement h => exact htype _ h (by decide)
  | windowOverflow h => exact htype _ h (by decide)

/-- DATA that fits the client's windows raises no FLOW_CONTROL_ERROR. -/
theorem FrameStep.not_charged (hstep : FrameStep p f p' r) (ht : f.header.type = .data)
    (hconn : (f.header.payloadLength : Int) ≤ p.connectionInflow.avail)
    (hstream : ∀ s, p.streams.find? f.header.streamId = some s →
      (f.header.payloadLength : Int) ≤ s.inflow.avail)
    (hempty : p.streams.find? f.header.streamId = none → f.header.payloadLength = 0 →
      0 < p.connectionInflow.avail) : ¬ RaisesFlowControl r := by
  cases hstep with
  | reported h => cases h <;> simp_all
  | connectionFailed hv hd hpre =>
    have hcode := hv.code_ne ht hconn hstream hempty
    rw [raisesFlowControl_merge]
    rintro (hraises | hraises)
    · refine not_raises_of_quiet ?_ ?_ hraises <;> rcases hpre with rfl | ⟨promised, rfl⟩ <;>
        simp [ProtocolEvent.raised]
    · exact not_raises_connectionFailure _ hcode hraises
  | dataRefused s _ hfind h =>
    refine not_raises_streamFailure _ _ ?_
    rcases h with ⟨-, rfl⟩ | ⟨-, rfl⟩ <;> decide
  | dataOnRemoved => exact not_raises_of_quiet (by simp) (refreshFrames_raised _ _)
  | dataOnBodiless => exact not_raises_streamFailure _ _ (by decide)
  | dataStored s _ hfind hopen hfinal htake hbody hend =>
    rw [raisesFlowControl_merge]
    rintro (hraises | hraises)
    · refine not_raises_of_quiet (by simp) (fun b hb => ?_) hraises
      exact (List.mem_append.1 hb).elim (refreshFrames_raised _ _ b) (refreshFrames_raised _ _ b)
    · exact not_raises_ending hend hraises
  | _ => simp_all

end ProtocolState

/-! ## Runs -/

section Runs

variable {config : ClientConfig} {tr : List Entry} {p : ProtocolState} {e : Entry}

/-- While the connection is open, the client's windows cover the peer's. -/
theorem covered_of_runs (h : Runs (ofConfig config) tr p)
    (hmax : config.initialWindowSize ≤ Http2SettingInfo.maximumWindowSize)
    (hmin : Http2SettingInfo.defaultInitialWindowSize ≤ config.initialWindowSize)
    (hkept : OwnWindowKept tr) (hopen : p.closed = false) : Covered tr p := by
  refine runs_invariant_open (I := fun tr p => OwnWindowKept tr → Covered tr p) ?_ ?_ h hopen hkept
  · intro _
    refine ⟨?_, .empty, fun _ _ _ => rfl, fun _ => rfl, hmax⟩
    have hwrap : wrapInt32 config.initialWindowSize = config.initialWindowSize := by
      refine wrapInt32_of_range ?_ ?_ <;>
        simp only [int32Min, int32Max, Http2SettingInfo.maximumWindowSize] at * <;> omega
    show (65535 : Int) + 0 ≤ wrapInt32 config.initialWindowSize + 0
    rw [hwrap]
    simp only [Http2SettingInfo.defaultInitialWindowSize] at hmin
    omega
  · intro tr p a p' r hr _ hI hstep hopen hkept
    refine (hI (Machine.Along.left hkept)).step (sound_of_runs hr) (tidy_of_runs hr)
      (closed_of_lost_transport hr) hstep ?_ hopen
    rintro request rehash rfl
    exact (Machine.along_snoc.1 hkept).2

/-- DATA that fits the windows the client has told the peer of raises no FLOW_CONTROL_ERROR, if the
configured window is at least the window that connections start with, no request is submitted under
a smaller window than advertised, and no empty DATA frame comes late. -/
theorem fitting_data_not_charged (h : Runs (ofConfig config) tr p)
    (hmax : config.initialWindowSize ≤ Http2SettingInfo.maximumWindowSize)
    (hmin : Http2SettingInfo.defaultInitialWindowSize ≤ config.initialWindowSize)
    (hkept : OwnWindowKept tr) (hempty : ∀ e ∈ tr, ¬ e.emptyDataAtLimit) (hfit : Compliant tr) :
    ∀ e ∈ tr, ¬ e.chargesData := by
  intro e he hcharged
  have hlimit := hempty e he
  obtain ⟨before, after, s', rfl, hr, hact, -⟩ := h.entry he
  have hstep := actionStep_of_act (sound_of_runs hr) hact
  rcases e with ⟨p, a, r⟩
  cases a with
  | receiveFrame f =>
    obtain ⟨ht, hraises⟩ := hcharged
    cases hstep with
    | frameIgnored => simp [RaisesFlowControl] at hraises
    | frame _ hopen hup hframe =>
      have hcovered := covered_of_runs hr hmax hmin (Machine.Along.left hkept) hopen
      obtain ⟨hstream, hconn⟩ := hfit.at_entry ht
      have hconn' := hcovered.connection
      refine hframe.not_charged ht (by omega) (fun s hs => ?_) (fun hnone h0 => ?_) hraises
      · have hwindow := hcovered.streams s (KeyedTable.mem_of_find? hs)
        have hkey : s.streamId = f.header.streamId := KeyedTable.key_of_find? hs
        simp only [hkey] at hwindow
        omega
      · exact not_le.1 fun hle => hlimit ⟨ht, h0, hnone, hle⟩
  | _ => exact hcharged

end Runs

/-- Five bytes of a response fit the windows of a client with the default configuration. -/
theorem fitting_data_not_charged_of_response :
    ∃ tr p, Runs (ofConfig {}) tr p ∧ received tr = 5 ∧ ∀ e ∈ tr, ¬ e.chargesData := by
  have hrun : (Machine.run act (ofConfig {}) [.start, .receiveFrame emptySettingsFrame,
      .submitRequest getRequest (.id _), .receiveFrame (okResponseFrame 4),
      .receiveFrame dataOnFirstStream]).map (fun x => (decide (OwnWindowKept x.2),
        decide (∀ e ∈ x.2, ¬ Entry.emptyDataAtLimit e), decide (Compliant x.2), received x.2)) =
          .ok (true, true, true, 5) := by decide +kernel
  obtain ⟨p, tr, hr, -, hresult⟩ := Machine.exists_runs_of_map hrun
  simp only [Prod.mk.injEq, decide_eq_true_eq] at hresult
  obtain ⟨hkept, hempty, hfit, hfive⟩ := hresult
  exact ⟨tr, p, hr, hfive,
    fitting_data_not_charged hr (by decide) (by decide) hkept hempty hfit⟩

/-- After the peer has announced an initial window of 0, five bytes that fit the advertised windows
raise FLOW_CONTROL_ERROR. -/
theorem own_window_overwritten :
    ∃ tr p, Runs (ofConfig {}) tr p ∧ Compliant tr ∧ ∃ e ∈ tr, e.chargesData := by
  have hrun : (Machine.run act (ofConfig {}) [.start, .receiveFrame (settingsFrame 4 0),
      .submitRequest getRequest (.id _), .receiveFrame (okResponseFrame 4),
      .receiveFrame dataOnFirstStream]).map (fun x => (decide (Compliant x.2),
        decide (∃ e ∈ x.2, Entry.chargesData e))) = .ok (true, true) := by decide +kernel
  obtain ⟨p, tr, hr, -, hresult⟩ := Machine.exists_runs_of_map hrun
  simp only [Prod.mk.injEq, decide_eq_true_eq] at hresult
  exact ⟨tr, p, hr, hresult⟩

end Chttp2
