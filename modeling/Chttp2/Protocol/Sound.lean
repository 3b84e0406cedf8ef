import Chttp2.Protocol.Streams

/-!
# Soundness along runs

`Sound` is kept by every step (`ActionStep.sound`), so it holds in every state of a run
(`sound_of_runs`). `runs_invariant` and `runs_invariant_of` are the induction rules that the
properties of runs are proved with.
-/

set_option autoImplicit false

namespace Chttp2

/-! ## Soundness -/

/-- The part of `Sound` about one stream. -/
def Stream.Sound (s : Stream) : Prop := s.inflow.Ok ∧ s.StatusOk

theorem keptByEmission_sound : KeptByEmission Stream.Sound :=
  ⟨fun _ _ h _ _ _ => h, fun _ _ h _ _ _ _ => h⟩

theorem keptByReceiving_sound : KeptByReceiving Stream.Sound where
  answered := fun _ h _ => ⟨h.1, -1, rfl⟩
  withData := by
    intro s conn conn' inflow n data h _ htake
    obtain ⟨hfit, -, rfl⟩ := InFlow.takeInflows_eq_some.1 htake
    exact ⟨InFlow.ok_take_add h.1 (by omega), h.2⟩
  openBlock := fun _ _ _ h _ => h
  withFragment := fun _ _ h => h
  endBlock := fun _ _ h => h
  withInformational := fun _ _ h => h
  withHeaders := by
    rintro s cl headers ⟨hflow, code, hcode⟩ _ hfields
    exact ⟨hflow, Response.getStatusCode_append hcode hfields⟩
  withTrailers := fun _ _ _ h _ => h

namespace ProtocolState

variable {p p' : ProtocolState} {s : Stream} {r : ProtocolStepResult}

theorem sound_iff : p.Sound ↔ p.connectionInflow.Ok ∧ AllStreams Stream.Sound p.streams := by
  constructor
  · intro h
    exact ⟨h.connectionInflow, fun s hs => ⟨h.inflow s hs, h.status s hs⟩⟩
  · rintro ⟨h1, h2⟩
    exact ⟨h1, fun s hs => (h2 s hs).1, fun s hs => (h2 s hs).2⟩

/-- The window of the connection after a frame. -/
theorem FrameStep.connectionInflow_ok {f : RawFrame} (hstep : FrameStep p f p' r)
    (hp : p.connectionInflow.Ok) : p'.connectionInflow.Ok := by
  cases hstep with
  | connectionFailed _ hd => exact hd.connectionInflow ▸ hp
  | dataOnRemoved ht hnone hid htake =>
    obtain ⟨-, hle, rfl⟩ := InFlow.take_eq_some.1 htake
    exact InFlow.ok_take_add hp (Or.inr hle)
  | dataOnBodiless s ht hfind hopen hfinal htake =>
    obtain ⟨-, rfl, -⟩ := InFlow.takeInflows_eq_some.1 htake
    exact InFlow.ok_take hp _
  | dataStored s ht hfind hopen hfinal htake hbody hend =>
    obtain ⟨hfit, rfl, rfl⟩ := InFlow.takeInflows_eq_some.1 htake
    rw [hend.eq_with]
    exact InFlow.ok_take_add hp (by omega)
  | headersBlock s ht hfind hopen hend h =>
    rw [h.eq_with]
    exact hp
  | @settingsApplied p₁ _ _ ht hack happ hbodies =>
    have htuned : p₁.connectionInflow.Ok :=
      (tuned_of_settings happ).disturbed.connectionInflow ▸ hp
    rw [hbodies.eq_with]
    exact htuned
  | connectionWindow ht hid hadd hbodies =>
    rw [hbodies.eq_with]
    exact hp
  | streamWindow s ht hid hfind hadd hbody =>
    rw [hbody.eq_with]
    exact hp
  | continuationBlock s ht hexp hid hfind hend h =>
    rw [h.eq_with]
    exact hp
  | _ => exact hp

theorem FrameStep.sound {f : RawFrame} (hstep : FrameStep p f p' r) (hp : p.Sound) : p'.Sound := by
  rw [sound_iff] at hp ⊢
  exact ⟨hstep.connectionInflow_ok hp.1,
    hp.2.frameStep keptByEmission_sound keptByReceiving_sound (fun _ _ h => h) hstep⟩

/-! ## Members that no frame changes -/

/-- The members of the connection that a received frame leaves alone. -/
structure Steady (p p' : ProtocolState) : Prop where
  nextStreamId : p'.nextStreamId = p.nextStreamId
  lastPeerStreamId : p'.lastPeerStreamId = p.lastPeerStreamId
  started : p'.started = p.started
  transportClosed : p'.transportClosed = p.transportClosed
  localMaxFrameSize : p'.localMaxFrameSize = p.localMaxFrameSize
  decodeTableLimit : p'.hpack.decodeTableLimit = p.hpack.decodeTableLimit

section Steady

variable {p p' p'' : ProtocolState} {s : Stream} {r : ProtocolStepResult}

theorem Steady.refl (p : ProtocolState) : Steady p p := ⟨rfl, rfl, rfl, rfl, rfl, rfl⟩

theorem Steady.trans (h : Steady p p') (h' : Steady p' p'') : Steady p p'' :=
  ⟨h'.1.trans h.1, h'.2.trans h.2, h'.3.trans h.3, h'.4.trans h.4, h'.5.trans h.5, h'.6.trans h.6⟩

theorem Disturbed.steady (h : Disturbed p p') : Steady p p' :=
  ⟨h.nextStreamId, h.lastPeerStreamId, h.started, h.transportClosed, h.localMaxFrameSize,
    h.decodeTableLimit⟩

theorem steady_bodyStep (hstep : BodyStep p s p' r) : Steady p p' := by
  rw [hstep.eq_with]
  exact ⟨rfl, rfl, rfl, rfl, rfl, rfl⟩

theorem steady_bodySteps {ids : List StreamId} (hsteps : BodySteps ids p p' r) : Steady p p' := by
  rw [hsteps.eq_with]
  exact ⟨rfl, rfl, rfl, rfl, rfl, rfl⟩

theorem steady_ending {b : Bool} (hend : Ending p s b p' r) : Steady p p' := by
  rw [hend.eq_with]
  exact ⟨rfl, rfl, rfl, rfl, rfl, rfl⟩

theorem BlockStep.steady {b : Bool} (hstep : BlockStep p s b p' r) : Steady p p' := by
  rw [hstep.eq_with]
  exact ⟨rfl, rfl, rfl, rfl, rfl, rfl⟩

theorem FrameStep.steady {f : RawFrame} (hstep : FrameStep p f p' r) : Steady p p' := by
  cases hstep with
  | reported => exact .refl p
  | connectionFailed _ hd => exact hd.steady.trans ⟨rfl, rfl, rfl, rfl, rfl, rfl⟩
  | dataStored s ht hfind hopen hfinal htake hbody hend =>
    have h := steady_ending hend
    exact ⟨h.1, h.2, h.3, h.4, h.5, h.6⟩
  | headersBlock s ht hfind hopen hend h => exact h.steady
  | @settingsApplied p₁ _ _ ht hack h hbodies =>
    have htuned := tuned_of_settings h
    have h := htuned.disturbed.steady.trans (steady_bodySteps hbodies)
    exact ⟨h.1, h.2, h.3, h.4, h.5, h.6⟩
  | connectionWindow ht hid hadd hbodies =>
    have h := steady_bodySteps hbodies
    exact ⟨h.1, h.2, h.3, h.4, h.5, h.6⟩
  | streamWindow s ht hid hfind hadd hbody =>
    have h := steady_bodyStep hbody
    exact ⟨h.1, h.2, h.3, h.4, h.5, h.6⟩
  | continuationBlock s ht hexp hid hfind hend h =>
    have h := h.steady
    exact ⟨h.1, h.2, h.3, h.4, h.5, h.6⟩
  | _ => exact ⟨rfl, rfl, rfl, rfl, rfl, rfl⟩

end Steady

theorem sound_openedStream (p : ProtocolState) (request : Request) :
    (p.openedStream request).Sound :=
  ⟨InFlow.ok_init (wrapInt32_range _).2, -1, rfl⟩

/-- The window of the connection after a step. -/
theorem ActionStep.connectionInflow_ok {a : Action} (hstep : ActionStep p a p' r)
    (hp : p.connectionInflow.Ok) : p'.connectionInflow.Ok := by
  cases hstep with
  | opened request rehash hcan hvalid hroom hpos hmax hbody =>
    rw [hbody.eq_with]
    exact hp
  | frame f hopen hup h => exact h.connectionInflow_ok hp
  | _ => exact hp

/-- Every step keeps soundness. -/
theorem ActionStep.sound {a : Action} (hstep : ActionStep p a p' r) (hp : p.Sound) : p'.Sound := by
  rw [sound_iff] at hp ⊢
  exact ⟨hstep.connectionInflow_ok hp.1, hp.2.actionStep keptByEmission_sound
    keptByReceiving_sound (fun _ _ h => h) p.sound_openedStream hstep⟩

theorem ActionStep.started_of_started {a : Action} (hstep : ActionStep p a p' r)
    (hstarted : p.started = true) : p'.started = true := by
  cases hstep with
  | started => rfl
  | opened request rehash hcan hvalid hroom hpos hmax hbody =>
    exact (steady_bodyStep hbody).started.trans hstarted
  | frame f hopen hup h => exact h.steady.started.trans hstarted
  | _ => exact hstarted

theorem sound_ofConfig (config : ClientConfig) : (ofConfig config).Sound :=
  sound_iff.2 ⟨InFlow.ok_init (wrapInt32_range _).2, .empty⟩

end ProtocolState

/-! ## Runs -/

section Runs

open ProtocolState

variable {config : ClientConfig} {tr : List Entry} {p p' : ProtocolState} {a : Action}
  {r : ProtocolStepResult}

/-- A successful step of a sound state is one of the cases. -/
theorem actionStep_of_act (hp : p.Sound) (h : p.act a = .ok (p', r)) : ActionStep p a p' r := by
  rcases act_cases hp a with ⟨q, o, heq, hstep⟩ | ⟨e, heq, -⟩
  · rw [h] at heq
    cases heq
    exact hstep
  · rw [h] at heq
    cases heq

theorem sound_of_runs (h : Runs (ofConfig config) tr p) : p.Sound :=
  h.invariant (I := fun _ p => p.Sound) (sound_ofConfig config)
    fun _ _ _ _ _ _ hp hact => (actionStep_of_act hp hact).sound hp

/-- Induction along the runs from a configuration whose entries all meet the condition `C`. -/
theorem runs_invariant_of {I : List Entry → ProtocolState → Prop} {C : Entry → Prop}
    (h0 : I [] (ofConfig config))
    (hstep : ∀ tr p a p' r, Runs (ofConfig config) tr p → I tr p → C ⟨p, a, r⟩ →
      ActionStep p a p' r → I (tr ++ [⟨p, a, r⟩]) p')
    (h : Runs (ofConfig config) tr p) (hC : ∀ e ∈ tr, C e) : I tr p :=
  h.invariant_of h0 (fun tr p a p' r hr hi hc hact =>
    hstep tr p a p' r hr hi hc (actionStep_of_act (sound_of_runs hr) hact)) hC

/-- Induction along the runs from a configuration. -/
theorem runs_invariant {I : List Entry → ProtocolState → Prop}
    (h0 : I [] (ofConfig config))
    (hstep : ∀ tr p a p' r, Runs (ofConfig config) tr p → I tr p → ActionStep p a p' r →
      I (tr ++ [⟨p, a, r⟩]) p')
    (h : Runs (ofConfig config) tr p) : I tr p :=
  h.invariant h0 fun tr p a p' r hr hi hact =>
    hstep tr p a p' r hr hi (actionStep_of_act (sound_of_runs hr) hact)

end Runs

end Chttp2
