import Chttp2.Protocol.Sound

/-!
# No input makes the protocol fail

A chunk of bytes is received as a run of single frames (`receiveFrames_refined`), so every run of
operations is a run of actions with the same events and the same outbound buffers
(`Http2Protocol.exists_runs_of_runs`). The only fault an execution can run into is a header block
that outgrows its buffer (`ok_or_overgrown_of_run`): no span is read out of range, no window is
overdrawn, and neither the Huffman decoder nor `std::stoi` meets an input that it is not prepared
for.
-/

set_option autoImplicit false

namespace Chttp2

namespace Http2Protocol

open ProtocolState

/-- What an operation amounts to: a run of actions that is reported as a whole, or the fault of a
header buffer that cannot grow. -/
def Refined (p : Http2Protocol) (x : Guarded (Http2Protocol × ProtocolStepResult)) : Prop :=
  (∃ p' r tr, x = .ok (p', r) ∧ Runs p.state tr p'.state ∧ eventsOf tr = r.events ∧
    outboundOf tr = r.outbound) ∨ ∃ e, x = .error e ∧ e.Overgrown

variable {p : Http2Protocol}

/-- Nothing happens. -/
theorem Refined.idle {frameCodec : FrameCodec} : Refined p (.ok ({ p with frameCodec }, {})) :=
  Or.inl ⟨_, _, [], rfl, .nil, rfl, rfl⟩

/-- A local operation is one action. -/
theorem Refined.lift (hp : p.state.Sound) (a : Action) : Refined p (p.lift (p.state.act a)) := by
  rcases act_cases hp a with ⟨state, r, heq, -⟩ | ⟨e, heq, he⟩
  · refine Or.inl ⟨{ p with state }, r, [⟨p.state, a, r⟩], ?_, .single heq, by simp, by simp⟩
    rw [Http2Protocol.lift, heq]
    rfl
  · refine Or.inr ⟨e, ?_, he⟩
    rw [Http2Protocol.lift, heq]
    rfl

/-- The frames of a chunk are received one after the other, up to the one that closes the
connection. -/
theorem receiveFrames_refined (fuel : Nat) :
    ∀ p : Http2Protocol, p.state.Sound → p.state.closed = false →
      p.state.transportClosed = false → Refined p (receiveFrames fuel p) := by
  induction fuel with
  | zero => exact fun p _ _ _ => .idle
  | succ fuel ih =>
    intro p hp hopen hup
    rcases p.frameCodec.tryPop_cases with hpop | ⟨f, codec, hpop, -⟩
    · simp only [receiveFrames, hpop, ok_bind]
      exact .idle
    simp only [receiveFrames, hpop, ok_bind]
    rcases receiveFrame_cases hp f with ⟨state, r, heq, hstep⟩ | ⟨e, heq, he⟩
    · have hact : p.state.act (.receiveFrame f) = .ok (state, r) := by
        simpa [act, hopen, hup] using heq
      have hrun := Machine.Runs.single hact
      rw [heq]
      simp only [ok_bind]
      by_cases hclosed : state.closed = true
      · rw [if_pos hclosed]
        exact Or.inl ⟨_, _, _, rfl, hrun, by simp, by simp⟩
      rw [if_neg hclosed]
      have hup' : state.transportClosed = false := hstep.steady.transportClosed.trans hup
      rcases ih ⟨codec, state⟩ (hstep.sound hp) (by simpa using hclosed) hup' with
        ⟨p', more, tr, hrest, hruns, hev, hout⟩ | ⟨e, hrest, he⟩
      · rw [hrest]
        exact Or.inl ⟨_, _, _, rfl, hrun.append hruns, by simp [hev], by simp [hout]⟩
      · rw [hrest]
        exact Or.inr ⟨e, rfl, he⟩
    · rw [heq]
      exact Or.inr ⟨e, rfl, he⟩

/-- Every operation is a run of actions. -/
theorem apply_refined (hp : p.state.Sound) (op : Op) : Refined p (p.apply op) := by
  cases op with
  | start => exact .lift hp .start
  | submitRequest request rehash => exact .lift hp (.submitRequest request rehash)
  | receiveBytes data =>
    simp only [apply, receiveBytes]
    by_cases hdead : (p.state.closed || p.state.transportClosed) = true
    · rw [if_pos hdead]
      exact .idle
    · rw [if_neg hdead]
      have h : p.state.closed = false ∧ p.state.transportClosed = false := by simpa using hdead
      exact receiveFrames_refined _ { p with frameCodec := p.frameCodec.feed data } hp h.1 h.2
  | cancelStream streamId errorCode => exact .lift hp (.cancelStream streamId errorCode)
  | sendPing => exact .lift hp .sendPing
  | close => exact .lift hp .close
  | onTransportClosed => exact .lift hp .onTransportClosed

/-- Every run of operations is a run of actions that reaches the same state with the same events and
the same outbound buffers. -/
theorem exists_runs_of_runs {p' : Http2Protocol}
    {tr : List (Machine.Entry Http2Protocol Op ProtocolStepResult)} (hp : p.state.Sound)
    (h : Machine.Runs apply p tr p') :
    ∃ actions, Runs p.state actions p'.state ∧ eventsOf actions = eventsOf tr ∧
      outboundOf actions = outboundOf tr := by
  induction h with
  | nil => exact ⟨[], .nil, rfl, rfl⟩
  | snoc hr hop ih =>
    obtain ⟨actions, hruns, hev, hout⟩ := ih
    have hsound := hruns.invariant (I := fun _ q => q.Sound) hp
      fun _ _ _ _ _ _ hq hact => (actionStep_of_act hq hact).sound hq
    rcases apply_refined hsound _ with
      ⟨p', r, more, heq, hmore, hev', hout'⟩ | ⟨e, heq, -⟩
    · rw [heq] at hop
      cases hop
      exact ⟨actions ++ more, hruns.append hmore, by simp [hev, hev'], by simp [hout, hout']⟩
    · rw [heq] at hop
      cases hop

end Http2Protocol

open Http2Protocol in
/-- An execution of operations succeeds, or a header block outgrows its buffer: none of the guards
of the library is reached with a bad argument. -/
theorem ok_or_overgrown_of_run (config : ClientConfig) (ops : List Op) :
    (∃ p tr, Machine.run apply (.ofConfig config) ops = .ok (p, tr)) ∨
      ∃ e, Machine.run apply (.ofConfig config) ops = .error e ∧ e.Overgrown := by
  cases h : Machine.run apply (.ofConfig config) ops with
  | ok result => exact Or.inl ⟨result.1, result.2, rfl⟩
  | error e =>
    refine Or.inr ⟨e, rfl, ?_⟩
    refine Machine.error_of_run (I := fun p => p.state.Sound) (E := Fault.Overgrown) ?_ ?_ ops _ e
      (ProtocolState.sound_ofConfig config) h
    · intro p op p' r hp hop
      rcases apply_refined hp op with ⟨p₁, r₁, tr, heq, hruns, -⟩ | ⟨e, heq, -⟩
      · rw [heq] at hop
        cases hop
        exact hruns.invariant (I := fun _ p => p.Sound) hp
          fun _ _ _ _ _ _ hs hact => (actionStep_of_act hs hact).sound hs
      · rw [heq] at hop
        cases hop
    · intro p op e' hp hop
      rcases apply_refined hp op with ⟨p₁, r₁, tr, heq, -⟩ | ⟨e, heq, he⟩
      · rw [heq] at hop
        cases hop
      · rw [heq] at hop
        cases hop
        exact he

end Chttp2
