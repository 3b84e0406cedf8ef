import Chttp2.Lib.Machine

/-!
# Computations that may stop, but not badly

A fallible computation may end in failures of two kinds: those that are expected, and the bad ones.
`Ensures bad Q x` says that `x` gives a value with the property `Q` or fails in an expected way.
`Runs.ensures` is the rule for a machine: an invariant whose steps never fail badly holds in every
reached state, and no step from there fails badly.
-/

set_option autoImplicit false

namespace Machine

universe u v w x

section Computations

variable {α β : Type u} {ε : Type w} {bad bad' : ε → Prop} {Q Q' : α → Prop} {R : β → Prop}

/-- The computation gives a value with the property, or its failure is not a bad one. -/
def Ensures (bad : ε → Prop) (Q : α → Prop) : Except ε α → Prop
  | .ok a => Q a
  | .error e => ¬ bad e

@[simp] theorem ensures_ok {a : α} : Ensures bad Q (.ok a) ↔ Q a := Iff.rfl

@[simp] theorem ensures_error {e : ε} : Ensures bad Q (.error e) ↔ ¬ bad e := Iff.rfl

theorem Ensures.mono {x : Except ε α} (h : Ensures bad Q x) (hQ : ∀ a, Q a → Q' a) :
    Ensures bad Q' x := by
  cases x with
  | ok a => exact hQ a h
  | error e => exact h

/-- Fewer failures are bad. -/
theorem Ensures.of_bad {x : Except ε α} (h : Ensures bad Q x) (hbad : ∀ e, bad' e → bad e) :
    Ensures bad' Q x := by
  cases x with
  | ok a => exact h
  | error e => exact mt (hbad e) h

theorem ensures_bind {x : Except ε α} {f : α → Except ε β} :
    Ensures bad R (x >>= f) ↔ Ensures bad (fun a => Ensures bad R (f a)) x := by
  cases x <;> exact Iff.rfl

end Computations

section Runs

variable {σ : Type u} {ι : Type v} {ο : Type w} {ε : Type x}
  {step : σ → ι → Except ε (σ × ο)} {s₀ s : σ} {tr : List (Entry σ ι ο)} {bad : σ → ι → ε → Prop}

/-- An invariant from which no step fails badly. What is bad may depend on the state and the input. -/
theorem Runs.ensures {I : σ → Prop} (h0 : I s₀)
    (hstep : ∀ tr s i, Runs step s₀ tr s → I s → Ensures (bad s i) (fun r => I r.1) (step s i))
    (h : Runs step s₀ tr s) : I s ∧ ∀ i e, step s i = .error e → ¬ bad s i e := by
  have hI : I s := by
    refine h.invariant (I := fun _ s => I s) h0 fun tr s i s' o hr hs heq => ?_
    have hnext := hstep tr s i hr hs
    rw [heq] at hnext
    exact hnext
  refine ⟨hI, fun i e heq => ?_⟩
  have hnext := hstep tr s i h hI
  rw [heq] at hnext
  exact hnext

end Runs

end Machine
