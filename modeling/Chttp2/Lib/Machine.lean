import Mathlib.Algebra.BigOperators.Group.List.Basic

/-!
# Runs of a fallible state machine

A machine is a step function `step : σ → ι → Except ε (σ × ο)` that takes a state and an input to
a new state and an output, or fails. `Runs step s₀ tr s` says that from `s₀` the machine reached
`s` without failing, and `tr` lists what happened on the way: each `Entry` holds the state before
the step, the input and the output.

An invariant may speak about the whole trace. `Runs.invariant` is its induction rule,
`Runs.invariant_of` the rule for runs whose entries all meet a condition, and
`Runs.entry` splits a run at one of its entries. `Along` is a condition on every entry of a trace
together with the entries before it, and `collect` gathers what each of them contributes. `run`
executes a list of inputs, and `runs_of_run` turns a successful execution into a run.
-/

set_option autoImplicit false

namespace Machine

universe u v w x

variable {σ : Type u} {ι : Type v} {ο : Type w} {ε : Type x}

/-- One step of a run: the state before it, the input it took and the output it gave. -/
structure Entry (σ : Type u) (ι : Type v) (ο : Type w) where
  pre : σ
  input : ι
  output : ο

/-- `s` is reached from `s₀` with the trace `tr`, earliest entry first. -/
inductive Runs (step : σ → ι → Except ε (σ × ο)) (s₀ : σ) : List (Entry σ ι ο) → σ → Prop
  | nil : Runs step s₀ [] s₀
  | snoc {tr : List (Entry σ ι ο)} {s s' : σ} {i : ι} {o : ο} :
      Runs step s₀ tr s → step s i = .ok (s', o) → Runs step s₀ (tr ++ [⟨s, i, o⟩]) s'

/-- Execute a list of inputs, collecting the trace; a failing step ends the execution. -/
def run (step : σ → ι → Except ε (σ × ο)) : σ → List ι → Except ε (σ × List (Entry σ ι ο))
  | s, [] => .ok (s, [])
  | s, i :: is =>
    match step s i with
    | .error e => .error e
    | .ok (s', o) =>
      match run step s' is with
      | .error e => .error e
      | .ok (s'', tr) => .ok (s'', ⟨s, i, o⟩ :: tr)

variable {step : σ → ι → Except ε (σ × ο)} {s₀ : σ}

/-- Induction along a run: an invariant of the trace and the state that holds at the start and is
kept by every step holds after every run. -/
theorem Runs.invariant {I : List (Entry σ ι ο) → σ → Prop} (h0 : I [] s₀)
    (hstep : ∀ tr s i s' o, Runs step s₀ tr s → I tr s → step s i = .ok (s', o) →
      I (tr ++ [⟨s, i, o⟩]) s')
    {tr : List (Entry σ ι ο)} {s : σ} (h : Runs step s₀ tr s) : I tr s := by
  induction h with
  | nil => exact h0
  | snoc hr hs ih => exact hstep _ _ _ _ _ hr ih hs

/-- Induction along the runs whose entries all meet the condition `C`. -/
theorem Runs.invariant_of {I : List (Entry σ ι ο) → σ → Prop} {C : Entry σ ι ο → Prop}
    (h0 : I [] s₀)
    (hstep : ∀ tr s i s' o, Runs step s₀ tr s → I tr s → C ⟨s, i, o⟩ →
      step s i = .ok (s', o) → I (tr ++ [⟨s, i, o⟩]) s')
    {tr : List (Entry σ ι ο)} {s : σ} (h : Runs step s₀ tr s) (hC : ∀ e ∈ tr, C e) :
    I tr s := by
  induction h with
  | nil => exact h0
  | snoc hr hs ih =>
    have htr := ih fun e he => hC e (List.mem_append_left _ he)
    exact hstep _ _ _ _ _ hr htr (hC _ (by simp)) hs

theorem Runs.append {s₁ s₂ : σ} {tr₁ tr₂ : List (Entry σ ι ο)} (h₁ : Runs step s₀ tr₁ s₁)
    (h₂ : Runs step s₁ tr₂ s₂) : Runs step s₀ (tr₁ ++ tr₂) s₂ := by
  induction h₂ with
  | nil => simpa using h₁
  | snoc _ hs ih =>
    rw [← List.append_assoc]
    exact .snoc ih hs

/-- The step of a run at one of its entries. -/
theorem Runs.at_entry {tr₁ tr₂ : List (Entry σ ι ο)} {e : Entry σ ι ο} {s : σ}
    (h : Runs step s₀ (tr₁ ++ e :: tr₂) s) :
    Runs step s₀ tr₁ e.pre ∧ ∃ s', step e.pre e.input = .ok (s', e.output) := by
  generalize hl : tr₁ ++ e :: tr₂ = l at h
  induction h generalizing tr₂ with
  | nil => simp at hl
  | @snoc tr a b i o hr hs ih =>
    rcases List.eq_nil_or_concat tr₂ with rfl | ⟨tr₃, e', rfl⟩
    · obtain ⟨rfl, rfl⟩ := List.append_inj' hl rfl |>.imp_right List.singleton_inj.1
      exact ⟨hr, b, hs⟩
    · rw [List.concat_eq_append, ← List.cons_append, ← List.append_assoc] at hl
      exact ih (List.append_inj' hl rfl).1

/-- The last step of a run. -/
theorem Runs.last {tr : List (Entry σ ι ο)} {e : Entry σ ι ο} {s : σ}
    (h : Runs step s₀ (tr ++ [e]) s) :
    Runs step s₀ tr e.pre ∧ step e.pre e.input = .ok (s, e.output) := by
  generalize hl : tr ++ [e] = l at h
  cases h with
  | nil => simp at hl
  | snoc hr hs =>
    obtain ⟨rfl, rfl⟩ := List.append_inj' hl rfl |>.imp_right List.singleton_inj.1
    exact ⟨hr, hs⟩

/-- A single step is a run. -/
theorem Runs.single {s s' : σ} {i : ι} {o : ο} (h : step s i = .ok (s', o)) :
    Runs step s [⟨s, i, o⟩] s' :=
  .snoc .nil h

theorem Runs.eq_of_nil {s : σ} (h : Runs step s₀ [] s) : s = s₀ := by
  generalize hl : ([] : List (Entry σ ι ο)) = l at h
  cases h with
  | nil => rfl
  | snoc => simp at hl

/-- A run splits after its first step. -/
theorem Runs.of_cons {tr : List (Entry σ ι ο)} {e : Entry σ ι ο} {s : σ}
    (h : Runs step s₀ (e :: tr) s) :
    ∃ s₁, step s₀ e.input = .ok (s₁, e.output) ∧ Runs step s₁ tr s := by
  generalize hl : e :: tr = l at h
  induction h generalizing tr with
  | nil => cases hl
  | @snoc tr₀ a b i o hr hs ih =>
    cases tr₀ with
    | nil =>
      obtain rfl := hr.eq_of_nil
      cases hl
      exact ⟨b, hs, .nil⟩
    | cons e₀ tr₀ =>
      obtain ⟨rfl, rfl⟩ := List.cons.inj hl
      obtain ⟨s₁, hfirst, hrest⟩ := ih rfl
      exact ⟨s₁, hfirst, .snoc hrest hs⟩

/-- A run splits at each of its entries. -/
theorem Runs.entry {tr : List (Entry σ ι ο)} {s : σ} (h : Runs step s₀ tr s) {e : Entry σ ι ο}
    (he : e ∈ tr) :
    ∃ tr₁ tr₂ s', tr = tr₁ ++ e :: tr₂ ∧ Runs step s₀ tr₁ e.pre ∧
      step e.pre e.input = .ok (s', e.output) ∧ Runs step s' tr₂ s := by
  induction h with
  | nil => simp at he
  | @snoc tr a b i o hr hs ih =>
    rcases List.mem_append.1 he with hm | hm
    · obtain ⟨tr₁, tr₂, s', rfl, h₁, h₂, h₃⟩ := ih hm
      exact ⟨tr₁, tr₂ ++ [⟨a, i, o⟩], s', by simp, h₁, h₂, .snoc h₃ hs⟩
    · rw [List.mem_singleton] at hm
      subst hm
      exact ⟨tr, [], b, rfl, hr, hs, .nil⟩

/-- A successful execution is a run with the inputs of the list. -/
theorem runs_of_run {is : List ι} {s s' : σ} {tr : List (Entry σ ι ο)}
    (h : run step s is = .ok (s', tr)) : Runs step s tr s' ∧ tr.map Entry.input = is := by
  induction is generalizing s tr with
  | nil =>
    simp only [run, Except.ok.injEq, Prod.mk.injEq] at h
    obtain ⟨rfl, rfl⟩ := h
    exact ⟨.nil, rfl⟩
  | cons i is ih =>
    simp only [run] at h
    split at h
    · cases h
    · rename_i s₁ o hs
      split at h
      · cases h
      · rename_i s₂ tr₂ hr
        simp only [Except.ok.injEq, Prod.mk.injEq] at h
        obtain ⟨rfl, rfl⟩ := h
        obtain ⟨h₂, hin⟩ := ih hr
        exact ⟨(Runs.single hs).append h₂, by simp [hin]⟩

/-- An execution whose result is known through `f` is a run with that result. -/
theorem exists_runs_of_map {γ : Type*} {f : σ × List (Entry σ ι ο) → γ} {is : List ι} {c : γ}
    (h : (run step s₀ is).map f = .ok c) :
    ∃ s tr, Runs step s₀ tr s ∧ tr.map Entry.input = is ∧ f (s, tr) = c := by
  cases hrun : run step s₀ is with
  | error e =>
    rw [hrun] at h
    cases h
  | ok result =>
    rw [hrun] at h
    obtain ⟨hr, hin⟩ := runs_of_run hrun
    exact ⟨result.1, result.2, hr, hin, by simpa [Except.map] using h⟩

/-- The errors of an execution are errors of single steps from states with the invariant. -/
theorem error_of_run {I : σ → Prop} {E : ε → Prop}
    (hstep : ∀ s i s' o, I s → step s i = .ok (s', o) → I s')
    (herr : ∀ s i e, I s → step s i = .error e → E e) (is : List ι) :
    ∀ s e, I s → run step s is = .error e → E e := by
  induction is with
  | nil =>
    intro s e _ h
    cases h
  | cons i is ih =>
    intro s e hs h
    simp only [run] at h
    split at h
    · rename_i e' he
      cases h
      exact herr s i _ hs he
    · rename_i s₁ o hs₁
      split at h
      · rename_i e' he
        cases h
        exact ih s₁ _ (hstep s i s₁ o hs hs₁) he
      · cases h

/-- The total of a measure over a trace. -/
def total {M : Type*} [AddMonoid M] (f : Entry σ ι ο → M) (tr : List (Entry σ ι ο)) : M :=
  (tr.map f).sum

section Total

variable {M : Type*} [AddMonoid M] (f : Entry σ ι ο → M)

@[simp] theorem total_nil : total f [] = 0 := rfl

@[simp] theorem total_append (tr₁ tr₂ : List (Entry σ ι ο)) :
    total f (tr₁ ++ tr₂) = total f tr₁ + total f tr₂ := by
  simp [total]

@[simp] theorem total_singleton (e : Entry σ ι ο) : total f [e] = f e := by
  simp [total]

end Total

/-! ## Conditions along a trace -/

/-- Every entry of a trace that follows `before` meets `C`, which may speak about all the entries
before it. -/
def AlongFrom (C : List (Entry σ ι ο) → Entry σ ι ο → Prop) :
    List (Entry σ ι ο) → List (Entry σ ι ο) → Prop
  | _, [] => True
  | before, e :: tr => C before e ∧ AlongFrom C (before ++ [e]) tr

/-- Every entry of the trace meets `C`, which may speak about the entries before it. -/
def Along (C : List (Entry σ ι ο) → Entry σ ι ο → Prop) (tr : List (Entry σ ι ο)) : Prop :=
  AlongFrom C [] tr

section Along

variable {C : List (Entry σ ι ο) → Entry σ ι ο → Prop}

theorem alongFrom_append {tr₁ tr₂ : List (Entry σ ι ο)} :
    ∀ {before : List (Entry σ ι ο)}, AlongFrom C before (tr₁ ++ tr₂) ↔
      AlongFrom C before tr₁ ∧ AlongFrom C (before ++ tr₁) tr₂ := by
  induction tr₁ with
  | nil => simp [AlongFrom]
  | cons e tr₁ ih =>
    intro before
    simp [AlongFrom, ih, and_assoc]

/-- A condition along a trace holds along its beginnings. -/
theorem Along.left {tr₁ tr₂ : List (Entry σ ι ο)} (h : Along C (tr₁ ++ tr₂)) : Along C tr₁ :=
  (alongFrom_append.1 h).1

theorem Along.at_entry {tr₁ tr₂ : List (Entry σ ι ο)} {e : Entry σ ι ο}
    (h : Along C (tr₁ ++ e :: tr₂)) : C tr₁ e :=
  (alongFrom_append.1 h).2.1

theorem along_snoc {tr : List (Entry σ ι ο)} {e : Entry σ ι ο} :
    Along C (tr ++ [e]) ↔ Along C tr ∧ C tr e := by
  simp [Along, alongFrom_append, AlongFrom]

instance decidableAlongFrom [∀ before e, Decidable (C before e)] (tr : List (Entry σ ι ο)) :
    ∀ before, Decidable (AlongFrom C before tr) :=
  match tr with
  | [] => fun _ => instDecidableTrue
  | e :: tr => fun before =>
    have := decidableAlongFrom tr (before ++ [e])
    instDecidableAnd

instance [∀ before e, Decidable (C before e)] (tr : List (Entry σ ι ο)) : Decidable (Along C tr) :=
  decidableAlongFrom tr []

end Along

/-! ## What a trace collects -/

/-- The lists that `f` makes of the entries of a trace that follows `before`, each with the entries
before it, one after the other. -/
def collectFrom {β : Type*} (f : List (Entry σ ι ο) → Entry σ ι ο → List β) :
    List (Entry σ ι ο) → List (Entry σ ι ο) → List β
  | _, [] => []
  | before, e :: tr => f before e ++ collectFrom f (before ++ [e]) tr

/-- The lists that `f` makes of the entries of a trace, one after the other. -/
def collect {β : Type*} (f : List (Entry σ ι ο) → Entry σ ι ο → List β) (tr : List (Entry σ ι ο)) :
    List β :=
  collectFrom f [] tr

section Collect

variable {β : Type*} {f : List (Entry σ ι ο) → Entry σ ι ο → List β}

theorem collectFrom_append {tr₁ tr₂ : List (Entry σ ι ο)} :
    ∀ {before : List (Entry σ ι ο)}, collectFrom f before (tr₁ ++ tr₂) =
      collectFrom f before tr₁ ++ collectFrom f (before ++ tr₁) tr₂ := by
  induction tr₁ with
  | nil => simp [collectFrom]
  | cons e tr₁ ih =>
    intro before
    simp [collectFrom, ih]

@[simp] theorem collect_nil : collect f [] = [] := rfl

@[simp] theorem collect_snoc (tr : List (Entry σ ι ο)) (e : Entry σ ι ο) :
    collect f (tr ++ [e]) = collect f tr ++ f tr e := by
  simp [collect, collectFrom_append, collectFrom]

end Collect

end Machine
