import Chttp2.Lib.Machine

/-!
# A machine and its peer across two channels

`Parties` is a machine of `Lib.Machine`, whose outputs are messages, together with a peer that it
talks to. The peer is a relation: `recv r m r'` says that it accepts the message `m`, and `tell r n`
is the peer after it has sent the message `n`. Between the two are channels that keep their
messages in order and deliver them at any time; `Linked` is the reachability of the whole, with the
trace of the machine.

`Simulates` speaks about a peer that answers at once: every message is received in the step that
sends it. `Linked.inFlight` carries such a simulation over to the channels, for a peer whose own
messages do not get into the way of what it receives (`Polite`). So a message that has arrived is
always accepted (`Linked.accepts`).
-/

set_option autoImplicit false

namespace Channels

universe u

open Machine

/-- A machine with its peer. -/
structure Parties (σ ι ο ε ρ μ ν : Type u) where
  step : σ → ι → Except ε (σ × ο)
  /-- the messages of an output, in order -/
  out : ο → List μ
  /-- the input of the machine that a message of the peer is -/
  deliver : ν → ι
  /-- the inputs that the owner of the machine may give -/
  allowed : σ → ι → Prop
  recv : ρ → μ → ρ → Prop
  tell : ρ → ν → ρ
  /-- the messages that the peer may send -/
  legal : ν → Prop

variable {σ ι ο ε ρ μ ν : Type u}

/-- Receiving messages one after the other. -/
inductive ReceivesAll (recv : ρ → μ → ρ → Prop) : ρ → List μ → ρ → Prop
  | nil (r : ρ) : ReceivesAll recv r [] r
  | cons {r r' r'' : ρ} {m : μ} {ms : List μ} : recv r m r' → ReceivesAll recv r' ms r'' →
      ReceivesAll recv r (m :: ms) r''

namespace ReceivesAll

variable {recv : ρ → μ → ρ → Prop} {r r' r'' : ρ} {m : μ} {ms ms' : List μ}

theorem single (h : recv r m r') : ReceivesAll recv r [m] r' := .cons h (.nil r')

theorem append (h : ReceivesAll recv r ms r') (h' : ReceivesAll recv r' ms' r'') :
    ReceivesAll recv r (ms ++ ms') r'' := by
  induction h with
  | nil => exact h'
  | cons hm _ ih => exact .cons hm (ih h')

theorem of_cons (h : ReceivesAll recv r (m :: ms) r'') :
    ∃ r', recv r m r' ∧ ReceivesAll recv r' ms r'' := by
  cases h with
  | cons hm hms => exact ⟨_, hm, hms⟩

theorem eq_of_nil (h : ReceivesAll recv r [] r') : r' = r := by
  cases h
  rfl

/-- What holds between the peers before and after a message holds between those before and after a
list of them. -/
theorem relate {R : ρ → ρ → Prop} (hrefl : ∀ r, R r r)
    (htrans : ∀ {a b c}, R a b → R b c → R a c) (hstep : ∀ {r m r'}, recv r m r' → R r r')
    (h : ReceivesAll recv r ms r') : R r r' := by
  induction h with
  | nil => exact hrefl _
  | cons hm _ ih => exact htrans (hstep hm) ih

end ReceivesAll

/-- The machine, its peer, and the messages in flight in both directions, earliest first. -/
structure Link (σ ρ μ ν : Type u) where
  machine : σ
  peer : ρ
  toPeer : List μ
  toMachine : List ν

/-- The links that are reached from `x₀`, with the trace of the machine. -/
inductive Linked (P : Parties σ ι ο ε ρ μ ν) (tr₀ : List (Entry σ ι ο)) (x₀ : Link σ ρ μ ν) :
    List (Entry σ ι ο) → Link σ ρ μ ν → Prop
  | start : Linked P tr₀ x₀ tr₀ x₀
  /-- the owner of the machine -/
  | acts {tr : List (Entry σ ι ο)} {x : Link σ ρ μ ν} {i : ι} {o : ο} {s' : σ}
      (h : Linked P tr₀ x₀ tr x) (hi : P.allowed x.machine i)
      (hs : P.step x.machine i = .ok (s', o)) :
      Linked P tr₀ x₀ (tr ++ [⟨x.machine, i, o⟩])
        { x with machine := s', toPeer := x.toPeer ++ P.out o }
  /-- a message of the peer arrives -/
  | hears {tr : List (Entry σ ι ο)} {x : Link σ ρ μ ν} {n : ν} {ns : List ν} {o : ο} {s' : σ}
      (h : Linked P tr₀ x₀ tr x) (hn : x.toMachine = n :: ns)
      (hs : P.step x.machine (P.deliver n) = .ok (s', o)) :
      Linked P tr₀ x₀ (tr ++ [⟨x.machine, P.deliver n, o⟩])
        { x with machine := s', toPeer := x.toPeer ++ P.out o, toMachine := ns }
  /-- the peer sends -/
  | tells {tr : List (Entry σ ι ο)} {x : Link σ ρ μ ν} {n : ν} (h : Linked P tr₀ x₀ tr x)
      (hn : P.legal n) :
      Linked P tr₀ x₀ tr { x with peer := P.tell x.peer n, toMachine := x.toMachine ++ [n] }
  /-- a message of the machine arrives -/
  | receives {tr : List (Entry σ ι ο)} {x : Link σ ρ μ ν} {m : μ} {ms : List μ} {r' : ρ}
      (h : Linked P tr₀ x₀ tr x) (hm : x.toPeer = m :: ms) (hr : P.recv x.peer m r') :
      Linked P tr₀ x₀ tr { x with peer := r', toPeer := ms }

/-- The peer's messages do not get into the way of what it receives. -/
structure Polite (P : Parties σ ι ο ε ρ μ ν) : Prop where
  unique : ∀ {r r₁ r₂ m}, P.recv r m r₁ → P.recv r m r₂ → r₁ = r₂
  commutes : ∀ {r r' m}, P.recv r m r' → ∀ n, P.recv (P.tell r n) m (P.tell r' n)

/-- A relation between the machine, with its trace, and a peer that receives every message in the
step that sends it. -/
structure Simulates (P : Parties σ ι ο ε ρ μ ν) (Sim : List (Entry σ ι ο) → σ → ρ → Prop) :
    Prop where
  acts : ∀ {tr s r i s' o}, Sim tr s r → P.allowed s i → P.step s i = .ok (s', o) →
    ∃ r', ReceivesAll P.recv r (P.out o) r' ∧ Sim (tr ++ [⟨s, i, o⟩]) s' r'
  hears : ∀ {tr s r n s' o}, Sim tr s r → P.legal n → P.step s (P.deliver n) = .ok (s', o) →
    ∃ r', ReceivesAll P.recv (P.tell r n) (P.out o) r' ∧ Sim (tr ++ [⟨s, P.deliver n, o⟩]) s' r'

/-- The machine simulates the peer that has received all that is in flight and has not yet sent
what is in flight from it. -/
def InFlight (P : Parties σ ι ο ε ρ μ ν) (Sim : List (Entry σ ι ο) → σ → ρ → Prop)
    (tr : List (Entry σ ι ο)) (x : Link σ ρ μ ν) : Prop :=
  (∀ n ∈ x.toMachine, P.legal n) ∧
    ∃ r, Sim tr x.machine r ∧ ReceivesAll P.recv x.peer x.toPeer (x.toMachine.foldl P.tell r)

section Theory

variable {P : Parties σ ι ο ε ρ μ ν} {Sim : List (Entry σ ι ο) → σ → ρ → Prop}
  {tr₀ tr : List (Entry σ ι ο)} {x₀ x : Link σ ρ μ ν}

theorem Polite.receivesAll_tell (hP : Polite P) {r r' : ρ} {ms : List μ}
    (h : ReceivesAll P.recv r ms r') (n : ν) :
    ReceivesAll P.recv (P.tell r n) ms (P.tell r' n) := by
  induction h with
  | nil => exact .nil _
  | cons hm _ ih => exact .cons (hP.commutes hm n) ih

theorem Polite.receivesAll_foldl (hP : Polite P) {ms : List μ} (ns : List ν) :
    ∀ {r r' : ρ}, ReceivesAll P.recv r ms r' →
      ReceivesAll P.recv (ns.foldl P.tell r) ms (ns.foldl P.tell r') := by
  induction ns with
  | nil => exact fun h => h
  | cons n ns ih => exact fun h => ih (hP.receivesAll_tell h n)

/-- Along the channels the simulation holds for the peer after the messages in flight. -/
theorem Linked.inFlight (hP : Polite P) (hsim : Simulates P Sim) (h0 : InFlight P Sim tr₀ x₀)
    (h : Linked P tr₀ x₀ tr x) : InFlight P Sim tr x := by
  induction h with
  | start => exact h0
  | acts _ hi hs ih =>
    obtain ⟨hlegal, r, hr, hall⟩ := ih
    obtain ⟨r', hout, hr'⟩ := hsim.acts hr hi hs
    exact ⟨hlegal, r', hr', hall.append (hP.receivesAll_foldl _ hout)⟩
  | @hears tr x n ns o s' _ hn hs ih =>
    obtain ⟨hlegal, r, hr, hall⟩ := ih
    rw [hn] at hlegal hall
    rw [List.forall_mem_cons] at hlegal
    obtain ⟨r', hout, hr'⟩ := hsim.hears hr hlegal.1 hs
    exact ⟨hlegal.2, r', hr', hall.append (hP.receivesAll_foldl ns hout)⟩
  | @tells tr x n _ hn ih =>
    obtain ⟨hlegal, r, hr, hall⟩ := ih
    refine ⟨fun k hk => ?_, r, hr, ?_⟩
    · rcases List.mem_append.1 hk with hk | hk
      · exact hlegal k hk
      · rw [List.mem_singleton.1 hk]
        exact hn
    -- what is sent later is sent after the peer has received what is in flight
    · rw [List.foldl_concat]
      exact hP.receivesAll_tell hall n
  | @receives tr x m ms r' _ hm hr ih =>
    obtain ⟨hlegal, r, hsim, hall⟩ := ih
    rw [hm] at hall
    obtain ⟨r₁, hr₁, hrest⟩ := hall.of_cons
    rw [hP.unique hr₁ hr] at hrest
    exact ⟨hlegal, r, hsim, hrest⟩

/-- A message that has arrived is accepted. -/
theorem Linked.accepts (hP : Polite P) (hsim : Simulates P Sim) (h0 : InFlight P Sim tr₀ x₀)
    (h : Linked P tr₀ x₀ tr x) {m : μ} {ms : List μ} (hm : x.toPeer = m :: ms) :
    ∃ r', P.recv x.peer m r' := by
  obtain ⟨-, r, -, hall⟩ := h.inFlight hP hsim h0
  rw [hm] at hall
  obtain ⟨r', hr', -⟩ := hall.of_cons
  exact ⟨r', hr'⟩

/-- From a link at which the peer accepts what is in flight, the channel to it can be emptied. -/
theorem Linked.drain {r r' : ρ} {ms : List μ} (hall : ReceivesAll P.recv r ms r') :
    ∀ {x : Link σ ρ μ ν}, Linked P tr₀ x₀ tr x → x.peer = r → x.toPeer = ms →
      Linked P tr₀ x₀ tr { x with peer := r', toPeer := [] } := by
  induction hall with
  | nil =>
    intro x h hr hnil
    rw [← hr, ← hnil]
    exact h
  | cons hm _ ih =>
    intro x h hr hcons
    rw [← hr] at hm
    have hdrained := ih (.receives h hcons hm) rfl rfl
    exact hdrained

/-- What receiving and sending keep of the peer holds of the peer of every link. -/
theorem Linked.peer_invariant {I : ρ → Prop} (hrecv : ∀ {r m r'}, P.recv r m r' → I r → I r')
    (htell : ∀ {r n}, I r → I (P.tell r n)) (h : Linked P tr₀ x₀ tr x) (h0 : I x₀.peer) :
    I x.peer := by
  induction h with
  | start => exact h0
  | acts _ _ _ ih => exact ih
  | hears _ _ _ ih => exact ih
  | tells _ _ ih => exact htell ih
  | receives _ _ hr ih => exact hrecv hr ih

/-- The messages on the way to the peer are the last ones that the machine has sent. -/
theorem Linked.toPeer_suffix (h : Linked P tr₀ x₀ tr x)
    (h0 : x₀.toPeer <:+ tr₀.flatMap fun e => P.out e.output) :
    x.toPeer <:+ tr.flatMap fun e => P.out e.output := by
  -- a step of the machine appends to both lists
  have hsnoc : ∀ {tr : List (Entry σ ι ο)} {ms : List μ} (e : Entry σ ι ο),
      ms <:+ tr.flatMap (fun e => P.out e.output) →
      ms ++ P.out e.output <:+ (tr ++ [e]).flatMap fun e => P.out e.output := by
    rintro tr ms e ⟨before, hbefore⟩
    refine ⟨before, ?_⟩
    rw [List.flatMap_append, List.flatMap_singleton, ← hbefore, List.append_assoc]
  induction h with
  | start => exact h0
  | acts _ _ _ ih => exact hsnoc ⟨_, _, _⟩ ih
  | hears _ _ _ ih => exact hsnoc ⟨_, _, _⟩ ih
  | tells _ _ ih => exact ih
  | receives _ hm _ ih =>
    rw [hm] at ih
    exact (List.suffix_cons _ _).trans ih

/-- The machine of a link has run with the trace of the link. -/
theorem Linked.runs {s₀ : σ} (h : Linked P tr₀ x₀ tr x) (h0 : Runs P.step s₀ tr₀ x₀.machine) :
    Runs P.step s₀ tr x.machine := by
  induction h with
  | start => exact h0
  | acts _ _ hs ih => exact .snoc ih hs
  | hears _ _ hs ih => exact .snoc ih hs
  | tells _ _ ih => exact ih
  | receives _ _ _ ih => exact ih

end Theory

end Channels
