import Chttp2.Lib.MachineArith
import Chttp2.Flow

/-!
# The credit of a window for received data

`addMetered`, `takeMetered` and `takeInflowsMetered` are the functions of `flow.cpp` with their
operations on machine integers recorded. An `exchange` is what the DATA handlers do with a window:
take the payload length, alone or together with another window, and give it back.

`Settled` describes a window between two exchanges: nothing of its size is lost, the withheld credit
is below the threshold and below what the peer may still send. An exchange keeps it, its operations
are exact, and it computes what `Flow` says (`exchange_spec`). `exchanges_settled` is this over every
series of exchanges from a new window.
-/

set_option autoImplicit false

namespace Chttp2.InFlow

open MachineArith Metered

/-! ## The functions with their operations -/

/-- `add`: the sum is formed in 64 bits, the fields have 32. -/
def addMetered (f : InFlow) (n : Int) : Metered (Int × InFlow) := do
  let sum ← addSigned 64 f.unsnt n
  if sum > int32Max then pure (-1, f)
  else do
    let unsnt ← toSigned 32 sum
    if unsnt < inflowMinRefresh ∧ unsnt < f.avail then pure (0, { f with unsnt := unsnt })
    else do
      let avail ← addSigned 32 f.avail unsnt
      pure (unsnt, { avail := avail, unsnt := 0 })

/-- `avail -= static_cast<int32_t>(n)`. -/
def spend (f : InFlow) (n : Nat) : Metered InFlow := do
  let amount ← toSigned 32 n
  let avail ← subSigned 32 f.avail amount
  pure { f with avail := avail }

/-- `InFlow::take`, with the comparisons of its guard counted. -/
def takeMetered (f : InFlow) (n : Nat) : Metered (Option InFlow) :=
  if f.avail ≤ 0 then pure none
  else do
    let available ← toUnsigned 32 f.avail
    if available < n then pure none
    else do
      let f ← f.spend n
      pure (some f)

/-- `takeInflows`, metered. -/
def takeInflowsMetered (f1 f2 : InFlow) (n : Nat) : Metered (Option (InFlow × InFlow)) :=
  if n = 0 then pure (some (f1, f2))
  else if f1.avail ≤ 0 ∨ f2.avail ≤ 0 then pure none
  else do
    let available1 ← toUnsigned 32 f1.avail
    if available1 < n then pure none
    else do
      let available2 ← toUnsigned 32 f2.avail
      if available2 < n then pure none
      else do
        let f1 ← f1.spend n
        let f2 ← f2.spend n
        pure (some (f1, f2))

/-- How a DATA frame is charged to a window: alone where its stream is gone, else the connection
window together with the stream's or the stream's together with the connection's. -/
inductive Taking where
  | alone
  | withStream (stream : InFlow)
  | withConnection (connection : InFlow)

/-- What is left of the window, if there is enough. -/
def Taking.metered (t : Taking) (f : InFlow) (n : Nat) : Metered (Option InFlow) :=
  match t with
  | .alone => f.takeMetered n
  | .withStream stream => do
    let left ← takeInflowsMetered f stream n
    pure (left.map Prod.fst)
  | .withConnection connection => do
    let left ← takeInflowsMetered connection f n
    pure (left.map Prod.snd)

/-- A successful take and the `add` of the same length. -/
def exchange (f : InFlow) (t : Taking) (n : Nat) : Metered (Option (Int × InFlow)) := do
  let left ← t.metered f n
  match left with
  | none => pure none
  | some f => do
    let consumed ← toSigned 32 n
    let added ← f.addMetered consumed
    pure (some added)

/-! ## Their values and their ranges -/

/-- The range of `int32_t`. -/
theorem inSigned_iff {a : Int} : InSigned 32 a ↔ int32Min ≤ a ∧ a ≤ int32Max := by
  unfold InSigned int32Min int32Max
  omega

/-- The fields are `int32_t`. -/
structure InRange (f : InFlow) : Prop where
  avail : InSigned 32 f.avail
  unsnt : InSigned 32 f.unsnt

/-- The window that is charged as well is one. -/
def Taking.InRange : Taking → Prop
  | .alone => True
  | .withStream stream => stream.InRange
  | .withConnection connection => connection.InRange

variable {f : InFlow} {n : Nat}

theorem spend_spec (hf : f.InRange) (h : (n : Int) ≤ f.avail) :
    (f.spend n).Exact ∧ (f.spend n).value = { f with avail := f.avail - n } := by
  have havail := inSigned_iff.1 hf.avail
  have hn : InSigned 32 (n : Int) := inSigned_iff.2 ⟨by unfold int32Min; omega, by omega⟩
  have hleft : InSigned 32 (f.avail - n) := inSigned_iff.2 ⟨by unfold int32Min; omega, by omega⟩
  rw [spend]
  simp only [exact_bind, value_bind, exact_toSigned, value_toSigned (by omega) hn, exact_subSigned,
    value_subSigned (by omega) hleft, exact_pure, value_pure]
  exact ⟨⟨hn, hleft, trivial⟩, trivial⟩

theorem toUnsigned_avail (hf : f.InRange) (h : ¬ f.avail ≤ 0) :
    (toUnsigned 32 f.avail).Exact ∧ (toUnsigned 32 f.avail).value = f.avail := by
  have havail := inSigned_iff.1 hf.avail
  unfold int32Max at havail
  exact ⟨exact_toUnsigned.2 ⟨by omega, by omega⟩, value_toUnsigned (by omega) (by omega)⟩

theorem takeMetered_spec (hf : f.InRange) (n : Nat) :
    (f.takeMetered n).Exact ∧ (f.takeMetered n).value = f.take n := by
  rw [takeMetered, take]
  by_cases h0 : f.avail ≤ 0
  · rw [if_pos h0, if_pos h0]
    exact ⟨exact_pure _, rfl⟩
  · obtain ⟨hexact, hvalue⟩ := toUnsigned_avail hf h0
    rw [if_neg h0, if_neg h0, exact_bind, value_bind, hvalue]
    by_cases hn : f.avail < n
    · rw [if_pos hn, if_pos hn]
      exact ⟨⟨hexact, exact_pure _⟩, rfl⟩
    · obtain ⟨hspend, hleft⟩ := spend_spec hf (not_lt.1 hn)
      rw [if_neg hn, if_neg hn, exact_bind, value_bind, hleft]
      exact ⟨⟨hexact, hspend, exact_pure _⟩, rfl⟩

theorem takeInflowsMetered_spec {f1 f2 : InFlow} (h1 : f1.InRange) (h2 : f2.InRange) (n : Nat) :
    (takeInflowsMetered f1 f2 n).Exact ∧
      (takeInflowsMetered f1 f2 n).value = takeInflows f1 f2 n := by
  rw [takeInflowsMetered, takeInflows]
  by_cases hzero : n = 0
  · rw [if_pos hzero, if_pos hzero]
    exact ⟨exact_pure _, rfl⟩
  · rw [if_neg hzero, if_neg hzero]
    by_cases hempty : f1.avail ≤ 0 ∨ f2.avail ≤ 0
    · rw [if_pos hempty, if_pos hempty]
      exact ⟨exact_pure _, rfl⟩
    · obtain ⟨hexact1, hvalue1⟩ := toUnsigned_avail h1 (fun h => hempty (Or.inl h))
      obtain ⟨hexact2, hvalue2⟩ := toUnsigned_avail h2 (fun h => hempty (Or.inr h))
      rw [if_neg hempty, if_neg hempty, exact_bind, value_bind, hvalue1]
      -- the second window is converted only if the first one has room
      by_cases hn1 : f1.avail < n
      · rw [if_pos hn1, if_pos (Or.inl hn1)]
        exact ⟨⟨hexact1, exact_pure _⟩, rfl⟩
      · rw [if_neg hn1, exact_bind, value_bind, hvalue2]
        by_cases hn2 : f2.avail < n
        · rw [if_pos hn2, if_pos (Or.inr hn2)]
          exact ⟨⟨hexact1, hexact2, exact_pure _⟩, rfl⟩
        · obtain ⟨hspend1, hleft1⟩ := spend_spec h1 (not_lt.1 hn1)
          obtain ⟨hspend2, hleft2⟩ := spend_spec h2 (not_lt.1 hn2)
          rw [if_neg hn2, if_neg (not_or.2 ⟨hn1, hn2⟩), exact_bind, value_bind, hleft1, exact_bind,
            value_bind, hleft2]
          exact ⟨⟨hexact1, hexact2, hspend1, hspend2, exact_pure _⟩, rfl⟩

/-- The take of an exchange, without its record. -/
def Taking.take (t : Taking) (f : InFlow) (n : Nat) : Option InFlow :=
  match t with
  | .alone => f.take n
  | .withStream stream => (takeInflows f stream n).map Prod.fst
  | .withConnection connection => (takeInflows connection f n).map Prod.snd

theorem Taking.metered_spec {t : Taking} (ht : t.InRange) (hf : f.InRange) (n : Nat) :
    (t.metered f n).Exact ∧ (t.metered f n).value = t.take f n := by
  cases t with
  | alone => exact takeMetered_spec hf n
  | withStream stream =>
    obtain ⟨hexact, hvalue⟩ := takeInflowsMetered_spec hf ht n
    refine ⟨(exact_bind _ _).2 ⟨hexact, exact_pure _⟩, ?_⟩
    rw [Taking.metered, value_bind, hvalue]
    rfl
  | withConnection connection =>
    obtain ⟨hexact, hvalue⟩ := takeInflowsMetered_spec ht hf n
    refine ⟨(exact_bind _ _).2 ⟨hexact, exact_pure _⟩, ?_⟩
    rw [Taking.metered, value_bind, hvalue]
    rfl

/-- What a successful take leaves. -/
theorem Taking.take_eq_some {t : Taking} {g : InFlow} (h : t.take f n = some g) :
    (n = 0 ∨ (n : Int) ≤ f.avail) ∧ g = { f with avail := f.avail - n } := by
  cases t with
  | alone =>
    obtain ⟨-, hn, rfl⟩ := InFlow.take_eq_some.1 h
    exact ⟨Or.inr hn, rfl⟩
  | withStream stream =>
    obtain ⟨⟨g1, g2⟩, htake, rfl⟩ := Option.map_eq_some_iff.1 h
    obtain ⟨hn, rfl, -⟩ := takeInflows_eq_some.1 htake
    exact ⟨hn.imp_right And.left, rfl⟩
  | withConnection connection =>
    obtain ⟨⟨g1, g2⟩, htake, rfl⟩ := Option.map_eq_some_iff.1 h
    obtain ⟨hn, -, rfl⟩ := takeInflows_eq_some.1 htake
    exact ⟨hn.imp_right And.right, rfl⟩

/-- Where the window and the amount together are an `int32_t`, so is everything `add` computes. -/
theorem addMetered_spec (h0 : 0 ≤ f.unsnt) (havail : 0 ≤ f.avail)
    (hsum : f.avail + f.unsnt + n ≤ int32Max) :
    (f.addMetered n).Exact ∧ (f.addMetered n).value = f.add n := by
  have hsum64 : InSigned 64 (f.unsnt + n) := by
    unfold InSigned
    unfold int32Max at hsum
    omega
  have hsum32 : InSigned 32 (f.unsnt + n) :=
    inSigned_iff.2 ⟨by unfold int32Min; omega, by omega⟩
  have hgrown : InSigned 32 (f.avail + (f.unsnt + n)) :=
    inSigned_iff.2 ⟨by unfold int32Min; omega, by omega⟩
  have hover : ¬ f.unsnt + n > int32Max := by omega
  rw [addMetered, add, exact_bind, value_bind, value_addSigned (by omega) hsum64, if_neg hover,
    if_neg hover, exact_bind, value_bind, value_toSigned (by omega) hsum32]
  by_cases hheld : f.unsnt + n < inflowMinRefresh ∧ f.unsnt + n < f.avail
  · -- the window itself is not touched
    rw [if_pos hheld, if_pos hheld]
    exact ⟨⟨exact_addSigned.2 hsum64, exact_toSigned.2 hsum32, exact_pure _⟩, rfl⟩
  · rw [if_neg hheld, if_neg hheld, exact_bind, value_bind, value_addSigned (by omega) hgrown]
    exact ⟨⟨exact_addSigned.2 hsum64, exact_toSigned.2 hsum32, exact_addSigned.2 hgrown,
      exact_pure _⟩, rfl⟩

/-! ## Between two exchanges -/

/-- A window of the size `initial` between two exchanges. -/
structure Settled (initial : Int) (f : InFlow) : Prop where
  sum : f.avail + f.unsnt = initial
  unsnt_nonneg : 0 ≤ f.unsnt
  unsnt_lt : f.unsnt < inflowMinRefresh
  unsnt_lt_avail : f.unsnt < f.avail

variable {initial : Int}

theorem settled_init (h : 1 ≤ initial) : Settled initial (({} : InFlow).init initial) := by
  refine ⟨?_, le_refl 0, (by decide : (0 : Int) < inflowMinRefresh), ?_⟩
  · show initial + 0 = initial
    omega
  · show 0 < initial
    omega

theorem Settled.inRange (hf : Settled initial f) (h : initial ≤ int32Max) : f.InRange := by
  obtain ⟨hsum, h0, -, hlt⟩ := hf
  exact ⟨inSigned_iff.2 ⟨by unfold int32Min; omega, by omega⟩,
    inSigned_iff.2 ⟨by unfold int32Min; omega, by omega⟩⟩

/-- Giving back what was taken: withheld credit and announced credit grow by the amount together. -/
theorem Settled.add (hf : Settled initial f) (h : initial ≤ int32Max)
    (hn : n = 0 ∨ (n : Int) ≤ f.avail) :
    Settled initial (({ f with avail := f.avail - n } : InFlow).add n).2 ∧
      0 ≤ (({ f with avail := f.avail - n } : InFlow).add n).1 ∧
      (({ f with avail := f.avail - n } : InFlow).add n).1 +
        (({ f with avail := f.avail - n } : InFlow).add n).2.unsnt = f.unsnt + n := by
  obtain ⟨hsum, h0, hlow, hlt⟩ := hf
  have hover : ¬ f.unsnt + n > int32Max := by omega
  rw [InFlow.add, if_neg hover]
  by_cases hheld : f.unsnt + n < inflowMinRefresh ∧ f.unsnt + n < f.avail - n
  · -- the credit is withheld
    rw [if_pos hheld]
    refine ⟨⟨?_, ?_, hheld.1, hheld.2⟩, le_refl 0, ?_⟩
    · show f.avail - n + (f.unsnt + n) = initial
      omega
    · show 0 ≤ f.unsnt + n
      omega
    · show 0 + (f.unsnt + n) = f.unsnt + n
      omega
  · -- everything is announced, and the window is as large as at first
    rw [if_neg hheld]
    refine ⟨⟨?_, le_refl 0, (by decide : (0 : Int) < inflowMinRefresh), ?_⟩, ?_, ?_⟩
    · show f.avail - n + (f.unsnt + n) + 0 = initial
      omega
    · show 0 < f.avail - n + (f.unsnt + n)
      omega
    · show 0 ≤ f.unsnt + n
      omega
    · show f.unsnt + n + 0 = f.unsnt + n
      omega

/-- An exchange of a settled window is exact and computes what `Flow` says. -/
theorem exchange_spec {t : Taking} (hf : Settled initial f) (h : initial ≤ int32Max)
    (ht : t.InRange) (n : Nat) :
    (f.exchange t n).Exact ∧
      (f.exchange t n).value = (t.take f n).map fun g => g.add n := by
  obtain ⟨hexact, hvalue⟩ := Taking.metered_spec ht (hf.inRange h) n
  rw [exchange, exact_bind, value_bind, hvalue]
  cases htake : t.take f n with
  | none => exact ⟨⟨hexact, exact_pure _⟩, rfl⟩
  | some g =>
    -- what was taken fits back in
    obtain ⟨hn, rfl⟩ := Taking.take_eq_some htake
    obtain ⟨hsum, h0, -, hlt⟩ := hf
    have hconsumed : InSigned 32 (n : Int) :=
      inSigned_iff.2 ⟨by unfold int32Min; omega, by omega⟩
    obtain ⟨hadd, hresult⟩ := addMetered_spec (f := { f with avail := f.avail - n }) (n := n) h0
      (by show 0 ≤ f.avail - n; omega) (by show f.avail - n + f.unsnt + n ≤ int32Max; omega)
    simp only [exact_bind, value_bind, exact_toSigned, value_toSigned (by omega) hconsumed, hresult,
      Option.map_some, value_pure]
    exact ⟨⟨hexact, hconsumed, hadd, exact_pure _⟩, trivial⟩

/-! ## Series of exchanges -/

/-- A window of the size `initial` after a series of exchanges, with the amounts and the refreshes
that `add` returned. -/
inductive Exchanges (initial : Int) : List (Nat × Int) → InFlow → Prop where
  | init : Exchanges initial [] (({} : InFlow).init initial)
  | exchange {history : List (Nat × Int)} {f g : InFlow} {t : Taking} {n : Nat} {refresh : Int} :
      Exchanges initial history f → t.InRange → (f.exchange t n).value = some (refresh, g) →
      Exchanges initial (history ++ [(n, refresh)]) g

/-- Along a series the window stays settled, `add` reports no overflow, and what is not announced is
withheld. -/
theorem Exchanges.account {history : List (Nat × Int)} (h1 : 1 ≤ initial)
    (h : initial ≤ int32Max) (hrun : Exchanges initial history f) :
    Settled initial f ∧ (∀ p ∈ history, 0 ≤ p.2) ∧
      (history.map Prod.snd).sum + f.unsnt = (history.map fun p => (p.1 : Int)).sum := by
  induction hrun with
  | init => exact ⟨settled_init h1, by simp, rfl⟩
  | @exchange history f g t n refresh hrun ht hvalue ih =>
    obtain ⟨hsettled, hrefreshes, hsums⟩ := ih
    -- the window was settled before, so the exchange is that of `Flow`
    rw [(exchange_spec hsettled h ht n).2] at hvalue
    obtain ⟨left, htake, hadd⟩ := Option.map_eq_some_iff.1 hvalue
    obtain ⟨hn, rfl⟩ := Taking.take_eq_some htake
    obtain ⟨hnext, hpos, hsum⟩ := hsettled.add h hn
    rw [hadd] at hnext hpos hsum
    refine ⟨hnext, ?_, ?_⟩
    · intro p hp
      rcases List.mem_append.1 hp with hp | hp
      · exact hrefreshes p hp
      · rw [List.mem_singleton.1 hp]
        exact hpos
    · simp only [List.map_append, List.map_cons, List.map_nil, List.sum_append, List.sum_singleton]
      simp only at hsum
      omega

/-- A window for received data over every series of successful takes each followed by the `add` of
the same length: its size is kept, no operation on a machine integer leaves its range, `add` never
returns `-1`, the refreshes and the withheld credit make up what was received, and the peer keeps
more than half of the window. -/
theorem exchanges_settled {history : List (Nat × Int)} (h1 : 1 ≤ initial)
    (h : initial ≤ int32Max) (hrun : Exchanges initial history f) :
    f.avail + f.unsnt = initial ∧ f.unsnt < 4096 ∧ f.unsnt < f.avail ∧ initial < 2 * f.avail ∧
      (history.map Prod.snd).sum + f.unsnt = (history.map fun p => (p.1 : Int)).sum ∧
      (∀ p ∈ history, p.2 ≠ -1) ∧
      ∀ (t : Taking) (n : Nat), t.InRange → (f.exchange t n).Exact := by
  obtain ⟨hsettled, hrefreshes, hsums⟩ := hrun.account h1 h
  obtain ⟨hsum, h0, hlow, hlt⟩ := hsettled
  refine ⟨hsum, hlow, hlt, by omega, hsums, ?_, ?_⟩
  · intro p hp
    have := hrefreshes p hp
    omega
  · intro t n ht
    exact (exchange_spec ⟨hsum, h0, hlow, hlt⟩ h ht n).1

/-- A window of 10000 bytes: 3000 bytes are withheld, and with 2000 more all 5000 are announced. -/
theorem exchanges_settled_10000 :
    (10000 : Int) + 0 = 10000 ∧ (0 : Int) < 4096 ∧ (0 : Int) < 10000 ∧ (10000 : Int) < 2 * 10000 ∧
      ([((3000 : Nat), (0 : Int)), (2000, 5000)].map Prod.snd).sum + 0 =
        ([((3000 : Nat), (0 : Int)), (2000, 5000)].map fun p => (p.1 : Int)).sum ∧
      (∀ p ∈ [((3000 : Nat), (0 : Int)), (2000, 5000)], p.2 ≠ -1) ∧
      ∀ (t : Taking) (n : Nat), t.InRange → (exchange ⟨10000, 0⟩ t n).Exact := by
  have hstream : (Taking.withStream ⟨65535, 0⟩).InRange :=
    ⟨inSigned_iff.2 (by decide), inSigned_iff.2 (by decide)⟩
  have hrun : Exchanges 10000 [(3000, 0), (2000, 5000)] ⟨10000, 0⟩ :=
    .exchange (t := .withStream ⟨65535, 0⟩) (.exchange (t := .alone) .init trivial rfl) hstream rfl
  exact exchanges_settled (by decide) (by decide) hrun

end Chttp2.InFlow
