import Chttp2.Constants

/-!
# Flow-control windows

`InFlow` is the window for received data: `avail` is what the peer may still send and `unsnt` the
credit that has been consumed but not yet announced. `OutFlow` is the window for sent data. The
pointer of a stream's `OutFlow` to the window of its connection is the argument `conn` here.

`InFlow.Ok` bounds the two counters of a window; under it a successful `take` followed by the
matching `add` cannot report an overflow (`InFlow.add_of_take`), and it keeps
`avail + unsnt` (`InFlow.take_add_sum`).
-/

set_option autoImplicit false

namespace Chttp2

/-- `INFLOW_MIN_REFRESH`. -/
def inflowMinRefresh : Int := 4 * 2 ^ 10

/-- `InFlow`: what the peer may still send, and what has been consumed but not announced yet. -/
structure InFlow where
  avail : Int := 0
  unsnt : Int := 0
  deriving DecidableEq, Repr

namespace InFlow

/-- `init`. -/
def init (f : InFlow) (n : Int) : InFlow := { f with avail := n }

/-- Give back `n` consumed bytes. The first component is the increment to announce, `0` while the
credit is held back, or `-1` when the counter would overflow. -/
def add (f : InFlow) (n : Int) : Int × InFlow :=
  if f.unsnt + n > int32Max then (-1, f)
  else if f.unsnt + n < inflowMinRefresh ∧ f.unsnt + n < f.avail then
    (0, { f with unsnt := f.unsnt + n })
  else (f.unsnt + n, { avail := f.avail + (f.unsnt + n), unsnt := 0 })

/-- `none` stands for `false`. -/
def take (f : InFlow) (n : Nat) : Option InFlow :=
  if f.avail ≤ 0 then none
  else if f.avail < n then none
  else some { f with avail := f.avail - n }

/-- `takeInflows`: DATA takes from the windows of the stream and of the connection, or from
neither. -/
def takeInflows (f1 f2 : InFlow) (n : Nat) : Option (InFlow × InFlow) :=
  if n = 0 then some (f1, f2)
  else if f1.avail ≤ 0 ∨ f2.avail ≤ 0 then none
  else if f1.avail < n ∨ f2.avail < n then none
  else some ({ f1 with avail := f1.avail - n }, { f2 with avail := f2.avail - n })

end InFlow

/-- `OutFlow`: what this side may still send; a change of SETTINGS can make it negative. -/
structure OutFlow where
  window : Int := 0
  deriving DecidableEq, Repr

namespace OutFlow

/-- The smaller of the stream's and the connection's window. -/
def available (f conn : OutFlow) : Int :=
  if conn.window < f.window then conn.window else f.window

/-- Spend `n` bytes of both windows; the result is the stream's and the connection's window. -/
def take (f conn : OutFlow) (n : Int) : Guarded (OutFlow × OutFlow) :=
  if n > f.available conn then .error .tookTooMuch
  else .ok (⟨f.window - n⟩, ⟨conn.window - n⟩)

/-- `none` stands for `false`. -/
def add (f : OutFlow) (n : Int) : Option OutFlow :=
  if f.window + n > int32Max ∨ f.window + n < int32Min then none else some ⟨f.window + n⟩

end OutFlow

/-! ## Received data -/

namespace InFlow

variable {f f' : InFlow} {n : Nat}

theorem take_eq_some : f.take n = some f' ↔
    0 < f.avail ∧ (n : Int) ≤ f.avail ∧ f' = { f with avail := f.avail - n } := by
  unfold take
  split
  · simp
    omega
  · split
    · simp
      omega
    · simp only [Option.some.injEq]
      constructor
      · rintro rfl
        exact ⟨by omega, by omega, rfl⟩
      · rintro ⟨-, -, rfl⟩
        rfl

theorem takeInflows_eq_some {f1 f2 g1 g2 : InFlow} : takeInflows f1 f2 n = some (g1, g2) ↔
    (n = 0 ∨ ((n : Int) ≤ f1.avail ∧ (n : Int) ≤ f2.avail)) ∧
      g1 = { f1 with avail := f1.avail - n } ∧ g2 = { f2 with avail := f2.avail - n } := by
  unfold takeInflows
  split
  · rename_i h
    subst h
    simp only [Option.some.injEq, Prod.mk.injEq, Nat.cast_zero, sub_zero, true_or, true_and]
    constructor
    · rintro ⟨rfl, rfl⟩
      exact ⟨rfl, rfl⟩
    · rintro ⟨rfl, rfl⟩
      exact ⟨rfl, rfl⟩
  · split
    · simp
      omega
    · split
      · simp
        omega
      · simp only [Option.some.injEq, Prod.mk.injEq]
        constructor
        · rintro ⟨rfl, rfl⟩
          exact ⟨by omega, rfl, rfl⟩
        · rintro ⟨-, rfl, rfl⟩
          exact ⟨rfl, rfl⟩

/-- The counters of a window that a peer may be granted. -/
structure Ok (f : InFlow) : Prop where
  unsnt_nonneg : 0 ≤ f.unsnt
  unsnt_le : f.unsnt ≤ int32Max
  sum_le : f.avail + f.unsnt ≤ int32Max

theorem ok_init {n : Int} (h : n ≤ int32Max) : (({} : InFlow).init n).Ok :=
  ⟨le_refl 0, by simp [init, int32Max], by simpa [init] using h⟩

/-- The three ways `add` ends. -/
theorem add_cases (f : InFlow) (n : Int) :
    (f.unsnt + n > int32Max ∧ f.add n = (-1, f)) ∨
      (f.unsnt + n < f.avail ∧ f.add n = (0, { f with unsnt := f.unsnt + n })) ∨
      f.add n = (f.unsnt + n, { avail := f.avail + (f.unsnt + n), unsnt := 0 }) := by
  unfold add
  split
  · exact Or.inl ⟨by assumption, rfl⟩
  · split
    · rename_i h
      exact Or.inr (Or.inl ⟨h.2, rfl⟩)
    · exact Or.inr (Or.inr rfl)

/-- What `add` returns when it does not report an overflow: the announced increment and the held
back credit grow together by `n`, and `avail` grows by the increment. -/
theorem add_spec {n : Int} (hn : 0 ≤ n) (h0 : 0 ≤ f.unsnt) (h : ¬ (f.add n).1 < 0) :
    0 ≤ (f.add n).1 ∧ (f.add n).1 + (f.add n).2.unsnt = f.unsnt + n ∧
      (f.add n).2.avail = f.avail + (f.add n).1 ∧ 0 ≤ (f.add n).2.unsnt := by
  rcases add_cases f n with ⟨-, he⟩ | ⟨-, he⟩ | he
  · rw [he] at h
    simp at h
  · rw [he]
    refine ⟨le_refl 0, ?_, ?_, ?_⟩
    · show 0 + (f.unsnt + n) = f.unsnt + n
      omega
    · show f.avail = f.avail + 0
      omega
    · show 0 ≤ f.unsnt + n
      omega
  · rw [he]
    refine ⟨?_, ?_, rfl, le_refl 0⟩
    · show 0 ≤ f.unsnt + n
      omega
    · show f.unsnt + n + 0 = f.unsnt + n
      omega

/-- Giving back what has just been taken does not overflow. -/
theorem add_of_take (hf : f.Ok) (h : n = 0 ∨ (n : Int) ≤ f.avail) :
    ¬ (({ f with avail := f.avail - n } : InFlow).add n).1 < 0 := by
  obtain ⟨h1, h2, h3⟩ := hf
  rcases add_cases { f with avail := f.avail - n } n with ⟨ho, -⟩ | ⟨-, he⟩ | he
  · exfalso
    simp only at ho
    rcases h with rfl | h
    · simp only [Nat.cast_zero, add_zero] at ho
      omega
    · omega
  · rw [he]
    simp
  · rw [he]
    show ¬ f.unsnt + (n : Int) < 0
    omega

/-- A successful take followed by giving the same amount back keeps the sum of the counters. -/
theorem take_add_sum (hf : f.Ok) (h : n = 0 ∨ (n : Int) ≤ f.avail) :
    (({ f with avail := f.avail - n } : InFlow).add n).2.avail +
        (({ f with avail := f.avail - n } : InFlow).add n).2.unsnt = f.avail + f.unsnt := by
  obtain ⟨-, h2, h3, -⟩ := add_spec (f := { f with avail := f.avail - n }) (n := n)
    (by omega) hf.unsnt_nonneg (add_of_take hf h)
  simp only at h2 h3
  omega

theorem ok_take_add (hf : f.Ok) (h : n = 0 ∨ (n : Int) ≤ f.avail) :
    (({ f with avail := f.avail - n } : InFlow).add n).2.Ok := by
  have hsum := take_add_sum hf h
  obtain ⟨h1, h2, -, h4⟩ := add_spec (f := { f with avail := f.avail - n }) (n := n)
    (by omega) hf.unsnt_nonneg (add_of_take hf h)
  refine ⟨h4, ?_, by rw [hsum]; exact hf.sum_le⟩
  have hsub : f.unsnt + (n : Int) ≤ int32Max := by
    rcases h with rfl | h
    · simpa using hf.unsnt_le
    · have := hf.sum_le
      omega
  simp only at h2
  omega

theorem ok_take (hf : f.Ok) (n : Nat) : ({ f with avail := f.avail - n } : InFlow).Ok := by
  obtain ⟨h1, h2, h3⟩ := hf
  refine ⟨h1, h2, ?_⟩
  show f.avail - n + f.unsnt ≤ int32Max
  omega

end InFlow

/-! ## Sent data -/

namespace OutFlow

theorem available_le (f conn : OutFlow) :
    f.available conn ≤ f.window ∧ f.available conn ≤ conn.window := by
  unfold available
  split <;> omega

theorem take_eq_ok {f conn : OutFlow} {n : Int} (h : n ≤ f.available conn) :
    f.take conn n = .ok (⟨f.window - n⟩, ⟨conn.window - n⟩) := by
  rw [take, if_neg (by omega)]

theorem add_eq_some {f g : OutFlow} {n : Int} :
    f.add n = some g ↔ g = ⟨f.window + n⟩ ∧ f.window + n ≤ int32Max ∧ int32Min ≤ f.window + n := by
  unfold add
  split
  · simp
    omega
  · simp only [Option.some.injEq]
    constructor
    · rintro rfl
      exact ⟨rfl, by omega, by omega⟩
    · rintro ⟨rfl, -, -⟩
      rfl

end OutFlow

end Chttp2
