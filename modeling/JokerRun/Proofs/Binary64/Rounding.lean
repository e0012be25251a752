import JokerRun.Proofs.Scoring.Gain
import Mathlib.Data.Nat.Log
import Mathlib.Tactic.IntervalCases
import Mathlib.Tactic.Linarith
import Mathlib.Tactic.Ring

/-
  Rounding to the grid, and amounts times a factor.

  Rounding never crosses a magnitude of the grid and keeps
  the order.  An amount that is no loss, times a factor
  above one, is therefore no less than before: the factor
  exceeds one by a whole step of the grid, which makes up
  for all that rounding can take away.

  Key theorems include:
    * `Binary64.nearest_mono`
    * `Binary64.le_nearest`
    * `Binary64.floorAmount_ofRatio`
    * `Binary64.scale_mono`
    * `Binary64.le_scale`
-/

------------------------------------------------------------
-- Whole Numbers
------------------------------------------------------------

namespace JokerRun

namespace Binary64

section

variable {n m d k : Nat}

theorem div_le_halfEven
    (n d : Nat) :
    n / d ≤ halfEven n d := by
  unfold halfEven
  dsimp only
  split_ifs <;> omega

theorem halfEven_le_div_succ
    (n d : Nat) :
    halfEven n d ≤ n / d + 1 := by
  unfold halfEven
  dsimp only
  split_ifs <;> omega

/- Rounding does not fall below a whole number. -/
theorem le_halfEven
    (hPos : 0 < d)
    (hLe : k * d ≤ n) :
    k ≤ halfEven n d :=
  Nat.le_trans ((Nat.le_div_iff_mul_le hPos).mpr hLe)
    (div_le_halfEven n d)

/- Rounding does not rise above a whole number. -/
theorem halfEven_le
    (hPos : 0 < d)
    (hLe : n ≤ k * d) :
    halfEven n d ≤ k := by
  rcases Nat.lt_or_eq_of_le hLe with hLt | hEq
  · have hQuot : n / d < k :=
      (Nat.div_lt_iff_lt_mul hPos).mpr hLt
    exact Nat.le_trans (halfEven_le_div_succ n d) hQuot
  · unfold halfEven
    dsimp only
    rw [hEq, Nat.mul_div_cancel k hPos, Nat.mul_mod_left,
      if_pos hPos]

/- Rounding keeps the order. -/
theorem halfEven_mono
    (d : Nat)
    (hLe : n ≤ m) :
    halfEven n d ≤ halfEven m d := by
  have hQuot : n / d ≤ m / d := Nat.div_le_div_right hLe
  rcases Nat.lt_or_eq_of_le hQuot with hLt | hEq
  · exact Nat.le_trans (halfEven_le_div_succ n d)
      (Nat.le_trans hLt (div_le_halfEven m d))
  · -- Of equal quotients the remainders decide.
    have hRem : n % d ≤ m % d := by
      have hN := Nat.div_add_mod n d
      have hM := Nat.div_add_mod m d
      rw [hEq] at hN
      omega
    unfold halfEven
    dsimp only
    rw [hEq]
    split_ifs <;> omega

------------------------------------------------------------
-- The Grid
------------------------------------------------------------

theorem step_eq
    (u : Nat) :
    step u = 2 ^ (u.log2 - 52) := rfl

theorem step_pos
    (u : Nat) :
    0 < step u :=
  Nat.two_pow_pos _

theorem log2_mono
    (hLe : n ≤ m) :
    n.log2 ≤ m.log2 := by
  rw [Nat.log2_eq_log_two, Nat.log2_eq_log_two]
  exact Nat.log_mono_right hLe

/- The grid is only ever coarser further up. -/
theorem step_dvd_step
    (hLe : n ≤ m) :
    step n ∣ step m :=
  Nat.pow_dvd_pow 2
    (Nat.sub_le_sub_right (log2_mono hLe) 52)

/-
  A multiple of the step that holds between two powers of
  two is on the grid, the upper power included.
-/
theorem step_dvd_of_between
    {e g : Nat}
    (hLow : 2 ^ e ≤ g)
    (hHigh : g ≤ 2 ^ (e + 1))
    (hDvd : 2 ^ (e - 52) ∣ g) :
    step g ∣ g := by
  rw [step_eq]
  rcases Nat.lt_or_eq_of_le hHigh with hLt | hEq
  · have hNe : g ≠ 0 := by
      have hPos := Nat.two_pow_pos e
      omega
    rw [(Nat.log2_eq_iff hNe).mpr ⟨hLow, hLt⟩]
    exact hDvd
  · rw [hEq, Nat.log2_two_pow]
    exact Nat.pow_dvd_pow 2 (Nat.sub_le _ _)

------------------------------------------------------------
-- Rounding To The Grid
------------------------------------------------------------

/- No multiple of the local step is crossed downwards. -/
theorem le_nearest_of_dvd
    {g : Nat}
    (hPos : 0 < d)
    (hDvd : step (n / d) ∣ g)
    (hLe : g * d ≤ n) :
    g ≤ nearest n d := by
  rcases hDvd with ⟨k, rfl⟩
  have hMul : k * (d * step (n / d)) ≤ n := by
    calc
      k * (d * step (n / d)) = step (n / d) * k * d := by
        ring
      _ ≤ n := hLe
  exact Nat.mul_le_mul_left _
    (le_halfEven (Nat.mul_pos hPos (step_pos _)) hMul)

/- No multiple of the local step is crossed upwards. -/
theorem nearest_le_of_dvd
    {g : Nat}
    (hPos : 0 < d)
    (hDvd : step (n / d) ∣ g)
    (hLe : n ≤ g * d) :
    nearest n d ≤ g := by
  rcases hDvd with ⟨k, rfl⟩
  have hMul : n ≤ k * (d * step (n / d)) := by
    calc
      n ≤ step (n / d) * k * d := hLe
      _ = k * (d * step (n / d)) := by ring
  exact Nat.mul_le_mul_left _
    (halfEven_le (Nat.mul_pos hPos (step_pos _)) hMul)

/- The power of two below a fraction is not crossed. -/
theorem two_pow_le_nearest
    (hPos : 0 < d)
    (hQuot : n / d ≠ 0) :
    2 ^ (n / d).log2 ≤ nearest n d := by
  apply le_nearest_of_dvd hPos
  · exact Nat.pow_dvd_pow 2 (Nat.sub_le _ _)
  · exact (Nat.le_div_iff_mul_le hPos).mp
      (Nat.log2_self_le hQuot)

/- The power of two above a fraction is not crossed. -/
theorem nearest_le_two_pow
    (hPos : 0 < d) :
    nearest n d ≤ 2 ^ ((n / d).log2 + 1) := by
  apply nearest_le_of_dvd hPos
  · exact Nat.pow_dvd_pow 2 (by omega)
  · exact Nat.le_of_lt
      ((Nat.div_lt_iff_lt_mul hPos).mp Nat.lt_log2_self)

/- What is rounded is a multiple of its own step. -/
theorem step_dvd_nearest
    (hPos : 0 < d) :
    step (nearest n d) ∣ nearest n d := by
  have hHigh : nearest n d ≤ 2 ^ ((n / d).log2 + 1) :=
    nearest_le_two_pow hPos
  by_cases hQuot : n / d = 0
  · rw [hQuot] at hHigh
    have hSmall : nearest n d ≤ 2 := hHigh
    interval_cases nearest n d <;> decide
  · exact step_dvd_of_between
      (two_pow_le_nearest hPos hQuot) hHigh
      (Nat.dvd_mul_right _ _)

/- Rounding does not fall below a magnitude of the grid. -/
theorem le_nearest
    {g : Nat}
    (hPos : 0 < d)
    (hGrid : step g ∣ g)
    (hLe : g * d ≤ n) :
    g ≤ nearest n d := by
  have hQuot : g ≤ n / d :=
    (Nat.le_div_iff_mul_le hPos).mpr hLe
  rcases Nat.lt_or_eq_of_le (log2_mono hQuot) with
    hLt | hEq
  · have hNe : n / d ≠ 0 := by
      intro hZero
      rw [hZero] at hLt
      exact Nat.not_lt_zero _ hLt
    calc
      g ≤ 2 ^ (g.log2 + 1) := Nat.le_of_lt Nat.lt_log2_self
      _ ≤ 2 ^ (n / d).log2 :=
        Nat.pow_le_pow_right (by decide) hLt
      _ ≤ nearest n d := two_pow_le_nearest hPos hNe
  · rw [step_eq, hEq] at hGrid
    exact le_nearest_of_dvd hPos hGrid hLe

/- Rounding to the grid keeps the order. -/
theorem nearest_mono
    (hPos : 0 < d)
    (hLe : n ≤ m) :
    nearest n d ≤ nearest m d := by
  have hQuot : n / d ≤ m / d := Nat.div_le_div_right hLe
  rcases Nat.lt_or_eq_of_le (log2_mono hQuot) with
    hLt | hEq
  · have hNe : m / d ≠ 0 := by
      intro hZero
      rw [hZero] at hLt
      exact Nat.not_lt_zero _ hLt
    calc
      nearest n d ≤ 2 ^ ((n / d).log2 + 1) :=
        nearest_le_two_pow hPos
      _ ≤ 2 ^ (m / d).log2 :=
        Nat.pow_le_pow_right (by decide) hLt
      _ ≤ nearest m d := two_pow_le_nearest hPos hNe
  · unfold nearest
    dsimp only
    rw [step_eq, step_eq, hEq]
    exact Nat.mul_le_mul_left _ (halfEven_mono _ hLe)

end

------------------------------------------------------------
-- Magnitudes Above One
------------------------------------------------------------

theorem one_pos :
    0 < one := by
  unfold one
  generalize 1074 = e
  exact Nat.two_pow_pos e

theorem log2_one :
    one.log2 = 1074 := by
  unfold one
  generalize 1074 = e
  exact Nat.log2_two_pow

theorem two_pow_log2_one :
    2 ^ one.log2 = one := by
  unfold one
  generalize 1074 = e
  exact congrArg (fun k => 2 ^ k) Nat.log2_two_pow

/- A power of two is many of the steps that hold from it. -/
theorem two_pow_log2_eq
    {u : Nat}
    (hLarge : one ≤ u) :
    2 ^ u.log2 = 2 ^ 52 * step u := by
  have hLog := log2_mono hLarge
  rw [log2_one] at hLog
  rw [step_eq, ← Nat.pow_add, Nat.add_sub_of_le (by omega)]

theorem one_eq_mul_step :
    one = 2 ^ 52 * step one := by
  rw [← two_pow_log2_eq (Nat.le_refl one),
    two_pow_log2_one]

/- The first magnitude above one is a step away from it. -/
theorem one_add_step_le
    {v : Nat}
    (hGrid : OnGrid v)
    (hAbove : one < v) :
    one + step one ≤ v := by
  have hStep : step one ∣ step v :=
    step_dvd_step (Nat.le_of_lt hAbove)
  have hOne : step one ∣ one :=
    Dvd.intro_left _ one_eq_mul_step.symm
  have hDvd : step one ∣ v - one :=
    Nat.dvd_sub
      (Nat.dvd_trans hStep
        (Nat.dvd_of_mod_eq_zero hGrid.1))
      hOne
  have hGap := Nat.le_of_dvd (by omega) hDvd
  omega

/-
  A magnitude that is rounded, multiplied by more than one
  and rounded again is no less than before.
-/
theorem le_nearest_mul
    {n v : Nat}
    (hLarge : one ≤ n)
    (hFactor : one + step one ≤ v) :
    n ≤ nearest (nearest n 1 * v) one := by
  have hNe : n / 1 ≠ 0 := by
    have hPos := one_pos
    rw [Nat.div_one]
    omega
  have hGrid : step (nearest n 1) ∣ nearest n 1 :=
    step_dvd_nearest Nat.one_pos
  have hLow : 2 ^ n.log2 ≤ nearest n 1 := by
    have hPower := two_pow_le_nearest Nat.one_pos hNe
    rwa [Nat.div_one] at hPower
  have hOwn : step n ∣ nearest n 1 := by
    have hDvd : step (n / 1) ∣ nearest n 1 :=
      Nat.dvd_mul_right _ _
    rwa [Nat.div_one] at hDvd
  have hNear : n ≤ nearest n 1 + step n := by
    have hQuot := div_le_halfEven n (1 * step (n / 1))
    have hScaled := Nat.mul_le_mul_left (step n) hQuot
    have hRest := Nat.lt_mul_div_succ n (step_pos n)
    unfold nearest
    dsimp only
    rw [Nat.div_one, Nat.one_mul] at *
    rw [Nat.mul_succ] at hRest
    omega
  generalize nearest n 1 = u at *
  by_cases hUp : n ≤ u
  · -- Rounding has gone up: any factor above one will do.
    have hMul : u * one ≤ u * v :=
      Nat.mul_le_mul_left u (by omega)
    exact Nat.le_trans hUp (le_nearest one_pos hGrid hMul)
  · -- Rounding has gone down by less than a step.
    have hNext : step (u + step n) ∣ u + step n := by
      have hTop : step n ∣ 2 ^ (n.log2 + 1) :=
        Nat.pow_dvd_pow 2 (by omega)
      have hBelow : u < 2 ^ (n.log2 + 1) :=
        Nat.lt_trans (Nat.lt_of_not_le hUp)
          Nat.lt_log2_self
      have hGap :=
        Nat.le_of_dvd (by omega) (Nat.dvd_sub hTop hOwn)
      exact step_dvd_of_between (by omega) (by omega)
        (Nat.dvd_add hOwn (Nat.dvd_refl _))
    have hGain : step n * one ≤ u * step one := by
      calc
        step n * one = step n * (2 ^ 52 * step one) := by
          rw [← one_eq_mul_step]
        _ = 2 ^ 52 * step n * step one := by ring
        _ = 2 ^ n.log2 * step one := by
          rw [two_pow_log2_eq hLarge]
        _ ≤ u * step one := Nat.mul_le_mul_right _ hLow
    have hMul : (u + step n) * one ≤ u * v := by
      calc
        (u + step n) * one = u * one + step n * one :=
          Nat.add_mul _ _ _
        _ ≤ u * one + u * step one :=
          Nat.add_le_add_left hGain _
        _ = u * (one + step one) :=
          (Nat.mul_add _ _ _).symm
        _ ≤ u * v := Nat.mul_le_mul_left u hFactor
    exact Nat.le_trans hNear
      (le_nearest one_pos hNext hMul)

------------------------------------------------------------
-- Amounts
------------------------------------------------------------

/- The format reaches far beyond the range of amounts. -/
theorem mul_one_le_ceiling :
    2 ^ 64 * one ≤ ceiling := by
  unfold one ceiling
  -- Powers this large stay closed.
  generalize hOne : 1074 = a
  generalize hCeiling : 2098 = b
  calc
    2 ^ 64 * 2 ^ a = 2 ^ (64 + a) := (Nat.pow_add 2 64 a).symm
    _ ≤ 2 ^ b := Nat.pow_le_pow_right (by decide) (by omega)

/- A magnitude without a sign, rounded down. -/
theorem floorAmount_finite
    (u : Nat)
    (hGrid : OnGrid u) :
    (finite false u hGrid).floorAmount =
      Amount.clamp ((u / one : Nat) : Int) := by
  change Amount.clamp (Int.fdiv (u : Int) (one : Int)) = _
  rw [Int.fdiv_eq_ediv_of_nonneg _ (Int.natCast_nonneg _),
    Int.natCast_ediv]

/-
  A rounded fraction, rounded down: a fraction beyond the
  format is beyond the range of amounts, too.
-/
theorem floorAmount_ofRatio
    {n d : Nat}
    (hPos : 0 < d) :
    (ofRatio false n d).floorAmount =
      Amount.clamp ((nearest n d / one : Nat) : Int) := by
  have hOwn := step_dvd_nearest (n := n) hPos
  unfold ofRatio ofUnits
  generalize nearest n d = u at *
  split
  · exact floorAmount_finite u _
  · rename_i hOff
    have hBeyond : ceiling ≤ u := by
      by_contra hBelow
      exact hOff ⟨Nat.mod_eq_zero_of_dvd hOwn,
        Nat.lt_of_not_le hBelow⟩
    have hQuot : 2 ^ 64 ≤ u / one :=
      (Nat.le_div_iff_mul_le one_pos).mpr
        (Nat.le_trans mul_one_le_ceiling hBeyond)
    generalize u / one = q at hQuot
    change Amount.highest = Amount.clamp (q : Int)
    unfold Amount.clamp Amount.lowest Amount.highest
    omega

/- What an amount that is no loss rounds to is no overflow. -/
theorem nearest_lt_ceiling
    {m : Nat}
    (hHigh : (m : Int) ≤ Amount.highest) :
    nearest (m * one) 1 < ceiling := by
  have hCeiling := mul_one_le_ceiling
  have hOne := one_pos
  generalize ceiling = c at *
  generalize one = o at *
  by_cases hZero : m = 0
  · have hNone : nearest (m * o) 1 = 0 := by
      rw [hZero, Nat.zero_mul]
      decide
    omega
  · have hTop :
        nearest (m * o) 1 ≤ 2 ^ ((m * o / 1).log2 + 1) :=
      nearest_le_two_pow Nat.one_pos
    rw [Nat.pow_succ] at hTop
    have hPower : 2 ^ (m * o / 1).log2 ≤ m * o := by
      rw [Nat.div_one]
      exact Nat.log2_self_le
        (Nat.mul_ne_zero hZero (Nat.ne_of_gt hOne))
    have hRange : m < 2 ^ 63 := by
      unfold Amount.highest at hHigh
      omega
    have hBelow : m * o < 2 ^ 63 * o :=
      Nat.mul_lt_mul_of_pos_right hRange hOne
    omega

/- The number of an amount that is no loss is finite. -/
theorem ofInt_natCast
    {m : Nat}
    (hHigh : (m : Int) ≤ Amount.highest) :
    ∃ hGrid,
      ofInt m =
        .finite false (nearest (m * one) 1) hGrid := by
  have hGrid : OnGrid (nearest (m * one) 1) := by
    constructor
    · exact Nat.mod_eq_zero_of_dvd
        (step_dvd_nearest Nat.one_pos)
    · exact nearest_lt_ceiling hHigh
  refine ⟨hGrid, ?_⟩
  have hSign : decide ((m : Int) < 0) = false := by
    simp
  unfold ofInt ofRatio ofUnits
  rw [hSign, Int.natAbs_natCast, dif_pos hGrid]

section

variable {m m' : Nat}
variable {v : Nat}

/- An amount times a finite factor. -/
theorem scale_finite
    (hHigh : (m : Int) ≤ Amount.highest)
    (hGrid : OnGrid v) :
    scale m (.finite false v hGrid) =
      Amount.clamp
        ((nearest (nearest (m * one) 1 * v) one / one :
          Nat) : Int) := by
  rcases ofInt_natCast hHigh with ⟨hOwn, hNumber⟩
  unfold scale
  rw [hNumber]
  exact floorAmount_ofRatio one_pos

/- Nothing times infinity is no number. -/
theorem scale_zero_infinite :
    scale 0 (.infinite false) = 0 := by
  decide +kernel

/- Anything else times infinity is the largest amount. -/
theorem scale_infinite
    (hHigh : (m : Int) ≤ Amount.highest)
    (hPos : 0 < m) :
    scale m (.infinite false) = Amount.highest := by
  rcases ofInt_natCast hHigh with ⟨hOwn, hNumber⟩
  have hUnit : 1 ≤ nearest (m * one) 1 :=
    le_nearest Nat.one_pos (by decide)
      (Nat.mul_le_mul hPos one_pos)
  have hNe := Nat.ne_of_gt hUnit
  unfold scale
  rw [hNumber]
  unfold mul
  dsimp only
  rw [if_neg hNe]
  rfl

end

section

variable {n m : Int}
variable {f : Binary64}

/- A factor above one is infinite or finite, without a sign. -/
theorem factor_cases
    (hFactor : f.exceedsOne = true) :
    f = .infinite false ∨
      ∃ v hGrid, f = .finite false v hGrid ∧ one < v := by
  cases f with
  | nan => exact absurd hFactor Bool.false_ne_true
  | infinite negative =>
      cases negative with
      | false => exact Or.inl rfl
      | true => exact absurd hFactor Bool.false_ne_true
  | finite negative v hGrid =>
      cases negative with
      | false =>
          simp only [exceedsOne, Bool.not_false,
            Bool.true_and, decide_eq_true_eq] at hFactor
          exact Or.inr ⟨v, hGrid, rfl, hFactor⟩
      | true => exact absurd hFactor Bool.false_ne_true

/- A factor above one never lessens an amount. -/
theorem le_scale
    (hFactor : f.exceedsOne = true)
    (hNonneg : 0 ≤ m)
    (hHigh : m ≤ Amount.highest) :
    m ≤ scale m f := by
  lift m to Nat using hNonneg
  rcases factor_cases hFactor with
    rfl | ⟨v, hGrid, rfl, hAbove⟩
  · rcases Nat.eq_zero_or_pos m with rfl | hPos
    · exact Int.le_of_eq scale_zero_infinite.symm
    · rw [scale_infinite hHigh hPos]
      exact hHigh
  · rw [scale_finite hHigh hGrid]
    have hQuot :
        m ≤ nearest (nearest (m * one) 1 * v) one / one := by
      rw [Nat.le_div_iff_mul_le one_pos]
      rcases Nat.eq_zero_or_pos m with rfl | hPos
      · rw [Nat.zero_mul]
        exact Nat.zero_le _
      · exact le_nearest_mul (Nat.le_mul_of_pos_left one hPos)
          (one_add_step_le hGrid hAbove)
    generalize
      nearest (nearest (m * one) 1 * v) one / one = q
      at hQuot
    unfold Amount.clamp Amount.lowest
    unfold Amount.highest at *
    omega

/- A factor above one keeps the order of amounts. -/
theorem scale_mono
    (hFactor : f.exceedsOne = true)
    (hNonneg : 0 ≤ n)
    (hLe : n ≤ m)
    (hHigh : m ≤ Amount.highest) :
    scale n f ≤ scale m f := by
  have hLow := Int.le_trans hLe hHigh
  lift n to Nat using hNonneg
  lift m to Nat using (by omega)
  rcases factor_cases hFactor with
    rfl | ⟨v, hGrid, rfl, hAbove⟩
  · rcases Nat.eq_zero_or_pos m with rfl | hPos
    · have hZero : n = 0 := by omega
      rw [hZero]
    · rw [scale_infinite hHigh hPos]
      exact (inRange_floorAmount _).2
  · rw [scale_finite hLow hGrid, scale_finite hHigh hGrid]
    have hQuot :
        nearest (nearest (n * one) 1 * v) one / one ≤
          nearest (nearest (m * one) 1 * v) one / one := by
      have hUnits : n * one ≤ m * one :=
        Nat.mul_le_mul_right one (by omega)
      exact Nat.div_le_div_right
        (nearest_mono one_pos
          (Nat.mul_le_mul_right v
            (nearest_mono Nat.one_pos hUnits)))
    generalize
      nearest (nearest (n * one) 1 * v) one / one = p
      at hQuot
    generalize
      nearest (nearest (m * one) 1 * v) one / one = q
      at hQuot
    unfold Amount.clamp
    omega

end

end Binary64

end JokerRun
