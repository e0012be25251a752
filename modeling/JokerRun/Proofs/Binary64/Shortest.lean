import JokerRun.Binary64.Reading
import JokerRun.Binary64.Shortest
import JokerRun.Proofs.Binary64.Rounding

/-
  The shortest decimal of a number rounds to this number.

  What lies in the interval of a magnitude is nearest to it:
  above the magnitude its own step decides, below it the
  step of what comes before.  Every grid of decimals that is
  fine enough has a point in the interval, and the grids that
  are tried reach that far.

  Key definitions include:
    * `Binary64.Rounds`

  Key theorems include:
    * `Binary64.nearest_eq_of_meets`
    * `Binary64.rounds_succ_iff`
    * `Binary64.rounds_natCast_iff`
    * `Binary64.ofDecimal_of_rounds`
    * `Binary64.rounds_shortest`
-/

------------------------------------------------------------
-- Halves
------------------------------------------------------------

namespace JokerRun

namespace Binary64

section

variable {n d k u : Nat}

/-
  The whole number that a fraction is no further from than a
  half, and from an odd one it is nearer.
-/
theorem halfEven_eq
    (hPos : 0 < d)
    (hLow : 2 * (k * d) ≤ 2 * n + d)
    (hHigh : 2 * n ≤ 2 * (k * d) + d)
    (hTie :
      2 * (k * d) = 2 * n + d ∨ 2 * n = 2 * (k * d) + d →
        k % 2 = 0) :
    halfEven n d = k := by
  have hSplit : n / d * d + n % d = n := Nat.div_add_mod' n d
  have hRest := Nat.mod_lt n hPos
  unfold halfEven
  dsimp only
  rcases Nat.lt_or_ge n (k * d) with hBelow | hAbove
  · have hQuot : k = n / d + 1 := by
      have hUpper : n / d < k :=
        (Nat.div_lt_iff_lt_mul hPos).mpr hBelow
      have hLower : k - 1 ≤ n / d := by
        rw [Nat.le_div_iff_mul_le hPos, Nat.sub_mul]
        omega
      omega
    generalize n / d = q at *
    generalize n % d = r at *
    have hNext : k * d = q * d + d := by
      rw [hQuot, Nat.add_mul, Nat.one_mul]
    split_ifs <;> omega
  · have hQuot : k = n / d := by
      have hLower : k ≤ n / d :=
        (Nat.le_div_iff_mul_le hPos).mpr hAbove
      have hUpper : n / d < k + 1 := by
        rw [Nat.div_lt_iff_lt_mul hPos, Nat.add_mul]
        omega
      omega
    rw [← hQuot] at hSplit ⊢
    generalize n % d = r at *
    split_ifs <;> omega

------------------------------------------------------------
-- The Interval Of A Magnitude
------------------------------------------------------------

theorem step_of_between
    {e q : Nat}
    (hLow : 2 ^ e ≤ q)
    (hHigh : q < 2 ^ (e + 1)) :
    step q = 2 ^ (e - 52) := by
  have hNe : q ≠ 0 := by
    have hPos := Nat.two_pow_pos e
    omega
  rw [step_eq, (Nat.log2_eq_iff hNe).mpr ⟨hLow, hHigh⟩]

/- One step further there is still the same step. -/
theorem add_step_le
    (hOwn : step u ∣ u) :
    u + step u ≤ 2 ^ (u.log2 + 1) := by
  have hTop : step u ∣ 2 ^ (u.log2 + 1) :=
    Nat.pow_dvd_pow 2 (by omega)
  have hBelow : u < 2 ^ (u.log2 + 1) := Nat.lt_log2_self
  have hGap :=
    Nat.le_of_dvd (by omega) (Nat.dvd_sub hTop hOwn)
  omega

/- A fraction up to half a step above a magnitude. -/
theorem nearest_eq_above
    (hPos : 0 < d)
    (hOwn : step u ∣ u)
    (hSome : u ≠ 0)
    (hLow : u * d ≤ n)
    (hHigh : 2 * n ≤ 2 * (u * d) + step u * d)
    (hTie :
      2 * n = 2 * (u * d) + step u * d →
        u / step u % 2 = 0) :
    nearest n d = u := by
  have hStep : step (n / d) = step u := by
    have hAbove : u ≤ n / d :=
      (Nat.le_div_iff_mul_le hPos).mpr hLow
    have hNear : n / d < u + step u := by
      rw [Nat.div_lt_iff_lt_mul hPos, Nat.add_mul]
      have hGap := Nat.mul_pos (step_pos u) hPos
      omega
    rw [step_eq u]
    exact step_of_between
      (Nat.le_trans (Nat.log2_self_le hSome) hAbove)
      (Nat.lt_of_lt_of_le hNear (add_step_le hOwn))
  have hStepPos := step_pos u
  unfold nearest
  dsimp only
  rw [hStep]
  generalize step u = s at *
  rcases hOwn with ⟨k, rfl⟩
  rw [Nat.mul_div_cancel_left k hStepPos] at hTie
  have hUnits : k * (d * s) = s * k * d := by ring
  have hWidth : d * s = s * d := Nat.mul_comm d s
  congr 1
  refine halfEven_eq (Nat.mul_pos hPos hStepPos) ?_ ?_ ?_
  · omega
  · omega
  · rintro (hEnd | hEnd)
    · have hGap := Nat.mul_pos hPos hStepPos
      omega
    · exact hTie (by omega)

/- A magnitude is a multiple of the step just below it. -/
theorem step_pred_dvd
    (hOwn : step u ∣ u) :
    step (u - 1) ∣ u :=
  Nat.dvd_trans (step_dvd_step (Nat.sub_le u 1)) hOwn

/- One such step below there is still the same step. -/
theorem two_pow_add_step_le
    (hOwn : step u ∣ u)
    (hLarge : 2 ≤ u) :
    2 ^ (u - 1).log2 + step (u - 1) ≤ u := by
  have hPower : 2 ^ (u - 1).log2 ≤ u - 1 :=
    Nat.log2_self_le (by omega)
  have hBase : step (u - 1) ∣ 2 ^ (u - 1).log2 :=
    Nat.pow_dvd_pow 2 (Nat.sub_le _ 52)
  have hGap :=
    Nat.le_of_dvd (by omega)
      (Nat.dvd_sub (step_pred_dvd hOwn) hBase)
  omega

/- A fraction up to half a step below a magnitude. -/
theorem nearest_eq_below
    (hPos : 0 < d)
    (hOwn : step u ∣ u)
    (hHigh : n < u * d)
    (hLow : 2 * (u * d) ≤ 2 * n + step (u - 1) * d)
    (hTie :
      2 * (u * d) = 2 * n + step (u - 1) * d →
        u / step u % 2 = 0) :
    nearest n d = u := by
  have hQuot : n / d < u :=
    (Nat.div_lt_iff_lt_mul hPos).mpr hHigh
  have hStep : step (n / d) = step (u - 1) := by
    rcases Nat.lt_or_ge u 2 with hSmall | hLarge
    · have hZero : n / d = u - 1 := by
        generalize n / d = q at hQuot ⊢
        omega
      rw [hZero]
    · have hRoom := two_pow_add_step_le hOwn hLarge
      have hNear : u - step (u - 1) ≤ n / d := by
        rw [Nat.le_div_iff_mul_le hPos, Nat.sub_mul]
        omega
      have hBelow : u - 1 < 2 ^ ((u - 1).log2 + 1) :=
        Nat.lt_log2_self
      rw [step_eq (u - 1)]
      exact step_of_between (by omega) (by omega)
  -- In smaller steps an even magnitude is even, too.
  have hEven :
      u / step u % 2 = 0 → u / step (u - 1) % 2 = 0 := by
    rcases step_dvd_step (Nat.sub_le u 1) with ⟨c, hCoarse⟩
    have hFinePos := step_pos (u - 1)
    intro hOwnEven
    rcases Nat.dvd_of_mod_eq_zero hOwnEven with ⟨m, hHalf⟩
    have hUnits : u = step (u - 1) * (2 * (c * m)) := by
      calc
        u = step u * (u / step u) :=
          (Nat.mul_div_cancel' hOwn).symm
        _ = step (u - 1) * c * (2 * m) := by
          rw [hHalf, ← hCoarse]
        _ = step (u - 1) * (2 * (c * m)) := by ring
    have hCount : u / step (u - 1) = 2 * (c * m) :=
      Nat.div_eq_of_eq_mul_right hFinePos hUnits
    omega
  have hFine := step_pred_dvd hOwn
  have hStepPos := step_pos (u - 1)
  unfold nearest
  dsimp only
  rw [hStep]
  generalize step (u - 1) = s at *
  generalize u / step u % 2 = parity at *
  rcases hFine with ⟨k, rfl⟩
  rw [Nat.mul_div_cancel_left k hStepPos] at hEven
  have hUnits : k * (d * s) = s * k * d := by ring
  have hWidth : d * s = s * d := Nat.mul_comm d s
  congr 1
  refine halfEven_eq (Nat.mul_pos hPos hStepPos) ?_ ?_ ?_
  · omega
  · omega
  · rintro (hEnd | hEnd)
    · exact hEven (hTie (by omega))
    · have hGap := Nat.mul_pos hPos hStepPos
      omega

/- The step below a magnitude is no larger than it. -/
theorem step_pred_le
    (hOwn : step u ∣ u)
    (hSome : u ≠ 0) :
    step (u - 1) ≤ u :=
  Nat.le_of_dvd (Nat.pos_of_ne_zero hSome)
    (step_pred_dvd hOwn)

/- What meets the interval of a magnitude rounds to it. -/
theorem nearest_eq_of_meets
    (hPos : 0 < d)
    (hOwn : step u ∣ u)
    (hSome : u ≠ 0)
    (hMeets : meets u (4 * n) d = true) :
    nearest n d = u := by
  have hBelow := step_pred_le hOwn hSome
  have hLowEnd :
      lowEnd u * d = 4 * (u * d) - 2 * (step (u - 1) * d) := by
    rw [lowEnd, Nat.sub_mul, Nat.mul_assoc, Nat.mul_assoc]
  have hHighEnd :
      highEnd u * d = 4 * (u * d) + 2 * (step u * d) := by
    rw [highEnd, Nat.add_mul, Nat.mul_assoc, Nat.mul_assoc]
  have hOver : step (u - 1) * d ≤ u * d :=
    Nat.mul_le_mul_right d hBelow
  have hEnds :
      (lowEnd u * d ≤ 4 * n ∧ 4 * n ≤ highEnd u * d) ∧
        (lowEnd u * d = 4 * n ∨ 4 * n = highEnd u * d →
          u / step u % 2 = 0) := by
    unfold meets hasEnds at hMeets
    by_cases hEven : u / step u % 2 = 0
    · simp only [hEven, beq_self_eq_true, if_true,
        Bool.and_eq_true, decide_eq_true_eq] at hMeets
      exact ⟨hMeets, fun _ => hEven⟩
    · simp only [beq_iff_eq, hEven, if_false,
        Bool.and_eq_true, decide_eq_true_eq] at hMeets
      omega
  rcases hEnds with ⟨⟨hLow, hHigh⟩, hTie⟩
  rcases Nat.lt_or_ge n (u * d) with hUnder | hAbove
  · exact nearest_eq_below hPos hOwn hUnder (by omega)
      fun hEnd => hTie (Or.inl (by omega))
  · exact nearest_eq_above hPos hOwn hSome hAbove (by omega)
      fun hEnd => hTie (Or.inr (by omega))

end

------------------------------------------------------------
-- Decimals In The Interval
------------------------------------------------------------

/- A decimal in the interval of a magnitude. -/
def Rounds
    (u digits : Nat)
    (exponent : Int) : Prop :=
  meets u (digits * (cell exponent).1) (cell exponent).2 =
    true

section

variable {u digits : Nat}
variable {exponent : Int}

/- A fraction may be written with larger numbers. -/
theorem meets_mul
    {c : Nat}
    (hPos : 0 < c)
    (u n d : Nat) :
    meets u (n * c) (d * c) = meets u n d := by
  unfold meets
  simp only [← Nat.mul_assoc, Nat.mul_le_mul_right_iff hPos,
    Nat.mul_lt_mul_right hPos]

theorem cell_natCast
    (k : Nat) :
    cell (k : Int) = (4 * one * 10 ^ k, 1) := rfl

theorem cell_negSucc
    (k : Nat) :
    cell (.negSucc k) = (4 * one, 10 ^ (k + 1)) := rfl

/- A zero may be written instead of counted. -/
theorem rounds_succ_iff :
    Rounds u digits (exponent + 1) ↔
      Rounds u (digits * 10) exponent := by
  unfold Rounds
  rcases exponent with k | k
  · have hNext : Int.ofNat k + 1 = ((k + 1 : Nat) : Int) := rfl
    have hSame :
        digits * (4 * one * 10 ^ (k + 1)) =
          digits * 10 * (4 * one * 10 ^ k) := by
      ring
    rw [hNext, cell_natCast, Int.ofNat_eq_natCast,
      cell_natCast, hSame]
  · rw [← meets_mul (by decide : 0 < 10) u
      (digits * (cell (.negSucc k + 1)).1)]
    cases k with
    | zero =>
        have hNext : Int.negSucc 0 + 1 = ((0 : Nat) : Int) :=
          rfl
        rw [hNext, cell_natCast, cell_negSucc, Nat.pow_zero,
          Nat.mul_one, Nat.one_mul, Nat.pow_one,
          Nat.mul_right_comm]
    | succ k =>
        have hNext :
            Int.negSucc (k + 1) + 1 = Int.negSucc k := rfl
        rw [hNext, cell_negSucc, cell_negSucc,
          Nat.pow_succ 10 (k + 1), Nat.mul_right_comm]

/- Zeros may be written instead of counted. -/
theorem rounds_natCast_iff
    {k : Nat} :
    Rounds u digits (k : Int) ↔
      Rounds u (digits * 10 ^ k) 0 := by
  induction k generalizing digits with
  | zero =>
      rw [Nat.pow_zero, Nat.mul_one]
      rfl
  | succ k ih =>
      rw [Int.natCast_succ, rounds_succ_iff, ih,
        Nat.mul_assoc, ← Nat.pow_succ']

------------------------------------------------------------
-- Sizes
------------------------------------------------------------

/- Neither end is far from the magnitude. -/
theorem between_of_meets
    {n d : Nat}
    (hOwn : step u ∣ u)
    (hSome : u ≠ 0)
    (hMeets : meets u n d = true) :
    2 * (u * d) ≤ n ∧ n ≤ 8 * (u * d) := by
  have hBelow := step_pred_le hOwn hSome
  have hStep : step u ≤ u :=
    Nat.le_of_dvd (Nat.pos_of_ne_zero hSome) hOwn
  have hLowEnd : 2 * u * d ≤ lowEnd u * d := by
    apply Nat.mul_le_mul_right
    unfold lowEnd
    omega
  have hHighEnd : highEnd u * d ≤ 8 * u * d := by
    apply Nat.mul_le_mul_right
    unfold highEnd
    omega
  rw [Nat.mul_assoc] at hLowEnd hHighEnd
  unfold meets at hMeets
  split at hMeets
  · simp only [Bool.and_eq_true, decide_eq_true_eq] at hMeets
    omega
  · simp only [Bool.and_eq_true, decide_eq_true_eq] at hMeets
    omega

/-
  The fraction of a power of ten, and how it compares with
  the powers around it.
-/
theorem exists_cell_eq
    (exponent : Int) :
    ∃ c d, cell exponent = (4 * one * c, d) ∧ 0 < d ∧
      (∀ m t : Nat, (t : Int) ≤ m + exponent →
        10 ^ t * d ≤ 10 ^ m * c) ∧
      ∀ m t : Nat, m + exponent ≤ -(t : Int) →
        10 ^ m * c * 10 ^ t ≤ d := by
  rcases exponent with k | k
  · refine ⟨10 ^ k, 1, rfl, Nat.one_pos, ?_, ?_⟩
    · intro m t hLe
      rw [Int.ofNat_eq_natCast] at hLe
      rw [Nat.mul_one, ← Nat.pow_add]
      exact Nat.pow_le_pow_right (by decide) (by omega)
    · intro m t hLe
      rw [Int.ofNat_eq_natCast] at hLe
      have hNone : m + k + t = 0 := by omega
      rw [← Nat.pow_add, ← Nat.pow_add, hNone]
  · refine ⟨1, 10 ^ (k + 1), ?_, Nat.pow_pos (by decide),
      ?_, ?_⟩
    · rw [cell_negSucc, Nat.mul_one]
    · intro m t hLe
      rw [Nat.mul_one, ← Nat.pow_add]
      exact Nat.pow_le_pow_right (by decide) (by omega)
    · intro m t hLe
      rw [Nat.mul_one, ← Nat.pow_add]
      exact Nat.pow_le_pow_right (by decide) (by omega)

/- The number of digits bounds a number from both sides. -/
theorem length_repr_bounds
    (hSome : digits ≠ 0) :
    0 < (Nat.repr digits).length ∧
      10 ^ ((Nat.repr digits).length - 1) ≤ digits ∧
      digits < 10 ^ (Nat.repr digits).length := by
  have hLength :
      (Nat.repr digits).length =
        (Nat.toDigits 10 digits).length := by
    rw [← String.length_toList, Nat.toList_repr]
  have hPos : 0 < (Nat.toDigits 10 digits).length :=
    Nat.length_toDigits_pos
  rw [hLength]
  refine ⟨hPos, ?_, ?_⟩
  · rcases Nat.eq_zero_or_pos
        ((Nat.toDigits 10 digits).length - 1) with
      hNone | hMore
    · rw [hNone]
      exact Nat.pos_of_ne_zero hSome
    · have hFewer :=
        Nat.length_toDigits_le_iff (n := digits)
          (by decide : 1 < 10) hMore
      omega
  · exact (Nat.length_toDigits_le_iff (by decide) hPos).mp
      (Nat.le_refl _)

/- Decimals beyond the highest exponent are beyond the format. -/
theorem two_mul_ceiling_le :
    2 * ceiling ≤ one * 10 ^ 310 := by
  decide +kernel

/- Decimals below the lowest exponent are nothing to it. -/
theorem two_mul_one_lt :
    2 * one < 10 ^ 346 := by
  decide +kernel

/- The bounds of the interval, for a decimal in it. -/
theorem between_of_rounds
    {c d : Nat}
    (hGrid : OnGrid u)
    (hSome : u ≠ 0)
    (hCell : cell exponent = (4 * one * c, d))
    (hRounds : Rounds u digits exponent) :
    u * d ≤ 2 * (one * (digits * c)) ∧
      one * (digits * c) ≤ 2 * (u * d) := by
  have hOwn : step u ∣ u := Nat.dvd_of_mod_eq_zero hGrid.1
  have hFour :
      digits * (4 * one * c) = 4 * (one * (digits * c)) := by
    ring
  rw [Rounds, hCell, hFour] at hRounds
  have hBounds := between_of_meets hOwn hSome hRounds
  dsimp only at hBounds
  generalize one * (digits * c) = n at hBounds ⊢
  omega

theorem digits_ne_zero_of_rounds
    (hGrid : OnGrid u)
    (hSome : u ≠ 0)
    (hRounds : Rounds u digits exponent) :
    digits ≠ 0 := by
  rcases exists_cell_eq exponent with
    ⟨c, d, hCell, hPos, -, -⟩
  have hBounds :=
    (between_of_rounds hGrid hSome hCell hRounds).1
  have hUnits := Nat.mul_pos (Nat.pos_of_ne_zero hSome) hPos
  rintro rfl
  rw [Nat.zero_mul, Nat.mul_zero] at hBounds
  omega

/- A decimal in an interval is never taken for infinite. -/
theorem size_le_of_rounds
    (hGrid : OnGrid u)
    (hSome : u ≠ 0)
    (hRounds : Rounds u digits exponent) :
    ((Nat.repr digits).length : Int) + exponent ≤ 310 := by
  have hDigits := digits_ne_zero_of_rounds hGrid hSome hRounds
  rcases length_repr_bounds hDigits with ⟨hSize, hLow, -⟩
  rcases exists_cell_eq exponent with
    ⟨c, d, hCell, hPos, hLarge, -⟩
  have hHigh :=
    (between_of_rounds hGrid hSome hCell hRounds).2
  by_contra hMore
  have hPower :=
    hLarge ((Nat.repr digits).length - 1) 310 (by omega)
  have hUnits : u * d < ceiling * d :=
    Nat.mul_lt_mul_of_pos_right hGrid.2 hPos
  have hOver : one * (10 ^ 310 * d) ≤ one * (digits * c) :=
    Nat.mul_le_mul_left one
      (Nat.le_trans hPower (Nat.mul_le_mul_right c hLow))
  have hTop := Nat.mul_le_mul_right d two_mul_ceiling_le
  rw [Nat.mul_assoc, Nat.mul_assoc] at hTop
  omega

/- Nor is it taken for nothing. -/
theorem le_size_of_rounds
    (hGrid : OnGrid u)
    (hSome : u ≠ 0)
    (hRounds : Rounds u digits exponent) :
    -345 ≤ ((Nat.repr digits).length : Int) + exponent := by
  have hDigits := digits_ne_zero_of_rounds hGrid hSome hRounds
  rcases length_repr_bounds hDigits with ⟨hSize, -, hHigh⟩
  rcases exists_cell_eq exponent with
    ⟨c, d, hCell, hPos, -, hSmall⟩
  have hLow :=
    (between_of_rounds hGrid hSome hCell hRounds).1
  by_contra hFewer
  have hPower :=
    hSmall (Nat.repr digits).length 346 (by omega)
  have hOne : d ≤ u * d :=
    Nat.le_mul_of_pos_left d (Nat.pos_of_ne_zero hSome)
  have hStrict :=
    Nat.mul_lt_mul_of_pos_right two_mul_one_lt hPos
  -- A power this large stays closed.
  generalize 10 ^ 346 = scale at *
  have hTiny : digits * c * scale ≤ d :=
    Nat.le_trans
      (Nat.mul_le_mul_right _
        (Nat.mul_le_mul_right c (Nat.le_of_lt hHigh)))
      hPower
  have hChain : scale * d ≤ 2 * one * d := by
    calc
      scale * d ≤ scale * (2 * (one * (digits * c))) :=
        Nat.mul_le_mul_left _ (Nat.le_trans hOne hLow)
      _ = 2 * one * (digits * c * scale) := by ring
      _ ≤ 2 * one * d := Nat.mul_le_mul_left _ hTiny
  omega

/- A decimal in the interval of a magnitude is read as it. -/
theorem ofDecimal_of_rounds
    (negative : Bool)
    (hGrid : OnGrid u)
    (hSome : u ≠ 0)
    (hRounds : Rounds u digits exponent) :
    ofDecimal negative digits exponent =
      .finite negative u hGrid := by
  have hOwn : step u ∣ u := Nat.dvd_of_mod_eq_zero hGrid.1
  have hDigits := digits_ne_zero_of_rounds hGrid hSome hRounds
  have hHigh := size_le_of_rounds hGrid hSome hRounds
  have hLow := le_size_of_rounds hGrid hSome hRounds
  have hNumber
      {n d : Nat}
      (hPos : 0 < d)
      (hMeets : meets u (4 * n) d = true) :
      ofRatio negative n d = .finite negative u hGrid := by
    rw [ofRatio, nearest_eq_of_meets hPos hOwn hSome hMeets,
      ofUnits, dif_pos hGrid]
  unfold ofDecimal
  dsimp only
  rw [if_neg hDigits, if_neg (by omega), if_neg (by omega)]
  unfold Rounds at hRounds
  rcases exponent with k | k
  · apply hNumber Nat.one_pos
    rw [Int.ofNat_eq_natCast, cell_natCast] at hRounds
    have hFour :
        4 * (digits * Nat.pow 10 k * one) =
          digits * (4 * one * 10 ^ k) := by
      change 4 * (digits * 10 ^ k * one) = _
      ring
    rw [hFour]
    exact hRounds
  · apply hNumber (Nat.pow_pos (by decide))
    rw [cell_negSucc] at hRounds
    have hFour :
        4 * (digits * one) = digits * (4 * one) := by
      ring
    rw [hFour]
    exact hRounds

------------------------------------------------------------
-- The Shortest Decimal
------------------------------------------------------------

variable {tie : Tie}

/- A decimal of a grid is only taken from the interval. -/
theorem rounds_of_meeting?
    {p : Int}
    {x : Decimal}
    (hMeeting : meeting? tie u p = some x) :
    Rounds u x.digits x.exponent := by
  unfold meeting? at hMeeting
  unfold Rounds
  generalize hCell : cell p = parts at hMeeting
  rcases parts with ⟨n, d⟩
  dsimp only at hMeeting
  generalize 4 * u * d / n = a at hMeeting
  generalize 4 * u * d = v at hMeeting
  have hHere (b : Nat) (hMeets : meets u (b * n) d = true) :
      meets u (b * (cell p).1) (cell p).2 = true := by
    rw [hCell]
    exact hMeets
  split at hMeeting
  case h_1 => cases hMeeting
  case h_2 hBelow hAbove =>
    cases hMeeting
    exact hHere a hBelow
  case h_3 hBelow hAbove =>
    cases hMeeting
    exact hHere (a + 1) hAbove
  case h_4 hBelow hAbove =>
    split_ifs at hMeeting
    · cases hMeeting
      exact hHere a hBelow
    · cases hMeeting
      exact hHere (a + 1) hAbove
    · cases tie with
      | up =>
          cases hMeeting
          exact hHere (a + 1) hAbove
      | even =>
          cases hMeeting
          rcases Nat.mod_two_eq_zero_or_one a with
            hEven | hOdd
          · rw [hEven]
            exact hHere a hBelow
          · rw [hOdd]
            exact hHere (a + 1) hAbove

/- A grid whose point from below is in the interval gives one. -/
theorem meeting?_ne_none
    {p : Int}
    {n d : Nat}
    (tie : Tie)
    (hCell : cell p = (n, d))
    (hMeets : meets u (4 * u * d / n * n) d = true) :
    meeting? tie u p ≠ none := by
  unfold meeting?
  rw [hCell]
  dsimp only
  rw [hMeets]
  split
  case h_1 hBelow hAbove => cases hBelow
  case h_2 => exact Option.some_ne_none _
  case h_3 => exact Option.some_ne_none _
  case h_4 =>
    split_ifs
    · exact Option.some_ne_none _
    · exact Option.some_ne_none _
    · cases tie <;> exact Option.some_ne_none _

/- A cell that is smaller than the interval has such a point. -/
theorem meets_of_fine
    {n d : Nat}
    (hPos : 0 < n)
    (hFine : n < 2 * d)
    (hSome : u ≠ 0) :
    meets u (4 * u * d / n * n) d = true := by
  have hPoint := Nat.div_mul_le_self (4 * u * d) n
  have hNext := Nat.lt_div_mul_add (a := 4 * u * d) hPos
  have hLowEnd :
      lowEnd u * d = 4 * u * d - 2 * step (u - 1) * d :=
    Nat.sub_mul _ _ _
  have hHighEnd :
      highEnd u * d = 4 * u * d + 2 * step u * d :=
    Nat.add_mul _ _ _
  have hBelow : 2 * d ≤ 2 * step (u - 1) * d :=
    Nat.mul_le_mul_right d
      (Nat.le_mul_of_pos_right 2 (step_pos _))
  have hAbove : 2 * d ≤ 2 * step u * d :=
    Nat.mul_le_mul_right d
      (Nat.le_mul_of_pos_right 2 (step_pos _))
  have hUnits : 4 * 1 * d ≤ 4 * u * d :=
    Nat.mul_le_mul_right d
      (Nat.mul_le_mul_left 4 (Nat.pos_of_ne_zero hSome))
  have hStrict :
      lowEnd u * d < 4 * u * d / n * n ∧
        4 * u * d / n * n < highEnd u * d := by
    rw [hLowEnd, hHighEnd]
    generalize 4 * u * d / n * n = point at *
    omega
  unfold meets
  simp only [hStrict.1, hStrict.2, Nat.le_of_lt hStrict.1,
    Nat.le_of_lt hStrict.2, decide_true, Bool.and_self,
    ite_self]

/- The finest of the grids has cells this small. -/
theorem finest_lt :
    4 * one < 2 * 10 ^ (349 + 1) := by
  decide +kernel

/- So one of the grids gives a decimal. -/
theorem exists_meeting?
    (tie : Tie)
    (hSome : u ≠ 0) :
    ∃ x, exponents.findSome? (meeting? tie u) = some x := by
  have hTried : .negSucc 349 ∈ exponents :=
    List.mem_map.mpr
      ⟨659, List.mem_range.mpr (by decide), rfl⟩
  have hOnePos : 0 < 4 * one :=
    Nat.mul_pos (by decide) one_pos
  have hGiven :=
    meeting?_ne_none tie (cell_negSucc 349)
      (meets_of_fine hOnePos finest_lt hSome)
  apply Option.ne_none_iff_exists'.mp
  intro hNone
  exact hGiven
    (List.findSome?_eq_none_iff.mp hNone _ hTried)

/- The shortest decimal is one that rounds to its number. -/
theorem rounds_shortest
    (tie : Tie)
    (hSome : u ≠ 0) :
    Rounds u (shortest tie u).digits
      (shortest tie u).exponent := by
  rcases exists_meeting? tie hSome with ⟨x, hFound⟩
  rcases List.exists_of_findSome?_eq_some hFound with
    ⟨p, -, hMeeting⟩
  rw [shortest, hFound]
  exact rounds_of_meeting? hMeeting

end

end Binary64

end JokerRun
