import JokerRun.Proofs.Binary64.Rounding

/-
  Floating-point numbers that are whole numbers.

  A finite number without a fraction is a whole number, and
  the amount nearest to it is what is left of it when the
  fraction is dropped.  A whole number beyond the range of
  amounts stays beyond it when it is rounded to the format.

  Key theorems include:
    * `Binary64.isWhole_finite_iff`
    * `Binary64.truncAmount_finite_of_signed`
    * `Binary64.truncAmount_ofInt_of_highest_lt`
-/

------------------------------------------------------------
-- Numbers Without A Fraction
------------------------------------------------------------

namespace JokerRun

namespace Binary64

section

variable {negative : Bool}
variable {u : Nat}
variable {hGrid : OnGrid u}

/- The magnitude of a number divides as the number does. -/
theorem dvd_signed_iff
    {d : Nat} :
    (d : Int) ∣ signed negative u ↔ d ∣ u := by
  cases negative with
  | false => exact Int.natCast_dvd_natCast
  | true => exact Int.dvd_neg.trans Int.natCast_dvd_natCast

/- A number without a fraction is some whole number. -/
theorem isWhole_finite_iff :
    (finite negative u hGrid).isWhole = true ↔
      ∃ k : Int, signed negative u = k * (one : Int) := by
  have hWhole :
      (finite negative u hGrid).isWhole = true ↔ one ∣ u :=
    beq_iff_eq.trans Nat.dvd_iff_mod_eq_zero.symm
  rw [hWhole, ← dvd_signed_iff]
  constructor
  · rintro ⟨k, hUnits⟩
    exact ⟨k, hUnits.trans (Int.mul_comm _ _)⟩
  · rintro ⟨k, hUnits⟩
    exact ⟨k, hUnits.trans (Int.mul_comm _ _)⟩

/- Dropping no fraction leaves the nearest amount. -/
theorem truncAmount_finite_of_signed
    {k : Int}
    (hUnits : signed negative u = k * (one : Int)) :
    (finite negative u hGrid).truncAmount =
      Amount.clamp k := by
  have hOne : (one : Int) ≠ 0 :=
    Int.natCast_ne_zero.mpr (Nat.ne_of_gt one_pos)
  change Amount.clamp (Int.tdiv (signed negative u) _) = _
  rw [hUnits, Int.mul_tdiv_cancel k hOne]

end

------------------------------------------------------------
-- Whole Numbers Beyond The Range
------------------------------------------------------------

/- Rounding up from the end of the range stays beyond it. -/
theorem le_nearest_of_highest_lt
    {m : Nat}
    (hBeyond : Amount.highest < (m : Int)) :
    2 ^ 63 ≤ nearest (m * one) 1 / one := by
  have hBound : 2 ^ 63 ≤ m := by
    unfold Amount.highest at hBeyond
    omega
  have hPower : 2 ^ 63 * one = 2 ^ (63 + one.log2) := by
    rw [Nat.pow_add, two_pow_log2_one]
  have hGrid : step (2 ^ 63 * one) ∣ 2 ^ 63 * one := by
    rw [hPower, step_eq, Nat.log2_two_pow]
    exact Nat.pow_dvd_pow 2 (Nat.sub_le _ _)
  refine (Nat.le_div_iff_mul_le one_pos).mpr ?_
  refine le_nearest Nat.one_pos hGrid ?_
  rw [Nat.mul_one]
  exact Nat.mul_le_mul_right one hBound

/- Without a sign, dropping the fraction rounds down. -/
theorem truncAmount_ofUnits
    (u : Nat) :
    (ofUnits false u).truncAmount =
      (ofUnits false u).floorAmount := by
  unfold ofUnits
  split
  · change Amount.clamp (Int.tdiv (u : Int) (one : Int)) =
      Amount.clamp (Int.fdiv (u : Int) (one : Int))
    rw [Int.fdiv_eq_tdiv_of_nonneg (Int.natCast_nonneg u)
      (Int.natCast_nonneg one)]
  · rfl

/- A whole number beyond the range reads as its end. -/
theorem truncAmount_ofInt_of_highest_lt
    {n : Int}
    (hBeyond : Amount.highest < n) :
    (ofInt n).truncAmount = Amount.highest := by
  have hNonneg : 0 ≤ n := by
    unfold Amount.highest at hBeyond
    omega
  lift n to Nat using hNonneg
  have hSign : decide ((n : Int) < 0) = false :=
    decide_eq_false (Int.not_lt.mpr (Int.natCast_nonneg n))
  have hQuot := le_nearest_of_highest_lt hBeyond
  unfold ofInt
  rw [hSign, Int.natAbs_natCast, ofRatio, truncAmount_ofUnits,
    ← ofRatio, floorAmount_ofRatio Nat.one_pos]
  generalize nearest (n * one) 1 / one = q at hQuot
  unfold Amount.clamp Amount.lowest Amount.highest
  omega

end Binary64

end JokerRun
