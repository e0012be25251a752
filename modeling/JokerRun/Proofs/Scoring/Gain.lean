import JokerRun.Proofs.Amount
import JokerRun.Scoring.Play
import Mathlib.Algebra.Order.BigOperators.Group.List
import Mathlib.Algebra.Order.Group.Int
import Mathlib.Algebra.Ring.Int.Defs

/-
  Sums that stop at the end of the range.

  An amount that only gains grows to the plain sum of its
  gains, up to the largest amount: a sum that has stopped
  stays there, since no later gain is negative.

  Key theorems include:
    * `Tally.gain_eq_add`
    * `Tally.foldl_gain`
    * `Hand.inRange_classify`
-/

------------------------------------------------------------
-- Rounded Amounts
------------------------------------------------------------

namespace JokerRun

namespace Binary64

/- Rounding down always gives an amount. -/
theorem inRange_floorAmount
    (f : Binary64) :
    Amount.InRange f.floorAmount := by
  cases f with
  | nan => decide
  | infinite negative => cases negative <;> decide
  | finite negative units hGrid =>
      exact Amount.clamp_inRange _

/- One is no factor. -/
theorem exceedsOne_ofInt_one :
    (ofInt 1).exceedsOne = false := by
  decide +kernel

end Binary64

------------------------------------------------------------
-- Gains
------------------------------------------------------------

namespace Tally

open Amount (InRange)

/- Only the positive part of a gain is added. -/
theorem gain_eq_add
    {a : Int}
    (hRange : InRange a)
    (b : Int) :
    gain a b = Amount.add a (max b 0) := by
  unfold gain
  split_ifs with hPositive
  · rw [max_eq_left hPositive.le]
  · rw [max_eq_right (Int.not_lt.mp hPositive), Amount.add,
      Int.add_zero, Amount.clamp_of_inRange hRange]

theorem inRange_gain
    {a : Int}
    (hRange : InRange a)
    (b : Int) :
    InRange (gain a b) := by
  rw [gain_eq_add hRange]
  exact Amount.inRange_add a (max b 0)

/- What is no loss stays none by gaining. -/
theorem gain_nonneg
    {a : Int}
    (hStart : 0 ≤ a)
    (b : Int) :
    0 ≤ gain a b := by
  unfold gain
  split_ifs with hGain
  · exact Amount.add_nonneg
      (Int.add_nonneg hStart (Int.le_of_lt hGain))
  · exact hStart

/- What gains in a row add is no loss. -/
theorem sum_gains_nonneg
    (bs : List Int) :
    0 ≤ (bs.map fun b => max b 0).sum := by
  apply List.sum_nonneg
  intro n hn
  rcases List.mem_map.mp hn with ⟨b, -, rfl⟩
  exact le_max_right b 0

/- Gains in a row add up, to the largest amount at most. -/
theorem foldl_gain
    (bs : List Int)
    {a : Int}
    (hRange : InRange a) :
    bs.foldl gain a =
      min Amount.highest
        (a + (bs.map fun b => max b 0).sum) := by
  induction bs generalizing a with
  | nil =>
      have hHighest : a ≤ Amount.highest := hRange.2
      simp only [List.foldl_nil, List.map_nil, List.sum_nil,
        Int.add_zero]
      rw [min_eq_right hHighest]
  | cons b bs ih =>
      have hRest := sum_gains_nonneg bs
      have hLowest : Amount.lowest ≤ a := hRange.1
      rw [List.foldl_cons, ih (inRange_gain hRange b),
        gain_eq_add hRange, List.map_cons, List.sum_cons]
      unfold Amount.add Amount.clamp
      generalize (bs.map fun b => max b 0).sum = rest
        at hRest ⊢
      unfold Amount.lowest at hLowest ⊢
      unfold Amount.highest
      omega

end Tally

------------------------------------------------------------
-- Base Values
------------------------------------------------------------

namespace Category

theorem inRange_base
    (c : Category) :
    Amount.InRange c.base.chips ∧
      Amount.InRange c.base.mult := by
  cases c <;> decide

/- Rules with amounts set base values that are amounts. -/
theorem inRange_baseUnder
    {rules : List HandRule}
    (hRules :
      ∀ rule ∈ rules,
        Amount.InRange rule.chips ∧
          Amount.InRange rule.mult)
    (c : Category) :
    Amount.InRange (c.baseUnder rules).chips ∧
      Amount.InRange (c.baseUnder rules).mult := by
  unfold baseUnder
  split
  · rename_i rule hFound
    have hMem := List.mem_of_find?_eq_some hFound
    exact hRules rule (List.mem_reverse.mp hMem)
  · exact inRange_base c

end Category

namespace Hand

/- A hand starts from base values, or from nothing. -/
theorem classify_base
    {rules : List HandRule}
    {P : Category.Base → Prop}
    (hNothing : P ⟨0, 0⟩)
    (hBases : ∀ c : Category, P (c.baseUnder rules))
    (cards : List Card) :
    P ⟨(classify rules cards).chips,
      (classify rules cards).mult⟩ := by
  cases cards with
  | nil => exact hNothing
  | cons c cs => exact hBases (category (c :: cs))

/- A classified hand starts from amounts. -/
theorem inRange_classify
    {rules : List HandRule}
    (hRules :
      ∀ rule ∈ rules,
        Amount.InRange rule.chips ∧
          Amount.InRange rule.mult)
    (cards : List Card) :
    Amount.InRange (classify rules cards).chips ∧
      Amount.InRange (classify rules cards).mult := by
  have hZero : Amount.InRange 0 := by decide
  exact classify_base
    (P := fun b =>
      Amount.InRange b.chips ∧ Amount.InRange b.mult)
    ⟨hZero, hZero⟩ (Category.inRange_baseUnder hRules) cards

/- Without losses among base values a hand has none. -/
theorem classify_nonneg
    {rules : List HandRule}
    (hBases :
      ∀ c : Category,
        0 ≤ (c.baseUnder rules).chips ∧
          0 ≤ (c.baseUnder rules).mult)
    (cards : List Card) :
    0 ≤ (classify rules cards).chips ∧
      0 ≤ (classify rules cards).mult :=
  classify_base
    (P := fun b => 0 ≤ b.chips ∧ 0 ≤ b.mult)
    ⟨Int.le_refl 0, Int.le_refl 0⟩ hBases cards

end Hand

end JokerRun
