import JokerRun.Amount
import Mathlib.Order.Defs.LinearOrder

/-
  Laws of amounts.

  Sums and products that stop at the end of the range stay
  amounts and keep the order.

  Key theorems include:
    * `Amount.inRange_foldl_add`
    * `Amount.clamp_mono`
    * `Amount.add_le_of_nonneg`
    * `Amount.le_add`
    * `Amount.mul_mono`
-/

------------------------------------------------------------
-- Staying In Range
------------------------------------------------------------

namespace JokerRun

namespace Amount

theorem inRange_add
    (a b : Int) :
    InRange (add a b) :=
  clamp_inRange (a + b)

/- Clamping changes what is no amount, and only that. -/
theorem clamp_eq_self_iff
    {n : Int} :
    clamp n = n ↔ InRange n := by
  refine ⟨fun hSame => ?_, clamp_of_inRange⟩
  rw [← hSame]
  exact clamp_inRange n

/- An amount that gains stays an amount. -/
theorem inRange_min_highest
    {a n : Int}
    (hRange : InRange a)
    (hGain : 0 ≤ n) :
    InRange (min highest (a + n)) := by
  unfold InRange lowest highest at hRange ⊢
  omega

/- Amounts that are summed up stay amounts. -/
theorem inRange_foldl_add
    {α : Type}
    (f : α → Int)
    (xs : List α)
    {a : Int}
    (hRange : InRange a) :
    InRange (xs.foldl (fun n x => add n (f x)) a) := by
  induction xs generalizing a with
  | nil => exact hRange
  | cons x xs ih => exact ih (inRange_add a (f x))

------------------------------------------------------------
-- Keeping The Order
------------------------------------------------------------

section

variable {a b c d : Int}

theorem clamp_mono
    (hLe : a ≤ b) :
    clamp a ≤ clamp b := by
  unfold clamp
  omega

theorem add_mono
    (hLeft : a ≤ b)
    (hRight : c ≤ d) :
    add a c ≤ add b d :=
  clamp_mono (Int.add_le_add hLeft hRight)

/- Products of amounts that are no loss keep the order. -/
theorem mul_mono
    (hFirst : 0 ≤ a)
    (hSecond : 0 ≤ c)
    (hLeft : a ≤ b)
    (hRight : c ≤ d) :
    mul a c ≤ mul b d :=
  clamp_mono
    (Int.mul_le_mul hLeft hRight hSecond
      (Int.le_trans hFirst hLeft))

/- Adding what is no loss does not lessen an amount. -/
theorem le_add
    (hHigh : a ≤ highest)
    (hGain : 0 ≤ b) :
    a ≤ add a b := by
  unfold add clamp lowest
  unfold highest at *
  omega

------------------------------------------------------------
-- Sums That Are No Loss
------------------------------------------------------------

theorem add_nonneg
    (hSum : 0 ≤ a + b) :
    0 ≤ add a b :=
  clamp_mono hSum

/- A sum that is no loss is at most the plain sum. -/
theorem add_le_of_nonneg
    (hSum : 0 ≤ a + b) :
    add a b ≤ a + b := by
  unfold add clamp lowest highest
  omega

/- What is no loss stays none by gains in a row. -/
theorem foldl_add_nonneg
    {α : Type}
    {f : α → Int}
    {xs : List α}
    (hGains : ∀ x ∈ xs, 0 ≤ f x)
    (hStart : 0 ≤ a) :
    0 ≤ xs.foldl (fun n x => add n (f x)) a := by
  induction xs generalizing a with
  | nil => exact hStart
  | cons x xs ih =>
      rw [List.forall_mem_cons] at hGains
      exact ih hGains.2
        (add_nonneg (Int.add_nonneg hStart hGains.1))

end

end Amount

end JokerRun
