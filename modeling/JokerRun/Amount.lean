/-
  Amounts of chips, mult, score and money.

  An amount is a whole number of the signed 64-bit range.
  A sum or product that leaves the range stops at the
  nearer end of it.

  Key definitions include:
    * `Amount.InRange`
    * `Amount.clamp`
    * `Amount.add`
    * `Amount.mul`
-/

------------------------------------------------------------
-- Range
------------------------------------------------------------

namespace JokerRun

namespace Amount

/- The smallest amount. -/
def lowest : Int :=
  -9223372036854775808

/- The largest amount. -/
def highest : Int :=
  9223372036854775807

/- A whole number that is an amount. -/
def InRange
    (n : Int) : Prop :=
  lowest ≤ n ∧ n ≤ highest

instance
    (n : Int) :
    Decidable (InRange n) := by
  unfold InRange
  infer_instance

/- The amount nearest to a whole number. -/
def clamp
    (n : Int) : Int :=
  max lowest (min highest n)

/- Clamping always gives an amount. -/
theorem clamp_inRange
    (n : Int) :
    InRange (clamp n) := by
  unfold InRange clamp lowest highest
  omega

/- Clamping leaves an amount alone. -/
theorem clamp_of_inRange
    {n : Int}
    (hRange : InRange n) :
    clamp n = n := by
  unfold InRange lowest highest at hRange
  unfold clamp lowest highest
  omega

------------------------------------------------------------
-- Arithmetic
------------------------------------------------------------

/- The sum, kept in range. -/
def add
    (a b : Int) : Int :=
  clamp (a + b)

/- The product, kept in range. -/
def mul
    (a b : Int) : Int :=
  clamp (a * b)

end Amount

end JokerRun
