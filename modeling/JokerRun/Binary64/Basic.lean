import JokerRun.Amount

/-
  Floating-point numbers of 64 bits, with exact arithmetic.

  A finite number is a sign and a magnitude counted in units
  of `2 ^ (-1074)`, the smallest positive number of the
  format.  A magnitude is on the grid when its significand
  has at most 53 bits and it stays below `2 ^ 1024`.  Every
  operation is the exact rational result, rounded once to
  the grid, a tie going to the even significand.

  Key definitions include:
    * `Binary64`
    * `Binary64.nearest`
    * `Binary64.ofInt`
    * `Binary64.mul`
    * `Binary64.div`
    * `Binary64.floorAmount`
    * `Binary64.truncAmount`
    * `Binary64.scale`
-/

------------------------------------------------------------
-- The Grid
------------------------------------------------------------

namespace JokerRun

namespace Binary64

/- The magnitude of one, in units. -/
def one : Nat :=
  Nat.pow 2 1074

/- The first magnitude beyond the format, in units. -/
def ceiling : Nat :=
  Nat.pow 2 2098

/- The distance from a magnitude to the next one up. -/
def step
    (u : Nat) : Nat :=
  Nat.pow 2 (u.log2 - 52)

/- A magnitude that the format holds. -/
def OnGrid
    (u : Nat) : Prop :=
  u % step u = 0 ∧ u < ceiling

instance
    (u : Nat) :
    Decidable (OnGrid u) := by
  unfold OnGrid
  infer_instance

end Binary64

/- A floating-point number of 64 bits. -/
inductive Binary64 where
  | nan
  | infinite (negative : Bool)
  | finite
      (negative : Bool)
      (units : Nat)
      (hGrid : Binary64.OnGrid units)
deriving DecidableEq, Repr

------------------------------------------------------------
-- Rounding
------------------------------------------------------------

namespace Binary64

/- The whole number nearest to `n / d`, a tie going to even. -/
def halfEven
    (n d : Nat) : Nat :=
  let q := n / d
  let r := n % d
  if 2 * r < d then q
  else if d < 2 * r then q + 1
  else q + q % 2

/-
  The multiple of the local step nearest to `n / d`, where
  `n / d` counts units.
-/
def nearest
    (n d : Nat) : Nat :=
  let s := step (n / d)
  s * halfEven n (d * s)

/- The number of a magnitude; too large a one is infinite. -/
def ofUnits
    (negative : Bool)
    (u : Nat) : Binary64 :=
  if h : OnGrid u then
    .finite negative u h
  else
    .infinite negative

/- The number nearest to `n / d` units. -/
def ofRatio
    (negative : Bool)
    (n d : Nat) : Binary64 :=
  ofUnits negative (nearest n d)

/- Zero with a sign. -/
def zero
    (negative : Bool) : Binary64 :=
  ofUnits negative 0

/- The number nearest to a whole number. -/
def ofInt
    (n : Int) : Binary64 :=
  ofRatio (decide (n < 0)) (n.natAbs * one) 1

------------------------------------------------------------
-- Arithmetic
------------------------------------------------------------

/- The number of the other sign. -/
def neg : Binary64 → Binary64
  | .nan => .nan
  | .infinite s => .infinite (!s)
  | .finite s u h => .finite (!s) u h

/- The rounded product. -/
def mul : Binary64 → Binary64 → Binary64
  | .nan, _ => .nan
  | _, .nan => .nan
  | .infinite s, .infinite t => .infinite (s ^^ t)
  | .infinite s, .finite t u _ =>
      if u = 0 then .nan else .infinite (s ^^ t)
  | .finite s u _, .infinite t =>
      if u = 0 then .nan else .infinite (s ^^ t)
  | .finite s u _, .finite t v _ =>
      ofRatio (s ^^ t) (u * v) one

/- The rounded quotient. -/
def div : Binary64 → Binary64 → Binary64
  | .nan, _ => .nan
  | _, .nan => .nan
  | .infinite _, .infinite _ => .nan
  | .infinite s, .finite t _ _ => .infinite (s ^^ t)
  | .finite s _ _, .infinite t => zero (s ^^ t)
  | .finite s u _, .finite t v _ =>
      if v = 0 then
        if u = 0 then .nan else .infinite (s ^^ t)
      else
        ofRatio (s ^^ t) (u * one) v

/- Whether a number is zero, of either sign. -/
def isZero : Binary64 → Bool
  | .finite _ u _ => u == 0
  | _ => false

/- Whether a number is infinite. -/
def isInfinite : Binary64 → Bool
  | .infinite _ => true
  | _ => false

/- Whether a number is greater than one. -/
def exceedsOne : Binary64 → Bool
  | .nan => false
  | .infinite s => !s
  | .finite s u _ => !s && decide (one < u)

/- Whether a number is a finite whole number. -/
def isWhole : Binary64 → Bool
  | .finite _ u _ => u % one == 0
  | _ => false

------------------------------------------------------------
-- Amounts
------------------------------------------------------------

/- The magnitude with its sign. -/
def signed
    (negative : Bool)
    (u : Nat) : Int :=
  if negative then -(u : Int) else (u : Int)

/-
  The greatest amount that is not above a number; no number
  counts as nothing, and infinities stop at the range's end.
-/
def floorAmount : Binary64 → Int
  | .nan => 0
  | .infinite true => Amount.lowest
  | .infinite false => Amount.highest
  | .finite s u _ =>
      Amount.clamp (Int.fdiv (signed s u) (one : Int))

/- The amount left when the fraction is dropped. -/
def truncAmount : Binary64 → Int
  | .nan => 0
  | .infinite true => Amount.lowest
  | .infinite false => Amount.highest
  | .finite s u _ =>
      Amount.clamp (Int.tdiv (signed s u) (one : Int))

/-
  An amount times a factor, rounded to the format and then
  down to an amount.
-/
def scale
    (n : Int)
    (factor : Binary64) : Int :=
  floorAmount ((ofInt n).mul factor)

end Binary64

end JokerRun
