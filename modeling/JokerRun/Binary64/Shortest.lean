import JokerRun.Binary64.Basic

/-
  The shortest decimal that reads back as a given number.

  A magnitude owns the interval of reals that round to it,
  the two ends included when its significand is even.  The
  grids of decimals with one digit more are tried from the
  coarsest on.  The first grid that meets the interval gives
  the digits, of two points that meet it the nearer one.

  Key definitions include:
    * `Decimal`
    * `Binary64.Tie`
    * `Binary64.meeting?`
    * `Binary64.shortest`
-/

------------------------------------------------------------
-- Decimals
------------------------------------------------------------

namespace JokerRun

/- The decimal `digits * 10 ^ exponent`. -/
structure Decimal where
  digits : Nat
  exponent : Int
deriving DecidableEq, Repr

namespace Binary64

/- Which of two equally near decimals is taken. -/
inductive Tie where
  | up
  | even
deriving DecidableEq, Repr

------------------------------------------------------------
-- The Interval Of A Magnitude
------------------------------------------------------------

/- The lower end of the interval, in quarters of a unit. -/
def lowEnd
    (u : Nat) : Nat :=
  4 * u - 2 * step (u - 1)

/- The upper end of the interval, in quarters of a unit. -/
def highEnd
    (u : Nat) : Nat :=
  4 * u + 2 * step u

/- Whether the ends belong to the interval. -/
def hasEnds
    (u : Nat) : Bool :=
  u / step u % 2 == 0

/- Whether `n / d` quarters of a unit round to `u` units. -/
def meets
    (u n d : Nat) : Bool :=
  if hasEnds u then
    decide (lowEnd u * d ≤ n) && decide (n ≤ highEnd u * d)
  else
    decide (lowEnd u * d < n) && decide (n < highEnd u * d)

------------------------------------------------------------
-- Grids Of Decimals
------------------------------------------------------------

/- The cell `10 ^ p` in quarters of a unit, as a fraction. -/
def cell : Int → Nat × Nat
  | .ofNat k => (4 * one * Nat.pow 10 k, 1)
  | .negSucc k => (4 * one, Nat.pow 10 (k + 1))

/-
  The multiple of `10 ^ p` that reads back as `u` units, if
  there is one.
-/
def meeting?
    (tie : Tie)
    (u : Nat)
    (p : Int) : Option Decimal :=
  let (n, d) := cell p
  let v := 4 * u * d
  let a := v / n
  match meets u (a * n) d, meets u ((a + 1) * n) d with
  | false, false => none
  | true, false => some ⟨a, p⟩
  | false, true => some ⟨a + 1, p⟩
  | true, true =>
      let below := v - a * n
      let above := (a + 1) * n - v
      if below < above then some ⟨a, p⟩
      else if above < below then some ⟨a + 1, p⟩
      else
        match tie with
        | .up => some ⟨a + 1, p⟩
        | .even => some ⟨a + a % 2, p⟩

/- The exponents of ten to try, the coarsest grid first. -/
def exponents : List Int :=
  (List.range 660).map fun (i : Nat) => 309 - (i : Int)

/- The shortest decimal that reads back as `u` units. -/
def shortest
    (tie : Tie)
    (u : Nat) : Decimal :=
  (exponents.findSome? (meeting? tie u)).getD ⟨0, 0⟩

end Binary64

end JokerRun
