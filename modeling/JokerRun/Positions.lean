/-
  Lists of positions in a row of cards.

  Key definitions include:
    * `Positions.insert`
    * `Positions.sort`
    * `Positions.firstRepeat?`
-/

------------------------------------------------------------
-- Ascending Order
------------------------------------------------------------

namespace JokerRun

namespace Positions

/- A position put in front of the first one not below it. -/
def insert
    (i : Nat) : List Nat → List Nat
  | [] => [i]
  | j :: js =>
      if i ≤ j then i :: j :: js else j :: insert i js

/- The positions in ascending order. -/
def sort
    (is : List Nat) : List Nat :=
  is.foldr insert []

/-
  The first position of an ascending list that is listed
  again right after itself.
-/
def firstRepeat? : List Nat → Option Nat
  | [] => none
  | [_] => none
  | i :: j :: js =>
      if i = j then some i else firstRepeat? (j :: js)

end Positions

end JokerRun
