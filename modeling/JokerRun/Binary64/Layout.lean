import JokerRun.Binary64.Shortest

/-
  The written forms of a floating-point number.

  Both forms show the shortest digits.  The plain form is
  for messages: it never has an exponent and whole numbers
  have no point.  The record form is for stored data: whole
  numbers keep `.0`, and very large or very small numbers
  have an exponent.

  Key definitions include:
    * `Binary64.plain`
    * `Binary64.recorded`
-/

------------------------------------------------------------
-- Positional Digits
------------------------------------------------------------

namespace JokerRun

namespace Decimal

/- A row of zeros. -/
def zeros
    (n : Nat) : List Char :=
  List.replicate n '0'

/- The digits of a number, the highest first. -/
def figures
    (n : Nat) : List Char :=
  (Nat.repr n).toList

/-
  The positional form: zeros fill the places up to the
  point, and a whole number has no point.
-/
def positional
    (x : Decimal) : List Char :=
  let ds := figures x.digits
  match x.exponent with
  | .ofNat k => ds ++ zeros k
  | .negSucc k =>
      let places := k + 1
      if places < ds.length then
        ds.take (ds.length - places) ++
          '.' :: ds.drop (ds.length - places)
      else
        '0' :: '.' :: zeros (places - ds.length) ++ ds

/- The exponent of the first digit. -/
def leading
    (x : Decimal) : Int :=
  x.exponent + ((figures x.digits).length : Int) - 1

/- The form with one digit before the point. -/
def scientific
    (x : Decimal) : List Char :=
  let mantissa :=
    match figures x.digits with
    | [] => []
    | [d] => [d]
    | d :: ds => d :: '.' :: ds
  let sign := if x.leading < 0 then '-' else '+'
  mantissa ++
    'e' :: sign :: figures x.leading.natAbs

end Decimal

------------------------------------------------------------
-- Plain Form
------------------------------------------------------------

namespace Binary64

/- A minus sign for negative numbers. -/
def minus
    (negative : Bool) : String :=
  if negative then "-" else ""

/- The form used in messages; a tie of digits goes up. -/
def plain : Binary64 → String
  | .nan => "NaN"
  | .infinite s => minus s ++ "inf"
  | .finite s u _ =>
      minus s ++
        if u = 0 then "0"
        else String.ofList (shortest .up u).positional

------------------------------------------------------------
-- Record Form
------------------------------------------------------------

/- The record form of a decimal above zero. -/
def recordedDecimal
    (x : Decimal) : List Char :=
  if x.leading < -5 ∨ 16 ≤ x.leading then
    x.scientific
  else if 0 ≤ x.exponent then
    x.positional ++ ['.', '0']
  else
    x.positional

/-
  The form used in stored data; a tie of digits goes to the
  even one, and what is no finite number is `null`.
-/
def recorded : Binary64 → String
  | .nan => "null"
  | .infinite _ => "null"
  | .finite s u _ =>
      minus s ++
        if u = 0 then "0.0"
        else
          String.ofList (recordedDecimal (shortest .even u))

end Binary64

end JokerRun
