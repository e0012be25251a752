/-
  Unsigned numerals: an optional plus sign and decimal
  digits, up to a bound.

  Key definitions include:
    * `Numeral.Fault`
    * `Numeral.read`
-/

------------------------------------------------------------
-- Faults
------------------------------------------------------------

namespace JokerRun

namespace Numeral

/- Why a text is no numeral. -/
inductive Fault where
  | empty
  | badDigit
  | tooLarge
deriving DecidableEq, Repr

/- The wording of a fault. -/
def Fault.message : Fault → String
  | .empty => "cannot parse integer from empty string"
  | .badDigit => "invalid digit found in string"
  | .tooLarge => "number too large to fit in target type"

------------------------------------------------------------
-- Reading
------------------------------------------------------------

/- The value of a decimal digit. -/
def digit?
    (c : Char) : Option Nat :=
  if '0' ≤ c ∧ c ≤ '9' then some (c.toNat - 48) else none

/-
  Digits appended to a value, left to right: the first
  character that is no digit or that leads past the bound
  stops the reading.
-/
def digits
    (bound : Nat) : Nat → List Char → Except Fault Nat
  | value, [] => .ok value
  | value, c :: cs =>
      match digit? c with
      | none => .error .badDigit
      | some d =>
          if bound < 10 * value + d then .error .tooLarge
          else digits bound (10 * value + d) cs

/- The numeral's value, at most the bound. -/
def read
    (bound : Nat) : List Char → Except Fault Nat
  | [] => .error .empty
  | '+' :: [] => .error .badDigit
  | '+' :: c :: cs => digits bound 0 (c :: cs)
  | cs => digits bound 0 cs

/- The value of a numeral, if the text is one. -/
def read?
    (bound : Nat)
    (cs : List Char) : Option Nat :=
  (read bound cs).toOption

/- The largest number of 64 bits. -/
def largest64 : Nat :=
  18446744073709551615

end Numeral

end JokerRun
