import JokerRun.Binary64.Basic
import JokerRun.Text.Numeral

/-
  Reading decimals as floating-point numbers.

  `ofDecimal` rounds a decimal once.  `ofScaled` is the rule
  of stored data: the digits are rounded first, and the
  result is then multiplied or divided by a rounded power of
  ten, with a second rounding.  `read?` reads the written
  forms of messages back.

  Key definitions include:
    * `Binary64.ofDecimal`
    * `Binary64.ofScaled?`
    * `Binary64.read?`
-/

------------------------------------------------------------
-- One Rounding
------------------------------------------------------------

namespace JokerRun

namespace Binary64

/-
  The number nearest to `digits * 10 ^ exponent`.  Decimals
  far outside the format are settled by their size alone.
-/
def ofDecimal
    (negative : Bool)
    (digits : Nat)
    (exponent : Int) : Binary64 :=
  let size := ((Nat.repr digits).length : Int)
  if digits = 0 then
    zero negative
  else if 310 < size + exponent then
    .infinite negative
  else if size + exponent < -345 then
    zero negative
  else
    match exponent with
    | .ofNat k =>
        ofRatio negative (digits * Nat.pow 10 k * one) 1
    | .negSucc k =>
        ofRatio negative (digits * one) (Nat.pow 10 (k + 1))

/- A power of ten as a number of the format. -/
def tenPower
    (k : Nat) : Binary64 :=
  ofDecimal false 1 (k : Int)

------------------------------------------------------------
-- Two Roundings
------------------------------------------------------------

/-
  A number divided by `10 ^ k`, by the largest power of the
  format as long as more is left; three such divisions leave
  nothing of any number below `10 ^ 20`.
-/
def divTenPower : Nat → Binary64 → Nat → Binary64
  | 0, x, _ => x
  | n + 1, x, k =>
      if k ≤ 308 then
        x.div (tenPower k)
      else if x.isZero then
        x
      else
        divTenPower n (x.div (tenPower 308)) (k - 308)

/-
  The number that stored data means by a significand and an
  exponent of ten; none when it is too large.
-/
def ofScaled?
    (significand : Nat)
    (exponent : Int) : Option Binary64 :=
  let x := ofInt (significand : Int)
  match exponent with
  | .ofNat k =>
      if x.isZero then
        some x
      else if 308 < k then
        none
      else
        let y := x.mul (tenPower k)
        if y.isInfinite then none else some y
  | .negSucc k => some (divTenPower 4 x (k + 1))

------------------------------------------------------------
-- Written Forms
------------------------------------------------------------

/- The longest run of digits: value, count and what follows. -/
def digitRun : Nat → Nat → List Char → Nat × Nat × List Char
  | value, count, [] => (value, count, [])
  | value, count, c :: cs =>
      match Numeral.digit? c with
      | some d => digitRun (10 * value + d) (count + 1) cs
      | none => (value, count, c :: cs)

/- A whole exponent with an optional sign. -/
def readExponent?
    (cs : List Char) : Option Int :=
  let (sign, ds) : Int × List Char :=
    match cs with
    | '-' :: r => (-1, r)
    | '+' :: r => (1, r)
    | r => (1, r)
  match digitRun 0 0 ds with
  | (value, count, []) =>
      if count = 0 then none else some (sign * (value : Int))
  | _ => none

/- An unsigned decimal: digits, fraction and exponent. -/
def readMagnitude?
    (negative : Bool)
    (cs : List Char) : Option Binary64 :=
  let (whole, n, r) := digitRun 0 0 cs
  let (digits, k, r) :=
    match r with
    | '.' :: r => digitRun whole 0 r
    | r => (whole, 0, r)
  if n + k = 0 then
    none
  else
    match r with
    | [] => some (ofDecimal negative digits (-(k : Int)))
    | e :: r =>
        if e = 'e' ∨ e = 'E' then
          (readExponent? r).map fun x =>
            ofDecimal negative digits (x - (k : Int))
        else
          none

/- An unsigned number, its special values included. -/
def readUnsigned?
    (negative : Bool)
    (cs : List Char) : Option Binary64 :=
  match String.ofList (cs.map Char.toLower) with
  | "nan" => some .nan
  | "inf" => some (.infinite negative)
  | "infinity" => some (.infinite negative)
  | _ => readMagnitude? negative cs

/- The number that a written form stands for. -/
def read?
    (s : String) : Option Binary64 :=
  match s.toList with
  | '-' :: r => readUnsigned? true r
  | '+' :: r => readUnsigned? false r
  | r => readUnsigned? false r

end Binary64

end JokerRun
