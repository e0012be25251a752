import JokerRun.Binary64.Reading
import JokerRun.Json.Basic

/-
  Reading stored data.

  The reader accepts strict JSON with blanks around the
  value and nothing after it.  Whether a value is too deep
  is not its concern.

  Key definitions include:
    * `Json.Reader.number`
    * `Json.Reader.literal`
    * `Json.Reader.value`
    * `Json.parse`
-/

------------------------------------------------------------
-- Numbers
------------------------------------------------------------

namespace JokerRun

namespace Json

namespace Reader

/- The parts of a written number. -/
structure Lexeme where
  negative : Bool
  front : List Nat
  fraction : List Nat
  exponent : Int
  /- Neither fraction nor exponent is written. -/
  isWhole : Bool
deriving DecidableEq, Repr

/-
  Digits gathered as long as the significand stays below
  `2 ^ 64`, with the number of digits left out.
-/
def gather
    (significand : Nat) : List Nat → Nat × Nat
  | [] => (significand, 0)
  | d :: ds =>
      if Numeral.largest64 < 10 * significand + d then
        (significand, ds.length + 1)
      else
        gather (10 * significand + d) ds

/- The value of a number that was written as a whole one. -/
def wholeValue
    (negative : Bool)
    (n : Nat) : Json :=
  if negative then
    if n = 0 ∨ highestMagnitude < n then
      .real (Binary64.ofInt (n : Int)).neg
    else
      .whole (-(n : Int))
  else
    .whole (n : Int)
where
  highestMagnitude : Nat := 9223372036854775808

/- The value of a floating-point number; too large is none. -/
def realValue
    (negative : Bool)
    (significand : Nat)
    (exponent : Int) : Json :=
  match Binary64.ofScaled? significand exponent with
  | none => .unreadable
  | some x => .real (if negative then x.neg else x)

/- The value that a written number stands for. -/
def Lexeme.value
    (x : Lexeme) : Json :=
  let (n, left) := gather 0 x.front
  if x.isWhole ∧ left = 0 then
    wholeValue x.negative n
  else
    let (m, unread) := gather n x.fraction
    let places := x.fraction.length - unread
    realValue x.negative m
      (x.exponent + (left : Int) - (places : Int))

/- The longest run of digits and what follows. -/
def digitRun : List Char → List Nat × List Char
  | [] => ([], [])
  | c :: cs =>
      match Numeral.digit? c with
      | none => ([], c :: cs)
      | some d =>
          let (ds, r) := digitRun cs
          (d :: ds, r)

/- The digits before the point; a zero stands alone. -/
def wholeDigits
    (cs : List Char) : Option (List Nat × List Char) :=
  match digitRun cs with
  | ([], _) => none
  | (0 :: _ :: _, _) => none
  | (ds, r) => some (ds, r)

/- The digits after a point, if one is written. -/
def fractionDigits : List Char → Option (List Nat × List Char)
  | '.' :: cs =>
      match digitRun cs with
      | ([], _) => none
      | (ds, r) => some (ds, r)
  | cs => some ([], cs)

/- The number that digits spell. -/
def spelled
    (ds : List Nat) : Nat :=
  ds.foldl (fun n d => 10 * n + d) 0

/- The exponent's sign and what follows it. -/
def exponentSign : List Char → Int × List Char
  | '+' :: cs => (1, cs)
  | '-' :: cs => (-1, cs)
  | cs => (1, cs)

/- The digits of an exponent with its sign. -/
def exponentDigits
    (cs : List Char) : Option (Int × List Char) :=
  let (sign, ds) := exponentSign cs
  match digitRun ds with
  | ([], _) => none
  | (ds, r) => some (sign * (spelled ds : Int), r)

/- The exponent, if one is written. -/
def exponentPart : List Char → Option (Option Int × List Char)
  | 'e' :: cs =>
      (exponentDigits cs).map fun (x, r) => (some x, r)
  | 'E' :: cs =>
      (exponentDigits cs).map fun (x, r) => (some x, r)
  | cs => some (none, cs)

/- A number without its sign. -/
def unsigned
    (negative : Bool)
    (cs : List Char) : Option (Json × List Char) := do
  let (front, r) ← wholeDigits cs
  let (fraction, r) ← fractionDigits r
  let (exponent, r) ← exponentPart r
  let x : Lexeme :=
    ⟨negative, front, fraction, exponent.getD 0,
      fraction.isEmpty && exponent.isNone⟩
  return (x.value, r)

/- A number. -/
def number : List Char → Option (Json × List Char)
  | '-' :: cs => unsigned true cs
  | cs => unsigned false cs

------------------------------------------------------------
-- Text
------------------------------------------------------------

/- What a piece of a text literal stands for. -/
inductive Unit where
  /- A whole character. -/
  | char (c : Char)
  /- One half of a surrogate pair. -/
  | half (code : Nat)
deriving DecidableEq, Repr

/- The value of a hexadecimal digit. -/
def hexDigit?
    (c : Char) : Option Nat :=
  if '0' ≤ c ∧ c ≤ '9' then some (c.toNat - 48)
  else if 'a' ≤ c ∧ c ≤ 'f' then some (c.toNat - 87)
  else if 'A' ≤ c ∧ c ≤ 'F' then some (c.toNat - 55)
  else none

/- The unit of a code of sixteen bits. -/
def unitOf
    (code : Nat) : Unit :=
  if 0xd800 ≤ code ∧ code ≤ 0xdfff then .half code
  else .char (Char.ofNat code)

/- A code of four hexadecimal digits. -/
def hexCode : List Char → Option (Unit × List Char)
  | a :: b :: c :: d :: r => do
      let a ← hexDigit? a
      let b ← hexDigit? b
      let c ← hexDigit? c
      let d ← hexDigit? d
      return (unitOf (((a * 16 + b) * 16 + c) * 16 + d), r)
  | _ => none

/- The character of a one-letter escape. -/
def escaped? : Char → Option Char
  | '"' => some '"'
  | '\\' => some '\\'
  | '/' => some '/'
  | 'b' => some '\x08'
  | 'f' => some '\x0c'
  | 'n' => some '\n'
  | 'r' => some '\r'
  | 't' => some '\t'
  | _ => none

/- What follows a backslash. -/
def escape : List Char → Option (Unit × List Char)
  | 'u' :: cs => hexCode cs
  | c :: cs => (escaped? c).map fun x => (.char x, cs)
  | [] => none

/- The units of a literal up to its closing quote. -/
def units : Nat → List Char → Option (List Unit × List Char)
  | 0, _ => none
  | _ + 1, [] => none
  | n + 1, c :: cs =>
      if c = '"' then
        some ([], cs)
      else if c = '\\' then do
        let (u, r) ← escape cs
        let (us, r) ← units n r
        return (u :: us, r)
      else if c.toNat < 32 then
        none
      else do
        let (us, r) ← units n cs
        return (.char c :: us, r)

/- The character of two surrogate halves. -/
def paired
    (high low : Nat) : Char :=
  Char.ofNat
    (0x10000 + (high - 0xd800) * 0x400 + (low - 0xdc00))

/- The characters of units; a half without its other is none. -/
def joined : List Unit → Option (List Char)
  | [] => some []
  | .char c :: us => (joined us).map (c :: ·)
  | .half a :: .half b :: us =>
      if a ≤ 0xdbff ∧ 0xdc00 ≤ b then
        (joined us).map (paired a b :: ·)
      else
        none
  | .half _ :: _ => none

/-
  A text literal after its opening quote: its text, if its
  units stand for one, and what follows.
-/
def literal
    (cs : List Char) : Option (Option String × List Char) := do
  let (us, r) ← units (cs.length + 1) cs
  return ((joined us).map String.ofList, r)

------------------------------------------------------------
-- Values
------------------------------------------------------------

/- A character between the parts of a value. -/
def isSpace
    (c : Char) : Bool :=
  c == ' ' || c == '\n' || c == '\t' || c == '\r'

/- A text without the spaces at its front. -/
def skip
    (cs : List Char) : List Char :=
  cs.dropWhile isSpace

/- What follows a word at the front of a text. -/
def afterWord : List Char → List Char → Option (List Char)
  | [], cs => some cs
  | _ :: _, [] => none
  | w :: ws, c :: cs =>
      if w = c then afterWord ws cs else none

/- A value that is written as a word. -/
def constant
    (word : String)
    (v : Json)
    (cs : List Char) : Option (Json × List Char) :=
  (afterWord word.toList cs).map fun r => (v, r)

/- The text of a literal as a value. -/
def textValue : Option String → Json
  | none => .unreadable
  | some s => .string s

/- The members of an object, unless a key is unreadable. -/
def objectOf
    (ms : List (Option String × Json)) : Json :=
  match ms.mapM fun m => m.1.map fun k => (k, m.2) with
  | none => .unreadable
  | some ms => .object ms

/- The character that opens an object. -/
def openObject : Char :=
  '\x7b'

/- The character that closes an object. -/
def closeObject : Char :=
  '\x7d'

mutual

/- A value at the front of a text. -/
def value : Nat → List Char → Option (Json × List Char)
  | 0, _ => none
  | n + 1, cs =>
      match skip cs with
      | [] => none
      | c :: r =>
          if c = '"' then
            (literal r).map fun (s, r) => (textValue s, r)
          else if c = '[' then
            (items n r).map fun (vs, r) => (.array vs, r)
          else if c = openObject then
            (members n r).map fun (ms, r) => (objectOf ms, r)
          else if c = 'n' then
            constant "null" .null (c :: r)
          else if c = 't' then
            constant "true" (.bool true) (c :: r)
          else if c = 'f' then
            constant "false" (.bool false) (c :: r)
          else
            number (c :: r)

/- What follows the bracket that opens an array. -/
def items : Nat → List Char → Option (List Json × List Char)
  | 0, _ => none
  | n + 1, cs =>
      match skip cs with
      | ']' :: r => some ([], r)
      | r => someItems n r

/- At least one item and the closing bracket. -/
def someItems :
    Nat → List Char → Option (List Json × List Char)
  | 0, _ => none
  | n + 1, cs => do
      let (v, r) ← value n cs
      match skip r with
      | ']' :: r => return ([v], r)
      | ',' :: r =>
          let (vs, r) ← someItems n r
          return (v :: vs, r)
      | _ => none

/- What follows the brace that opens an object. -/
def members :
    Nat → List Char →
      Option (List (Option String × Json) × List Char)
  | 0, _ => none
  | n + 1, cs =>
      match skip cs with
      | [] => none
      | c :: r =>
          if c = closeObject then some ([], r)
          else someMembers n (c :: r)

/- At least one member and the closing brace. -/
def someMembers :
    Nat → List Char →
      Option (List (Option String × Json) × List Char)
  | 0, _ => none
  | n + 1, cs =>
      match skip cs with
      | '"' :: r => do
          let (k, r) ← literal r
          match skip r with
          | ':' :: r =>
              let (v, r) ← value n r
              match skip r with
              | [] => none
              | c :: r =>
                  if c = closeObject then
                    return ([(k, v)], r)
                  else if c = ',' then
                    let (ms, r) ← someMembers n r
                    return ((k, v) :: ms, r)
                  else
                    none
          | _ => none
      | _ => none

end

end Reader

------------------------------------------------------------
-- Texts
------------------------------------------------------------

/- The value that a text is written for. -/
def parseChars
    (cs : List Char) : Option Json :=
  match Reader.value (3 * cs.length + 3) cs with
  | none => none
  | some (v, r) =>
      match Reader.skip r with
      | [] => some v
      | _ => none

/- The value that a text is written for. -/
def parse
    (s : String) : Option Json :=
  parseChars s.toList

end Json

end JokerRun
