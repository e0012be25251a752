import JokerRun.Binary64.Layout
import JokerRun.Json.Basic

/-
  Writing stored data.

  The compact form has no spaces.  The open form puts each
  item and member on a line of its own, two spaces deeper
  than what holds it; empty arrays and objects stay closed.

  Key definitions include:
    * `Json.compact`
    * `Json.opened`
-/

------------------------------------------------------------
-- Text
------------------------------------------------------------

namespace JokerRun

namespace Json

namespace Writer

/- A digit of a hexadecimal code. -/
def hexDigit
    (n : Nat) : Char :=
  if n < 10 then Char.ofNat (48 + n) else Char.ofNat (87 + n)

/- A character inside a text literal. -/
def escaped
    (c : Char) : List Char :=
  match c with
  | '"' => ['\\', '"']
  | '\\' => ['\\', '\\']
  | '\x08' => ['\\', 'b']
  | '\x0c' => ['\\', 'f']
  | '\n' => ['\\', 'n']
  | '\r' => ['\\', 'r']
  | '\t' => ['\\', 't']
  | c =>
      if c.toNat < 32 then
        ['\\', 'u', '0', '0', hexDigit (c.toNat / 16),
          hexDigit (c.toNat % 16)]
      else
        [c]

/- A text literal. -/
def literal
    (s : String) : List Char :=
  '"' :: s.toList.flatMap escaped ++ ['"']

/- A whole number. -/
def whole
    (n : Int) : List Char :=
  if n < 0 then
    '-' :: (Nat.repr n.natAbs).toList
  else
    (Nat.repr n.natAbs).toList

/- The character that opens an object. -/
def openObject : Char :=
  '\x7b'

/- The character that closes an object. -/
def closeObject : Char :=
  '\x7d'

------------------------------------------------------------
-- Compact Form
------------------------------------------------------------

/- A value without spaces. -/
def value : Json → List Char
  | .null => ['n', 'u', 'l', 'l']
  | .bool true => ['t', 'r', 'u', 'e']
  | .bool false => ['f', 'a', 'l', 's', 'e']
  | .whole n => whole n
  | .real x => x.recorded.toList
  | .string s => literal s
  | .array [] => ['[', ']']
  | .array (v :: vs) => '[' :: value v ++ items vs
  | .object [] => [openObject, closeObject]
  | .object ((k, v) :: ms) =>
      openObject :: literal k ++ ':' :: value v ++ members ms
  | .unreadable => ['n', 'u', 'l', 'l']
where
  items : List Json → List Char
    | [] => [']']
    | v :: vs => ',' :: value v ++ items vs
  members : List (String × Json) → List Char
    | [] => [closeObject]
    | (k, v) :: ms =>
        ',' :: literal k ++ ':' :: value v ++ members ms

------------------------------------------------------------
-- Open Form
------------------------------------------------------------

/- The start of a line at a depth. -/
def newLine
    (depth : Nat) : List Char :=
  '\n' :: List.replicate (2 * depth) ' '

/- A value with a line for each item and member. -/
def openValue
    (depth : Nat) : Json → List Char
  | .array (v :: vs) =>
      '[' :: newLine (depth + 1) ++ openValue (depth + 1) v ++
        openItems depth vs
  | .object ((k, v) :: ms) =>
      openObject :: newLine (depth + 1) ++ literal k ++
        ':' :: ' ' :: openValue (depth + 1) v ++
        openMembers depth ms
  | v => value v
where
  openItems
      (depth : Nat) : List Json → List Char
    | [] => newLine depth ++ [']']
    | v :: vs =>
        ',' :: newLine (depth + 1) ++
          openValue (depth + 1) v ++ openItems depth vs
  openMembers
      (depth : Nat) : List (String × Json) → List Char
    | [] => newLine depth ++ [closeObject]
    | (k, v) :: ms =>
        ',' :: newLine (depth + 1) ++ literal k ++
          ':' :: ' ' :: openValue (depth + 1) v ++
          openMembers depth ms

end Writer

------------------------------------------------------------
-- Texts
------------------------------------------------------------

/- The text of a value, without spaces. -/
def compact
    (v : Json) : String :=
  String.ofList (Writer.value v)

/- The text of a value, one line for each part. -/
def opened
    (v : Json) : String :=
  String.ofList (Writer.openValue 0 v)

end Json

end JokerRun
