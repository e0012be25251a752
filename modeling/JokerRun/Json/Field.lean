import JokerRun.Amount
import JokerRun.Dictionary
import JokerRun.Json.Basic
import JokerRun.Text.Numeral

/-
  From stored values to the values of a type.

  A record is an object with known fields, unknown ones
  being passed over, or an array of its fields in order.  A
  choice is a name, or an object whose one member is named
  for what is chosen.

  Key definitions include:
    * `Json.fields?`
    * `Fields.required`
    * `Fields.optional`
    * `Json.tag?`
    * `Json.choice?`
    * `Json.free?`
-/

------------------------------------------------------------
-- Numbers, Texts And Lists
------------------------------------------------------------

namespace JokerRun

namespace Json

/- A whole number between two bounds. -/
def wholeIn?
    (low high : Int) : Json → Option Int
  | .whole n =>
      if low ≤ n ∧ n ≤ high then some n else none
  | _ => none

/- An amount. -/
def amount?
    (v : Json) : Option Int :=
  v.wholeIn? Amount.lowest Amount.highest

/- A natural number up to a bound. -/
def natTo?
    (high : Nat)
    (v : Json) : Option Nat :=
  (v.wholeIn? 0 (high : Int)).map Int.toNat

/- A natural number of 8 bits. -/
def nat8?
    (v : Json) : Option Nat :=
  v.natTo? 255

/- A natural number of 32 bits. -/
def nat32?
    (v : Json) : Option Nat :=
  v.natTo? 4294967295

/- A natural number of 64 bits. -/
def nat64?
    (v : Json) : Option Nat :=
  v.natTo? Numeral.largest64

/- A floating-point number; a whole one is rounded to it. -/
def real? : Json → Option Binary64
  | .whole n => some (Binary64.ofInt n)
  | .real x => some x
  | _ => none

/- A text. -/
def text? : Json → Option String
  | .string s => some s
  | _ => none

/- A list of values of one type. -/
def list?
    {α : Type}
    (item? : Json → Option α) : Json → Option (List α)
  | .array vs => vs.mapM item?
  | _ => none

/- A value that may be absent. -/
def nullable?
    {α : Type}
    (item? : Json → Option α) : Json → Option (Option α)
  | .null => some none
  | v => (item? v).map some

------------------------------------------------------------
-- Records
------------------------------------------------------------

/- The known fields of a record. -/
abbrev Fields :=
  List (String × Json)

/-
  The fields of a record with the given names.  A field must
  not be repeated, nor an array have more items than there
  are fields.
-/
def fields?
    (names : List String) : Json → Option Fields
  | .object ms =>
      let known := ms.filter fun m => names.contains m.1
      if (known.map Prod.fst).Nodup then some known else none
  | .array vs =>
      if vs.length ≤ names.length then some (names.zip vs)
      else none
  | _ => none

namespace Fields

/- A field that must be present. -/
def required
    {α : Type}
    (fs : Fields)
    (name : String)
    (item? : Json → Option α) : Option α :=
  (fs.lookup name).bind item?

/- A field with a value of its own when absent. -/
def optional
    {α : Type}
    (fs : Fields)
    (name : String)
    (absent : α)
    (item? : Json → Option α) : Option α :=
  match fs.lookup name with
  | none => some absent
  | some v => item? v

end Fields

------------------------------------------------------------
-- Choices
------------------------------------------------------------

/- The name of a choice without data. -/
def tag? : Json → Option String
  | .string s => some s
  | .object [(s, .null)] => some s
  | _ => none

/- The choice without data that has the stored name. -/
def named?
    {α : Type}
    (all : List α)
    (name : α → String)
    (v : Json) : Option α :=
  v.tag?.bind fun s => all.find? fun a => name a == s

/- The name and the data of a choice. -/
def choice? : Json → Option (String × Json)
  | .object [m] => some m
  | _ => none

/- The stored form of a choice with data. -/
def ofChoice
    (name : String)
    (fields : Fields) : Json :=
  .object [(name, .object fields)]

------------------------------------------------------------
-- Free Values
------------------------------------------------------------

/-
  A value of no fixed type: objects have their members in
  ascending order, and of a repeated one the last counts.
-/
def free? : Json → Option Json
  | .array vs => (freeItems vs).map .array
  | .object ms =>
      (freeMembers ms).map fun ms =>
        .object (Dictionary.ofList ms).entries
  | .unreadable => none
  | v => some v
where
  freeItems : List Json → Option (List Json)
    | [] => some []
    | v :: vs =>
        match v.free?, freeItems vs with
        | some v, some vs => some (v :: vs)
        | _, _ => none
  freeMembers :
      List (String × Json) → Option (List (String × Json))
    | [] => some []
    | (k, v) :: ms =>
        match v.free?, freeMembers ms with
        | some v, some ms => some ((k, v) :: ms)
        | _, _ => none

/- A free value that stands inside `around` others. -/
def freeWithin?
    (around : Nat)
    (v : Json) : Option Json :=
  if around + v.depth ≤ depthLimit then v.free? else none

------------------------------------------------------------
-- Maps
------------------------------------------------------------

/- A dictionary of values of one type. -/
def dictionary?
    {α : Type}
    (item? : Json → Option α) :
    Json → Option (Dictionary α)
  | .object ms =>
      (ms.mapM fun m => (item? m.2).map fun v => (m.1, v)).map
        Dictionary.ofList
  | _ => none

end Json

end JokerRun
