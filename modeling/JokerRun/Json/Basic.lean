import JokerRun.Binary64.Basic

/-
  Values of stored data.

  A number is a whole number, if it was written as one and
  is in range, or else a floating-point number.  Objects
  list their members in the order in which they are written.
  Text can be well formed and still stand for no value, such
  as a number beyond the format; such a place is unreadable.

  Key definitions include:
    * `Json`
    * `Json.depth`
-/

------------------------------------------------------------
-- Values
------------------------------------------------------------

namespace JokerRun

/- A stored value. -/
inductive Json where
  | null
  | bool (b : Bool)
  | whole (n : Int)
  | real (x : Binary64)
  | string (s : String)
  | array (items : List Json)
  | object (members : List (String × Json))
  | unreadable
deriving BEq, Repr

namespace Json

/- Whole numbers from here on are kept as such. -/
def lowestWhole : Int :=
  -9223372036854775808

/- Whole numbers up to here are kept as such. -/
def highestWhole : Int :=
  18446744073709551615

------------------------------------------------------------
-- Depth
------------------------------------------------------------

/- How deep arrays and objects stand in each other. -/
def depth : Json → Nat
  | .array items => 1 + depthItems items
  | .object members => 1 + depthMembers members
  | _ => 0
where
  depthItems : List Json → Nat
    | [] => 0
    | v :: vs => max v.depth (depthItems vs)
  depthMembers : List (String × Json) → Nat
    | [] => 0
    | (_, v) :: ms => max v.depth (depthMembers ms)

/- The greatest depth that is accepted where it matters. -/
def depthLimit : Nat :=
  127

end Json

end JokerRun
