import JokerRun.Ability.Basic
import JokerRun.Dictionary
import JokerRun.Random.Generator

/-
  The catalog of every joker that a game knows.

  Key definitions include:
    * `Catalog`
    * `Catalog.ofList`
    * `Catalog.pick`
-/

------------------------------------------------------------
-- The Catalog
------------------------------------------------------------

namespace JokerRun

/- Jokers under their identifiers. -/
structure Catalog where
  abilities : Dictionary Ability

namespace Catalog

/- The catalog without jokers. -/
def empty : Catalog :=
  ⟨Dictionary.empty⟩

/- The catalog of a list; of one identifier the last counts. -/
def ofList
    (as : List Ability) : Catalog :=
  ⟨Dictionary.ofList (as.map fun a => (a.id, a))⟩

/- The joker with an identifier. -/
def get?
    (c : Catalog)
    (id : String) : Option Ability :=
  c.abilities.get? id

/- The identifiers, ascending. -/
def ids
    (c : Catalog) : List String :=
  c.abilities.keys

/- The jokers, by ascending identifier. -/
def toList
    (c : Catalog) : List Ability :=
  c.abilities.values

/- The number of jokers. -/
def size
    (c : Catalog) : Nat :=
  c.abilities.size

/- Whether there is no joker. -/
def isEmpty
    (c : Catalog) : Bool :=
  c.abilities.isEmpty

/- A random joker; none when there is no joker. -/
def pick
    (c : Catalog)
    (g : Generator) : Option Ability × Generator :=
  match g.below c.size with
  | (none, g) => (none, g)
  | (some i, g) => (c.toList[i]?, g)

end Catalog

end JokerRun
