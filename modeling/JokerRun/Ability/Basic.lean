import JokerRun.Ability.Effect

/-
  Jokers: abilities that a player can own.

  Key definitions include:
    * `Ability`
    * `Ability.outcome?`
    * `Ability.sellValue`
-/

------------------------------------------------------------
-- Abilities
------------------------------------------------------------

namespace JokerRun

/- A joker; without an effect it is inert. -/
structure Ability where
  id : String
  name : String
  description : String
  cost : Int
  atlasIndex : Nat
  effect : Option Effect
deriving DecidableEq, Repr

namespace Ability

/- Whether the joker never does anything. -/
def isInert
    (a : Ability) : Bool :=
  a.effect.isNone

/- What the joker yields at a moment. -/
def outcome?
    (a : Ability)
    (m : Moment) : Option Outcome :=
  a.effect.bind fun e => e.outcome? m

/- Half the price, but at least one. -/
def sellValue
    (a : Ability) : Int :=
  max (Int.tdiv a.cost 2) 1

end Ability

end JokerRun
