import JokerRun.Binary64.Basic
import JokerRun.Binary64.Reading
import JokerRun.Hand.Category

/-
  The rules of a game: limits and prices of a run, and base
  values of categories.

  Key definitions include:
    * `HandRule`
    * `RunRules`
    * `RunRules.nextTarget`
    * `Rules`
    * `Rules.base`
-/

------------------------------------------------------------
-- Base Values
------------------------------------------------------------

namespace JokerRun

/- A rule that sets the base values of one category. -/
structure HandRule where
  category : Category
  chips : Int
  mult : Int
deriving DecidableEq, Repr

/- The base values under rules, of which the last counts. -/
def Category.baseUnder
    (rules : List HandRule)
    (c : Category) : Category.Base :=
  match rules.reverse.find? fun r => r.category == c with
  | some r => ⟨r.chips, r.mult⟩
  | none => c.base

------------------------------------------------------------
-- Runs
------------------------------------------------------------

/- Limits and prices of a run. -/
structure RunRules where
  handsPerRound : Nat
  discardsPerRound : Nat
  handSize : Nat
  maxSelection : Nat
  startingMoney : Int
  startingTarget : Int
  targetGrowth : Binary64
  clearReward : Int
  jokerSlots : Nat
  shopSlots : Nat
  rerollCost : Int
deriving DecidableEq, Repr

namespace RunRules

/- The rules unless others are set. -/
def standard : RunRules where
  handsPerRound := 4
  discardsPerRound := 3
  handSize := 8
  maxSelection := 5
  startingMoney := 4
  startingTarget := 300
  targetGrowth := Binary64.ofDecimal false 15 (-1)
  clearReward := 5
  jokerSlots := 5
  shopSlots := 3
  rerollCost := 5

/- The target of the round after one with a given target. -/
def nextTarget
    (rules : RunRules)
    (target : Int) : Int :=
  Binary64.scale target rules.targetGrowth

end RunRules

/- The rules of a game. -/
structure Rules where
  run : RunRules
  hands : List HandRule
deriving DecidableEq, Repr

namespace Rules

/- The rules unless others are set. -/
def standard : Rules :=
  ⟨RunRules.standard, []⟩

end Rules

end JokerRun
