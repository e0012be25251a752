import JokerRun.Rules
import JokerRun.Stored.Hand

/-
  The stored forms of rules.  Every rule may be absent, and
  then is the standard one.

  Key definitions include:
    * `RunRules.stored` and `RunRules.ofStored?`
    * `Rules.stored` and `Rules.ofStored?`
-/

------------------------------------------------------------
-- Rules Of A Run
------------------------------------------------------------

namespace JokerRun

namespace RunRules

/- The names of the stored rules. -/
def fieldNames : List String :=
  ["hands_per_round", "discards_per_round", "hand_size",
    "max_selection", "starting_money", "starting_target",
    "target_growth", "clear_reward", "joker_slots",
    "shop_slots", "reroll_cost"]

/- The stored form of the rules, a factor written by `real`. -/
def storedWith
    (real : Binary64 → Json)
    (r : RunRules) : Json :=
  .object
    [("hands_per_round", .whole r.handsPerRound),
      ("discards_per_round", .whole r.discardsPerRound),
      ("hand_size", .whole r.handSize),
      ("max_selection", .whole r.maxSelection),
      ("starting_money", .whole r.startingMoney),
      ("starting_target", .whole r.startingTarget),
      ("target_growth", real r.targetGrowth),
      ("clear_reward", .whole r.clearReward),
      ("joker_slots", .whole r.jokerSlots),
      ("shop_slots", .whole r.shopSlots),
      ("reroll_cost", .whole r.rerollCost)]

/- The stored form of the rules. -/
def stored
    (r : RunRules) : Json :=
  r.storedWith .real

/- The rules of a stored form. -/
def ofStored?
    (v : Json) : Option RunRules := do
  let d := standard
  let fs ← v.fields? fieldNames
  let hands ←
    fs.optional "hands_per_round" d.handsPerRound Json.nat8?
  let discards ←
    fs.optional "discards_per_round" d.discardsPerRound
      Json.nat8?
  let size ← fs.optional "hand_size" d.handSize Json.nat64?
  let selection ←
    fs.optional "max_selection" d.maxSelection Json.nat64?
  let money ←
    fs.optional "starting_money" d.startingMoney Json.amount?
  let target ←
    fs.optional "starting_target" d.startingTarget
      Json.amount?
  let growth ←
    fs.optional "target_growth" d.targetGrowth Json.real?
  let reward ←
    fs.optional "clear_reward" d.clearReward Json.amount?
  let jokers ←
    fs.optional "joker_slots" d.jokerSlots Json.nat64?
  let offers ←
    fs.optional "shop_slots" d.shopSlots Json.nat64?
  let cost ←
    fs.optional "reroll_cost" d.rerollCost Json.amount?
  return ⟨hands, discards, size, selection, money, target,
    growth, reward, jokers, offers, cost⟩

end RunRules

------------------------------------------------------------
-- Rules Of A Game
------------------------------------------------------------

namespace Rules

/- The stored form of the rules, a factor written by `real`. -/
def storedWith
    (real : Binary64 → Json)
    (r : Rules) : Json :=
  .object
    [("run", r.run.storedWith real),
      ("hands", .array (r.hands.map HandRule.stored))]

/- The stored form of the rules. -/
def stored
    (r : Rules) : Json :=
  r.storedWith .real

/- The rules of a stored form. -/
def ofStored?
    (v : Json) : Option Rules := do
  let fs ← v.fields? ["run", "hands"]
  let run ←
    fs.optional "run" RunRules.standard RunRules.ofStored?
  let hands ←
    fs.optional "hands" [] (Json.list? HandRule.ofStored?)
  return ⟨run, hands⟩

end Rules

end JokerRun
