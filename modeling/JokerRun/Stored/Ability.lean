import JokerRun.Ability.Basic
import JokerRun.Stored.Card

/-
  The stored forms of jokers, their effects and outcomes.

  Key definitions include:
    * `Phase.stored` and `Phase.ofStored?`
    * `Effect.stored` and `Effect.ofStored?`
    * `Outcome.stored` and `Outcome.ofStored?`
    * `Ability.stored` and `Ability.ofStored?`
-/

------------------------------------------------------------
-- Phases
------------------------------------------------------------

namespace JokerRun

namespace Phase

/- Every phase. -/
def all : List Phase :=
  [.individual, .heldInHand, .global, .discard]

/- The name under which a phase is stored. -/
def tag : Phase → String
  | .individual => "Individual"
  | .heldInHand => "HeldInHand"
  | .global => "Global"
  | .discard => "Discard"

/- The stored form of a phase. -/
def stored
    (p : Phase) : Json :=
  .string p.tag

/- The phase of a stored form. -/
def ofStored?
    (v : Json) : Option Phase :=
  v.named? all tag

end Phase

------------------------------------------------------------
-- Effects
------------------------------------------------------------

namespace Effect

/- The stored form of an effect, its factor written by `real`. -/
def storedWith
    (real : Binary64 → Json) : Effect → Json
  | .flatMult a =>
      .ofChoice "FlatMult" [("amount", .whole a)]
  | .suitConditionalMult a s =>
      .ofChoice "SuitConditionalMult"
        [("amount", .whole a), ("suit", s.stored)]
  | .countScaledMult a =>
      .ofChoice "CountScaledMult" [("per_unit", .whole a)]
  | .discardRankRebate d r =>
      .ofChoice "DiscardRankRebate"
        [("dollars", .whole d), ("rank", r.stored)]
  | .flatChips a =>
      .ofChoice "FlatChips" [("amount", .whole a)]
  | .multFactor f =>
      .ofChoice "MultFactor" [("factor", real f)]
  | .heldRankMult a r =>
      .ofChoice "HeldRankMult"
        [("amount", .whole a), ("rank", r.stored)]

/- The stored form of an effect. -/
def stored
    (e : Effect) : Json :=
  e.storedWith .real

/- The effect of a name and the stored form of its data. -/
def ofChoice?
    (name : String)
    (v : Json) : Option Effect :=
  match name with
  | "FlatMult" => do
      let fs ← v.fields? ["amount"]
      let a ← fs.required "amount" Json.amount?
      return .flatMult a
  | "SuitConditionalMult" => do
      let fs ← v.fields? ["amount", "suit"]
      let a ← fs.required "amount" Json.amount?
      let s ← fs.required "suit" Suit.ofStored?
      return .suitConditionalMult a s
  | "CountScaledMult" => do
      let fs ← v.fields? ["per_unit"]
      let a ← fs.required "per_unit" Json.amount?
      return .countScaledMult a
  | "DiscardRankRebate" => do
      let fs ← v.fields? ["dollars", "rank"]
      let d ← fs.required "dollars" Json.amount?
      let r ← fs.required "rank" Rank.ofStored?
      return .discardRankRebate d r
  | "FlatChips" => do
      let fs ← v.fields? ["amount"]
      let a ← fs.required "amount" Json.amount?
      return .flatChips a
  | "MultFactor" => do
      let fs ← v.fields? ["factor"]
      let f ← fs.required "factor" Json.real?
      return .multFactor f
  | "HeldRankMult" => do
      let fs ← v.fields? ["amount", "rank"]
      let a ← fs.required "amount" Json.amount?
      let r ← fs.required "rank" Rank.ofStored?
      return .heldRankMult a r
  | _ => none

/- The effect of a stored form. -/
def ofStored?
    (v : Json) : Option Effect := do
  let (name, v) ← v.choice?
  ofChoice? name v

end Effect

------------------------------------------------------------
-- Outcomes
------------------------------------------------------------

namespace Outcome

/- The stored form of an outcome. -/
def stored
    (o : Outcome) : Json :=
  .object
    [("chips_add", .whole o.chips),
      ("mult_add", .whole o.mult),
      ("mult_factor", .real o.factor),
      ("dollars_add", .whole o.dollars),
      ("message", .string o.message)]

/- The outcome of a stored form. -/
def ofStored?
    (v : Json) : Option Outcome := do
  let fs ←
    v.fields?
      ["chips_add", "mult_add", "mult_factor", "dollars_add",
        "message"]
  let chips ← fs.required "chips_add" Json.amount?
  let mult ← fs.required "mult_add" Json.amount?
  let factor ← fs.required "mult_factor" Json.real?
  let dollars ← fs.required "dollars_add" Json.amount?
  let message ← fs.required "message" Json.text?
  return ⟨chips, mult, factor, dollars, message⟩

end Outcome

------------------------------------------------------------
-- Jokers
------------------------------------------------------------

namespace Ability

/- The stored form of a joker, its factor written by `real`. -/
def storedWith
    (real : Binary64 → Json)
    (a : Ability) : Json :=
  .object
    [("id", .string a.id), ("name", .string a.name),
      ("description", .string a.description),
      ("cost", .whole a.cost),
      ("atlas_index", .whole a.atlasIndex),
      ("effect",
        match a.effect with
        | none => .null
        | some e => e.storedWith real)]

/- The stored form of a joker. -/
def stored
    (a : Ability) : Json :=
  a.storedWith .real

/- The joker of a stored form. -/
def ofStored?
    (v : Json) : Option Ability := do
  let fs ←
    v.fields?
      ["id", "name", "description", "cost", "atlas_index",
        "effect"]
  let id ← fs.required "id" Json.text?
  let name ← fs.required "name" Json.text?
  let description ← fs.optional "description" "" Json.text?
  let cost ← fs.optional "cost" 0 Json.amount?
  let atlasIndex ← fs.optional "atlas_index" 0 Json.nat32?
  let effect ←
    fs.optional "effect" none
      (Json.nullable? Effect.ofStored?)
  return ⟨id, name, description, cost, atlasIndex, effect⟩

end Ability

end JokerRun
