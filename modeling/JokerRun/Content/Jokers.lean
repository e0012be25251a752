import JokerRun.Ability.Catalog
import JokerRun.Json.Field
import JokerRun.Json.Reader
import JokerRun.Json.Writer
import JokerRun.Text.Blank
import JokerRun.Text.Quoted

/-
  The catalog of jokers as content.

  A record names an effect and gives its parameters as free
  values.  A record whose effect cannot be built becomes an
  inert joker and leaves a warning.

  Key definitions include:
    * `JokerRecord`
    * `InertReason`
    * `JokerRecord.effect`
    * `JokerRecord.build`
    * `JokerTable.build`
    * `JokerTable.parse`
-/

------------------------------------------------------------
-- Records
------------------------------------------------------------

namespace JokerRun

/- One record of the catalog. -/
structure JokerRecord where
  name : String
  text : String
  cost : Int
  atlasId : Nat
  effectId : String
  params : Json
deriving BEq, Repr

namespace JokerRecord

/- The stored form of a record. -/
def stored
    (r : JokerRecord) : Json :=
  .object
    [("name", .string r.name), ("text", .string r.text),
      ("cost", .whole r.cost),
      ("atlas_id", .whole r.atlasId),
      ("effect_id", .string r.effectId),
      ("params", r.params)]

/-
  The record of a stored form that stands inside `around`
  others; every field may be absent.
-/
def ofStored?
    (around : Nat)
    (v : Json) : Option JokerRecord := do
  let fs ←
    v.fields?
      ["name", "text", "cost", "atlas_id", "effect_id",
        "params"]
  let name ← fs.optional "name" "Unknown" Json.text?
  let text ← fs.optional "text" "" Json.text?
  let cost ← fs.optional "cost" 0 Json.amount?
  let atlasId ← fs.optional "atlas_id" 0 Json.nat32?
  let effectId ← fs.optional "effect_id" "" Json.text?
  let params ←
    fs.optional "params" .null (Json.freeWithin? (around + 1))
  return ⟨name, text, cost, atlasId, effectId, params⟩

end JokerRecord

------------------------------------------------------------
-- Parameters
------------------------------------------------------------

/- The parameters of an effect. -/
abbrev Params :=
  List (String × Json)

/- Why a record becomes an inert joker. -/
inductive InertReason where
  | noEffect
  | unknownEffect (id : String)
  | notInteger (key : String) (value : Json)
  | notNumber (key : String) (value : Json)
  | unknownSuit (name : String)
  | notSuit (key : String) (value : Json)
  | missingParam (key : String)
  | unknownRankName (name : String)
  | unknownRankNumber (value : Json)
  | notRank (key : String) (value : Json)
deriving BEq, Repr

/- The wording of a reason. -/
def InertReason.message : InertReason → String
  | .noEffect => "no effect id"
  | .unknownEffect id =>
      s!"unknown effect id {Text.quoted id}"
  | .notInteger key v =>
      s!"param {key} is not an integer: {v.compact}"
  | .notNumber key v =>
      s!"param {key} is not a number: {v.compact}"
  | .unknownSuit name => s!"unknown suit {Text.quoted name}"
  | .notSuit key v =>
      s!"param {key} is not a suit name: {v.compact}"
  | .missingParam key => s!"missing param {key}"
  | .unknownRankName name =>
      s!"unknown rank {Text.quoted name}"
  | .unknownRankNumber v => s!"unknown rank {v.compact}"
  | .notRank key v =>
      s!"param {key} is not a rank: {v.compact}"

namespace Params

/-
  A whole parameter: a whole number that is an amount, or
  any number without a fraction, as the nearest amount; an
  absent one is zero.
-/
def integer
    (ps : Params)
    (key : String) : Except InertReason Int :=
  match ps.lookup key with
  | none => .ok 0
  | some v =>
      match v with
      | .whole n =>
          if n ≤ Amount.highest then .ok n
          else .ok (Binary64.ofInt n).truncAmount
      | .real x =>
          if x.isWhole then .ok x.truncAmount
          else .error (.notInteger key v)
      | _ => .error (.notInteger key v)

/- A number parameter; an absent one is one. -/
def number
    (ps : Params)
    (key : String) : Except InertReason Binary64 :=
  match ps.lookup key with
  | none => .ok (Binary64.ofInt 1)
  | some v =>
      match v.real? with
      | some x => .ok x
      | none => .error (.notNumber key v)

/- A suit parameter; an absent one is spades. -/
def suit
    (ps : Params)
    (key : String) : Except InertReason Suit :=
  match ps.lookup key with
  | none => .ok .spades
  | some (.string name) =>
      match Suit.ofKey? name.toList with
      | some s => .ok s
      | none => .error (.unknownSuit name)
  | some v => .error (.notSuit key v)

/- The rank that a whole number stands for. -/
def rankOfWhole?
    (n : Int) : Option Rank :=
  if 0 ≤ n ∧ n ≤ 255 then Rank.ofValue? n.toNat else none

/- A rank parameter, which must be present. -/
def rank
    (ps : Params)
    (key : String) : Except InertReason Rank :=
  match ps.lookup key with
  | none => .error (.missingParam key)
  | some v =>
      match v with
      | .string name =>
          match Rank.ofKey? name.toList with
          | some r => .ok r
          | none => .error (.unknownRankName name)
      | .whole n =>
          match rankOfWhole? n with
          | some r => .ok r
          | none => .error (.unknownRankNumber v)
      | .real _ => .error (.unknownRankNumber v)
      | _ => .error (.notRank key v)

/- The key that holds the mult for each joker. -/
def perUnitKey
    (ps : Params) : String :=
  if (ps.lookup "per_unit").isSome then "per_unit"
  else "amount"

end Params

------------------------------------------------------------
-- Effects
------------------------------------------------------------

/- The kinds of effects that a record can name. -/
inductive EffectKind where
  | flatMult
  | suitConditionalMult
  | countScaledMult
  | discardRankRebate
  | flatChips
  | multFactor
  | heldRankMult
deriving DecidableEq, Repr

namespace EffectKind

/- The kind that an identifier names. -/
def ofId? : String → Option EffectKind
  | "SimpleMult" => some .flatMult
  | "FlatMult" => some .flatMult
  | "SuitMult" => some .suitConditionalMult
  | "SuitConditionalMult" => some .suitConditionalMult
  | "AbstractJoker" => some .countScaledMult
  | "CountScaledMult" => some .countScaledMult
  | "DiscardRebate" => some .discardRankRebate
  | "DiscardRankRebate" => some .discardRankRebate
  | "FlatChips" => some .flatChips
  | "XMult" => some .multFactor
  | "MultFactor" => some .multFactor
  | "HeldRankMult" => some .heldRankMult
  | _ => none

/- The effect of a kind with given parameters. -/
def effect
    (ps : Params) : EffectKind → Except InertReason Effect
  | .flatMult => do
      return .flatMult (← ps.integer "amount")
  | .suitConditionalMult => do
      let a ← ps.integer "amount"
      let s ← ps.suit "suit"
      return .suitConditionalMult a s
  | .countScaledMult => do
      return .countScaledMult (← ps.integer ps.perUnitKey)
  | .discardRankRebate => do
      let d ← ps.integer "dollars"
      let r ← ps.rank "rank"
      return .discardRankRebate d r
  | .flatChips => do
      return .flatChips (← ps.integer "amount")
  | .multFactor => do
      return .multFactor (← ps.number "factor")
  | .heldRankMult => do
      let a ← ps.integer "amount"
      let r ← ps.rank "rank"
      return .heldRankMult a r

end EffectKind

------------------------------------------------------------
-- Jokers
------------------------------------------------------------

/- Why a record cannot become a joker at all. -/
inductive RecordError where
  | emptyId
  | badParams (id : String) (params : Json)
deriving BEq, Repr

/- The wording of a fault. -/
def RecordError.message : RecordError → String
  | .emptyId => "ability id cannot be empty"
  | .badParams id v =>
      s!"params for {id} must be an object, found {v.compact}"

namespace JokerRecord

/- The parameters of a record, if they are an object. -/
def params?
    (r : JokerRecord) : Option Params :=
  match r.params with
  | .null => some []
  | .object ps => some ps
  | _ => none

/- The effect that a record describes. -/
def effect
    (r : JokerRecord)
    (ps : Params) : Except InertReason Effect :=
  if r.effectId = "" then
    .error .noEffect
  else
    match EffectKind.ofId? r.effectId with
    | none => .error (.unknownEffect r.effectId)
    | some k => k.effect ps

/- The joker of a record with an effect or without one. -/
def ability
    (r : JokerRecord)
    (id : String)
    (effect : Option Effect) : Ability :=
  ⟨id, r.name, r.text, r.cost, r.atlasId, effect⟩

/- The warning about an inert joker. -/
def inertWarning
    (id : String)
    (reason : InertReason) : String :=
  s!"ability {id} is inert: {reason.message}"

/- The joker of a record, with the warnings that it leaves. -/
def build
    (id : String)
    (r : JokerRecord) :
    Except RecordError (Ability × List String) :=
  if Text.trim id.toList = [] then
    .error .emptyId
  else
    match r.params? with
    | none => .error (.badParams id r.params)
    | some ps =>
        match r.effect ps with
        | .ok e => .ok (r.ability id (some e), [])
        | .error reason =>
            .ok (r.ability id none, [inertWarning id reason])

end JokerRecord

------------------------------------------------------------
-- The Catalog
------------------------------------------------------------

namespace JokerTable

/-
  The jokers of records in order, with their warnings.  The
  first bad record ends the building; the warnings before it
  stay.
-/
def buildAll :
    List (String × JokerRecord) →
      Except RecordError (List Ability) × List String
  | [] => (.ok [], [])
  | (id, r) :: rs =>
      match r.build id with
      | .error e => (.error e, [])
      | .ok (a, warnings) =>
          let (rest, later) := buildAll rs
          (rest.map (a :: ·), warnings ++ later)

/- The catalog of records, with the warnings that it leaves. -/
def build
    (rs : Dictionary JokerRecord) :
    Except RecordError Catalog × List String :=
  let (abilities, warnings) := buildAll rs.entries
  (abilities.map Catalog.ofList, warnings)

/- The records that a text stands for. -/
def records?
    (s : String) : Option (Dictionary JokerRecord) :=
  (Json.parse s).bind
    (Json.dictionary? (JokerRecord.ofStored? 1))

/- Why a text gives no catalog. -/
inductive Fault where
  | malformed
  | record (e : RecordError)
deriving BEq, Repr

/- The catalog of a text, with the warnings that it leaves. -/
def parse
    (s : String) : Except Fault Catalog × List String :=
  match records? s with
  | none => (.error .malformed, [])
  | some rs =>
      let (c, warnings) := build rs
      (c.mapError .record, warnings)

end JokerTable

end JokerRun
