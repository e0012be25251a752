import JokerRun.Area
import JokerRun.Run.Basic
import JokerRun.Stored.Hand

/-
  The stored forms of progress, events and areas.

  Key definitions include:
    * `RunPhase.stored` and `RunPhase.ofStored?`
    * `Progress.stored` and `Progress.ofStored?`
    * `Event.stored` and `Event.ofStored?`
    * `Area.stored` and `Area.ofStored?`
-/

------------------------------------------------------------
-- Progress
------------------------------------------------------------

namespace JokerRun

namespace RunPhase

/- Every phase. -/
def all : List RunPhase :=
  [.setup, .play, .shop, .gameOver]

/- The stored form of a phase. -/
def stored
    (p : RunPhase) : Json :=
  .string p.name

/- The phase of a stored form. -/
def ofStored?
    (v : Json) : Option RunPhase :=
  v.named? all name

end RunPhase

namespace Progress

/- The stored form of progress. -/
def stored
    (p : Progress) : Json :=
  .object
    [("phase", p.phase.stored), ("round", .whole p.round),
      ("score", .whole p.score), ("target", .whole p.target),
      ("hands_left", .whole p.handsLeft),
      ("discards_left", .whole p.discardsLeft),
      ("money", .whole p.money)]

/- The progress of a stored form. -/
def ofStored?
    (v : Json) : Option Progress := do
  let fs ←
    v.fields?
      ["phase", "round", "score", "target", "hands_left",
        "discards_left", "money"]
  let phase ← fs.required "phase" RunPhase.ofStored?
  let round ← fs.required "round" Json.nat32?
  let score ← fs.required "score" Json.amount?
  let target ← fs.required "target" Json.amount?
  let hands ← fs.required "hands_left" Json.nat8?
  let discards ← fs.required "discards_left" Json.nat8?
  let money ← fs.required "money" Json.amount?
  return ⟨phase, round, score, target, hands, discards, money⟩

end Progress

------------------------------------------------------------
-- Events
------------------------------------------------------------

namespace Event

/- The stored form of an event. -/
def stored : Event → Json
  | .roundStarted round target hands discards =>
      .ofChoice "RoundStarted"
        [("round", .whole round), ("target", .whole target),
          ("hands", .whole hands),
          ("discards", .whole discards)]
  | .handDealt count =>
      .ofChoice "HandDealt" [("count", .whole count)]
  | .handScored hand chips mult total =>
      .ofChoice "HandScored"
        [("hand", hand.stored), ("chips", .whole chips),
          ("mult", .whole mult), ("total", .whole total)]
  | .discarded count dollars =>
      .ofChoice "Discarded"
        [("count", .whole count), ("dollars", .whole dollars)]
  | .roundCleared score reward money =>
      .ofChoice "RoundCleared"
        [("score", .whole score), ("reward", .whole reward),
          ("money", .whole money)]
  | .gameOver score target =>
      .ofChoice "GameOver"
        [("score", .whole score), ("target", .whole target)]
  | .shopRestocked offers money =>
      .ofChoice "ShopRestocked"
        [("offers", .whole offers), ("money", .whole money)]
  | .jokerBought id cost money =>
      .ofChoice "JokerBought"
        [("id", .string id), ("cost", .whole cost),
          ("money", .whole money)]
  | .jokerReplaced sold bought cost money =>
      .ofChoice "JokerReplaced"
        [("sold", .string sold), ("bought", .string bought),
          ("cost", .whole cost), ("money", .whole money)]
  | .jokerSold id value money =>
      .ofChoice "JokerSold"
        [("id", .string id), ("value", .whole value),
          ("money", .whole money)]

/- The event of a name and the stored form of its data. -/
def ofChoice?
    (name : String)
    (v : Json) : Option Event :=
  match name with
  | "RoundStarted" => do
      let fs ←
        v.fields? ["round", "target", "hands", "discards"]
      let round ← fs.required "round" Json.nat32?
      let target ← fs.required "target" Json.amount?
      let hands ← fs.required "hands" Json.nat8?
      let discards ← fs.required "discards" Json.nat8?
      return .roundStarted round target hands discards
  | "HandDealt" => do
      let fs ← v.fields? ["count"]
      let count ← fs.required "count" Json.nat64?
      return .handDealt count
  | "HandScored" => do
      let fs ← v.fields? ["hand", "chips", "mult", "total"]
      let hand ← fs.required "hand" Category.ofStored?
      let chips ← fs.required "chips" Json.amount?
      let mult ← fs.required "mult" Json.amount?
      let total ← fs.required "total" Json.amount?
      return .handScored hand chips mult total
  | "Discarded" => do
      let fs ← v.fields? ["count", "dollars"]
      let count ← fs.required "count" Json.nat64?
      let dollars ← fs.required "dollars" Json.amount?
      return .discarded count dollars
  | "RoundCleared" => do
      let fs ← v.fields? ["score", "reward", "money"]
      let score ← fs.required "score" Json.amount?
      let reward ← fs.required "reward" Json.amount?
      let money ← fs.required "money" Json.amount?
      return .roundCleared score reward money
  | "GameOver" => do
      let fs ← v.fields? ["score", "target"]
      let score ← fs.required "score" Json.amount?
      let target ← fs.required "target" Json.amount?
      return .gameOver score target
  | "ShopRestocked" => do
      let fs ← v.fields? ["offers", "money"]
      let offers ← fs.required "offers" Json.nat64?
      let money ← fs.required "money" Json.amount?
      return .shopRestocked offers money
  | "JokerBought" => do
      let fs ← v.fields? ["id", "cost", "money"]
      let id ← fs.required "id" Json.text?
      let cost ← fs.required "cost" Json.amount?
      let money ← fs.required "money" Json.amount?
      return .jokerBought id cost money
  | "JokerReplaced" => do
      let fs ← v.fields? ["sold", "bought", "cost", "money"]
      let sold ← fs.required "sold" Json.text?
      let bought ← fs.required "bought" Json.text?
      let cost ← fs.required "cost" Json.amount?
      let money ← fs.required "money" Json.amount?
      return .jokerReplaced sold bought cost money
  | "JokerSold" => do
      let fs ← v.fields? ["id", "value", "money"]
      let id ← fs.required "id" Json.text?
      let value ← fs.required "value" Json.amount?
      let money ← fs.required "money" Json.amount?
      return .jokerSold id value money
  | _ => none

/- The event of a stored form. -/
def ofStored?
    (v : Json) : Option Event := do
  let (name, v) ← v.choice?
  ofChoice? name v

end Event

------------------------------------------------------------
-- Areas
------------------------------------------------------------

namespace Area

variable {α : Type}

/- The stored form of an area, its items written by `item`. -/
def stored
    (item : α → Json)
    (a : Area α) : Json :=
  .object
    [("capacity", .whole a.capacity),
      ("items", .array (a.items.map item))]

/- The area of a stored form, its items read by `item?`. -/
def ofStored?
    (item? : Json → Option α)
    (v : Json) : Option (Area α) := do
  let fs ← v.fields? ["capacity", "items"]
  let capacity ← fs.required "capacity" Json.nat64?
  let items ← fs.required "items" (Json.list? item?)
  return ⟨capacity, items⟩

end Area

end JokerRun
