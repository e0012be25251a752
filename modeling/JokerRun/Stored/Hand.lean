import JokerRun.Hand.Classify
import JokerRun.Json.Field

/-
  The stored forms of categories and what belongs to them.

  Key definitions include:
    * `Category.stored` and `Category.ofStored?`
    * `HandRule.stored` and `HandRule.ofStored?`
    * `HandResult.stored` and `HandResult.ofStored?`
-/

------------------------------------------------------------
-- Categories
------------------------------------------------------------

namespace JokerRun

namespace Category

/- The name under which a category is stored. -/
def tag : Category → String
  | .highCard => "HighCard"
  | .pair => "Pair"
  | .twoPair => "TwoPair"
  | .threeOfAKind => "ThreeOfAKind"
  | .straight => "Straight"
  | .flush => "Flush"
  | .fullHouse => "FullHouse"
  | .fourOfAKind => "FourOfAKind"
  | .straightFlush => "StraightFlush"
  | .royalFlush => "RoyalFlush"

/- The stored form of a category. -/
def stored
    (c : Category) : Json :=
  .string c.tag

/- The category of a stored form. -/
def ofStored?
    (v : Json) : Option Category :=
  v.named? all tag

end Category

------------------------------------------------------------
-- Rules
------------------------------------------------------------

namespace HandRule

/- The stored form of a rule. -/
def stored
    (r : HandRule) : Json :=
  .object
    [("category", r.category.stored),
      ("base_chips", .whole r.chips),
      ("base_mult", .whole r.mult)]

/- The rule of a stored form. -/
def ofStored?
    (v : Json) : Option HandRule := do
  let fs ← v.fields? ["category", "base_chips", "base_mult"]
  let category ← fs.required "category" Category.ofStored?
  let chips ← fs.required "base_chips" Json.amount?
  let mult ← fs.required "base_mult" Json.amount?
  return ⟨category, chips, mult⟩

end HandRule

------------------------------------------------------------
-- Results
------------------------------------------------------------

namespace HandResult

/- The stored form of positions. -/
def storedIndices
    (is : List Nat) : Json :=
  .array (is.map fun (i : Nat) => .whole i)

/- The stored form of a result. -/
def stored
    (h : HandResult) : Json :=
  .object
    [("category", h.category.stored),
      ("base_chips", .whole h.chips),
      ("base_mult", .whole h.mult),
      ("scoring_indices", storedIndices h.scoringIndices)]

/- The result of a stored form. -/
def ofStored?
    (v : Json) : Option HandResult := do
  let fs ←
    v.fields?
      ["category", "base_chips", "base_mult",
        "scoring_indices"]
  let category ← fs.required "category" Category.ofStored?
  let chips ← fs.required "base_chips" Json.amount?
  let mult ← fs.required "base_mult" Json.amount?
  let indices ←
    fs.required "scoring_indices" (Json.list? Json.nat64?)
  return ⟨category, chips, mult, indices⟩

end HandResult

end JokerRun
