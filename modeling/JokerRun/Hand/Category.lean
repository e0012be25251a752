import JokerRun.Text.Key

/-
  The categories of played hands.

  Key definitions include:
    * `Category`
    * `Category.ofId?`
    * `Category.base`
-/

------------------------------------------------------------
-- Categories
------------------------------------------------------------

namespace JokerRun

/- What a played hand counts as. -/
inductive Category where
  | highCard
  | pair
  | twoPair
  | threeOfAKind
  | straight
  | flush
  | fullHouse
  | fourOfAKind
  | straightFlush
  | royalFlush
deriving DecidableEq, Repr

namespace Category

/- Every category, from the lowest to the highest. -/
def all : List Category :=
  [.highCard, .pair, .twoPair, .threeOfAKind, .straight,
    .flush, .fullHouse, .fourOfAKind, .straightFlush,
    .royalFlush]

/- The identifier of a category. -/
def id : Category → String
  | .highCard => "high_card"
  | .pair => "pair"
  | .twoPair => "two_pair"
  | .threeOfAKind => "three_of_a_kind"
  | .straight => "straight"
  | .flush => "flush"
  | .fullHouse => "full_house"
  | .fourOfAKind => "four_of_a_kind"
  | .straightFlush => "straight_flush"
  | .royalFlush => "royal_flush"

/- The name shown to players. -/
def title : Category → String
  | .highCard => "High Card"
  | .pair => "Pair"
  | .twoPair => "Two Pair"
  | .threeOfAKind => "3 of a Kind"
  | .straight => "Straight"
  | .flush => "Flush"
  | .fullHouse => "Full House"
  | .fourOfAKind => "4 of a Kind"
  | .straightFlush => "Straight Flush"
  | .royalFlush => "Royal Flush"

/- The category of an identifier key. -/
def ofId?
    (cs : List Char) : Option Category :=
  let key := String.ofList (Text.normalKey cs)
  all.find? fun c => c.id == key

------------------------------------------------------------
-- Base Values
------------------------------------------------------------

/- The chips and the mult that a category starts from. -/
structure Base where
  chips : Int
  mult : Int
deriving DecidableEq, Repr

/- The base values unless a rule sets others. -/
def base : Category → Base
  | .highCard => ⟨5, 1⟩
  | .pair => ⟨10, 2⟩
  | .twoPair => ⟨20, 2⟩
  | .threeOfAKind => ⟨30, 3⟩
  | .straight => ⟨30, 4⟩
  | .flush => ⟨35, 4⟩
  | .fullHouse => ⟨40, 4⟩
  | .fourOfAKind => ⟨60, 7⟩
  | .straightFlush => ⟨100, 8⟩
  | .royalFlush => ⟨100, 8⟩

end Category

end JokerRun
