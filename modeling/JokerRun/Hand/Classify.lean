import JokerRun.Card.Basic
import JokerRun.Positions
import JokerRun.Rules

/-
  The classification of played cards.

  A hand's category depends on how often its ranks occur, on
  its suits and on the order of its ranks.  The cards that
  score are those that make the category.

  Key definitions include:
    * `HandResult`
    * `Hand.category`
    * `Hand.scoringIndices`
    * `Hand.classify`
-/

------------------------------------------------------------
-- Results
------------------------------------------------------------

namespace JokerRun

/- A category with its base values and scoring positions. -/
structure HandResult where
  category : Category
  chips : Int
  mult : Int
  scoringIndices : List Nat
deriving DecidableEq, Repr

/- The cards at the scoring positions. -/
def HandResult.scoringCards
    (h : HandResult)
    (cards : List Card) : List Card :=
  h.scoringIndices.filterMap fun i => cards[i]?

namespace Hand

------------------------------------------------------------
-- Ranks And Suits
------------------------------------------------------------

/- How many cards have a rank. -/
def rankCount
    (cards : List Card)
    (r : Rank) : Nat :=
  cards.countP fun c => c.rank == r

/- How many ranks occur a given number of times. -/
def groups
    (cards : List Card)
    (n : Nat) : Nat :=
  Rank.all.countP fun r => rankCount cards r == n

/- How many suits occur. -/
def suitCount
    (cards : List Card) : Nat :=
  Suit.all.countP fun s => cards.any fun c => c.suit == s

/- Five cards of one suit. -/
def isFlush
    (cards : List Card) : Bool :=
  cards.length == 5 && suitCount cards == 1

/- The places of the ranks, ascending. -/
def places
    (cards : List Card) : List Nat :=
  Positions.sort (cards.map fun c => c.rank.value)

/- Each number is one more than the number before it. -/
def ascendsByOne : List Nat → Bool
  | [] => true
  | [_] => true
  | a :: b :: r => b == a + 1 && ascendsByOne (b :: r)

/- Five ranks in a row; the ace may stand below the two. -/
def isStraight
    (cards : List Card) : Bool :=
  cards.length == 5 &&
    (places cards == [2, 3, 4, 5, 14] ||
      ascendsByOne (places cards))

/- The lowest rank is the ten and the highest the ace. -/
def isRoyal
    (cards : List Card) : Bool :=
  (places cards).head? == some Rank.ten.value &&
    (places cards).getLast? == some Rank.ace.value

------------------------------------------------------------
-- Categories
------------------------------------------------------------

/- The category of some cards. -/
def category
    (cards : List Card) : Category :=
  let flush := isFlush cards
  let straight := isStraight cards
  let pairs := groups cards 2
  let threes := groups cards 3
  let fours := groups cards 4
  if straight && flush then
    if isRoyal cards then .royalFlush else .straightFlush
  else if 0 < fours then .fourOfAKind
  else if 0 < threes ∧ 0 < pairs then .fullHouse
  else if flush then .flush
  else if straight then .straight
  else if 0 < threes then .threeOfAKind
  else if 2 ≤ pairs then .twoPair
  else if pairs = 1 then .pair
  else .highCard

------------------------------------------------------------
-- Scoring Positions
------------------------------------------------------------

/- The positions of the cards that satisfy a test. -/
def indicesWhere
    (p : Card → Bool)
    (cards : List Card) : List Nat :=
  (cards.zipIdx.filter fun x => p x.1).map Prod.snd

/- The positions of ranks that occur a number of times. -/
def indicesOfGroups
    (cards : List Card)
    (n : Nat) : List Nat :=
  indicesWhere (fun c => rankCount cards c.rank == n) cards

/- Whether no card has a higher rank. -/
def isHighest
    (cards : List Card)
    (c : Card) : Bool :=
  cards.all fun d => decide (d.rank.value ≤ c.rank.value)

/- The positions that score in a category. -/
def scoringIndices
    (cards : List Card) : Category → List Nat
  | .fourOfAKind => indicesOfGroups cards 4
  | .threeOfAKind => indicesOfGroups cards 3
  | .twoPair => indicesOfGroups cards 2
  | .pair => indicesOfGroups cards 2
  | .highCard =>
      (indicesWhere (isHighest cards) cards).take 1
  | .straight => List.range cards.length
  | .flush => List.range cards.length
  | .fullHouse => List.range cards.length
  | .straightFlush => List.range cards.length
  | .royalFlush => List.range cards.length

------------------------------------------------------------
-- Classification
------------------------------------------------------------

/- The result of playing some cards under rules. -/
def classify
    (rules : List HandRule)
    (cards : List Card) : HandResult :=
  match cards with
  | [] => ⟨.highCard, 0, 0, []⟩
  | _ :: _ =>
      let c := category cards
      let b := c.baseUnder rules
      ⟨c, b.chips, b.mult, scoringIndices cards c⟩

end Hand

end JokerRun
