import JokerRun.Card.Suit
import JokerRun.Card.Rank

/-
  Playing cards.

  Key definitions include:
    * `Card`
    * `Card.text`
    * `Card.ofNotation?`
-/

------------------------------------------------------------
-- Cards
------------------------------------------------------------

namespace JokerRun

/-
  A card of the deck: its number tells apart two cards of
  one suit and rank.
-/
structure Card where
  id : Nat
  suit : Suit
  rank : Rank
  chips : Int
deriving DecidableEq, Repr

namespace Card

/- The written card: rank and suit symbol. -/
def text
    (c : Card) : String :=
  c.rank.short ++ String.singleton c.suit.symbol

------------------------------------------------------------
-- Notation
------------------------------------------------------------

/-
  The suit and rank of a written card: the last character
  is the suit's key and what stands before it the rank's.
-/
def ofNotation?
    (cs : List Char) : Option (Suit × Rank) :=
  match (Text.trim cs).reverse with
  | [] => none
  | [_] => none
  | s :: r :: rs =>
      match Suit.ofKey? [s], Rank.ofKey? (r :: rs).reverse with
      | some suit, some rank => some (suit, rank)
      | _, _ => none

end Card

end JokerRun
