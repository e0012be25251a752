import JokerRun.Card.Basic
import JokerRun.Card.Chips
import JokerRun.Random.Generator

/-
  The draw pile.

  Cards enter at the end and leave from the end.  Each card
  that enters gets the next number, so that two cards of one
  suit and rank stay apart.

  Key definitions include:
    * `DrawPile`
    * `DrawPile.add`
    * `DrawPile.standard`
    * `DrawPile.draw`
-/

------------------------------------------------------------
-- The Pile
------------------------------------------------------------

namespace JokerRun

/- Cards to draw, the top one last. -/
structure DrawPile where
  cards : List Card
  nextId : Nat
deriving DecidableEq, Repr

namespace DrawPile

/- The largest number of a card. -/
def largestId : Nat :=
  4294967295

/- The pile without cards. -/
def empty : DrawPile :=
  ⟨[], 0⟩

/- The card that would enter next. -/
def nextCard
    (p : DrawPile)
    (suit : Suit)
    (rank : Rank)
    (chips : RankChips) : Card :=
  ⟨p.nextId, suit, rank, chips.chipsFor rank⟩

/- The pile with one more card on top. -/
def add
    (p : DrawPile)
    (suit : Suit)
    (rank : Rank)
    (chips : RankChips) : DrawPile :=
  ⟨p.cards ++ [p.nextCard suit rank chips],
    min (p.nextId + 1) largestId⟩

/- Every suit with every rank. -/
def faces : List (Suit × Rank) :=
  Suit.all.flatMap fun s => Rank.all.map fun r => (s, r)

/- The 52 cards, numbered from 1. -/
def standard
    (chips : RankChips) : DrawPile :=
  faces.foldl (fun p f => p.add f.1 f.2 chips) ⟨[], 1⟩

/- The notices that building the 52 cards leaves. -/
def standardNotices
    (chips : RankChips) : List Notice :=
  faces.flatMap fun f => chips.lookupNotices f.2

/- The pile in random order. -/
def shuffle
    (p : DrawPile)
    (g : Generator) : DrawPile × Generator :=
  let (cards, g) := g.shuffle p.cards
  ({ p with cards := cards }, g)

/-
  The given number of cards from the top, the top one first;
  fewer when the pile runs out.
-/
def draw
    (p : DrawPile)
    (n : Nat) : List Card × DrawPile :=
  let keep := p.cards.length - n
  ((p.cards.drop keep).reverse,
    { p with cards := p.cards.take keep })

/- The number of cards left. -/
def remaining
    (p : DrawPile) : Nat :=
  p.cards.length

/- Whether no card is left. -/
def isEmpty
    (p : DrawPile) : Bool :=
  p.cards.isEmpty

end DrawPile

end JokerRun
