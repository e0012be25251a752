import JokerRun.Text.Key

/-
  The four suits.

  Key definitions include:
    * `Suit`
    * `Suit.ofKey?`
-/

------------------------------------------------------------
-- Suits
------------------------------------------------------------

namespace JokerRun

/- A suit. -/
inductive Suit where
  | spades
  | hearts
  | clubs
  | diamonds
deriving DecidableEq, Repr

namespace Suit

/- Every suit, in deck order. -/
def all : List Suit :=
  [.spades, .hearts, .clubs, .diamonds]

/- The name of a suit. -/
def name : Suit → String
  | .spades => "Spades"
  | .hearts => "Hearts"
  | .clubs => "Clubs"
  | .diamonds => "Diamonds"

/- The symbol of a suit. -/
def symbol : Suit → Char
  | .spades => '♠'
  | .hearts => '♥'
  | .clubs => '♣'
  | .diamonds => '♦'

------------------------------------------------------------
-- Keys
------------------------------------------------------------

/- The keys of a suit in normal form. -/
def keys : Suit → List String
  | .spades => ["spades", "spade", "s", "♠"]
  | .hearts => ["hearts", "heart", "h", "♥"]
  | .clubs => ["clubs", "club", "c", "♣"]
  | .diamonds => ["diamonds", "diamond", "d", "♦"]

/- The suit that a key names. -/
def ofKey?
    (cs : List Char) : Option Suit :=
  let key := String.ofList (Text.normalKey cs)
  all.find? fun s => s.keys.contains key

end Suit

end JokerRun
