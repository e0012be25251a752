import JokerRun.Card.Basic
import JokerRun.Json.Field

/-
  The stored forms of suits, ranks and cards.

  Key definitions include:
    * `Suit.stored` and `Suit.ofStored?`
    * `Rank.stored` and `Rank.ofStored?`
    * `Card.stored` and `Card.ofStored?`
-/

------------------------------------------------------------
-- Suits
------------------------------------------------------------

namespace JokerRun

namespace Suit

/- The stored form of a suit. -/
def stored
    (s : Suit) : Json :=
  .string s.name

/- The suit of a stored form. -/
def ofStored?
    (v : Json) : Option Suit :=
  v.named? all name

end Suit

------------------------------------------------------------
-- Ranks
------------------------------------------------------------

namespace Rank

/- The name under which a rank is stored. -/
def tag : Rank → String
  | .two => "Two"
  | .three => "Three"
  | .four => "Four"
  | .five => "Five"
  | .six => "Six"
  | .seven => "Seven"
  | .eight => "Eight"
  | .nine => "Nine"
  | .ten => "Ten"
  | .jack => "Jack"
  | .queen => "Queen"
  | .king => "King"
  | .ace => "Ace"

/- The stored form of a rank. -/
def stored
    (r : Rank) : Json :=
  .string r.tag

/- The rank of a stored form. -/
def ofStored?
    (v : Json) : Option Rank :=
  v.named? all tag

end Rank

------------------------------------------------------------
-- Cards
------------------------------------------------------------

namespace Card

/- The stored form of a card. -/
def stored
    (c : Card) : Json :=
  .object
    [("id", .whole c.id), ("suit", c.suit.stored),
      ("rank", c.rank.stored), ("base_chips", .whole c.chips)]

/- The card of a stored form; its number may be absent. -/
def ofStored?
    (v : Json) : Option Card := do
  let fs ← v.fields? ["id", "suit", "rank", "base_chips"]
  let id ← fs.optional "id" 0 Json.nat32?
  let suit ← fs.required "suit" Suit.ofStored?
  let rank ← fs.required "rank" Rank.ofStored?
  let chips ← fs.required "base_chips" Json.amount?
  return ⟨id, suit, rank, chips⟩

end Card

end JokerRun
