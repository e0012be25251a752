import JokerRun.Run.Basic
import JokerRun.Stored.Score
import JokerRun.Json.Writer
import JokerRun.Text.Column

/-
  What players see: lines of text.

  Key definitions include:
    * `Screen.usage`
    * `Screen.help`
    * `Screen.hand`
    * `Screen.status`
    * `Screen.jokers`
    * `Screen.shop`
    * `Screen.score`
    * `Event.line`
-/

------------------------------------------------------------
-- Texts
------------------------------------------------------------

namespace JokerRun

namespace Screen

/- How the program is called. -/
def usage : List String :=
  ["usage:",
    "  jester-cli score \"10D JD QD KD AD\" [--held \"QH QS\"] [--jokers id,id] [--assets DIR] [--json]",
    "  jester-cli run [--seed N] [--assets DIR]",
    "options:",
    "  -v, --verbose   debug logging on stderr"]

/- The commands of a run. -/
def help : List String :=
  ["commands:",
    "  hand | status | jokers | shop | help | quit",
    "  sel <i..>       toggle cards in the selection",
    "  play [i..]      play the selection (or the given cards)",
    "  discard [i..]   discard the selection (or the given cards)",
    "  buy <i> | replace <slot> | cancel | reroll | sell <slot> | next"]

------------------------------------------------------------
-- Cards
------------------------------------------------------------

/- A star before what is chosen. -/
def mark
    (chosen : Bool) : String :=
  if chosen then "*" else " "

/- The line of a card in the hand. -/
def cardLine
    (selection : List Nat)
    (i : Nat)
    (c : Card) : String :=
  mark (selection.contains i) ++
    Text.padLeft 3 (toString i) ++ "  " ++
    Text.padRight 4 c.text ++ " " ++
    Text.padLeft 3 (toString c.chips) ++ " chips"

/- The hand, card by card. -/
def hand
    (r : Run) : List String :=
  s!"== Hand == ({r.hand.size} cards, {r.pile.remaining} in deck)" ::
    r.hand.items.zipIdx.map fun (c, i) =>
      cardLine r.selection i c

------------------------------------------------------------
-- Progress
------------------------------------------------------------

/- Where the run stands. -/
def status
    (r : Run) : List String :=
  let p := r.progress
  [s!"round {p.round} | {p.phase.word} | score {p.score}/{p.target}" ++
    s!" | hands {p.handsLeft} | discards {p.discardsLeft}" ++
    s!" | ${p.money} | seed {r.generator.seed}"]

------------------------------------------------------------
-- Jokers
------------------------------------------------------------

/- The line of an owned joker. -/
def jokerLine
    (i : Nat)
    (a : Ability) : String :=
  Text.padLeft 4 (toString i) ++ "  " ++
    Text.padRight 18 a.name ++ " sell $" ++
    Text.padRight 3 (toString a.sellValue) ++ " " ++
    a.description

/- The jokers on the board. -/
def jokers
    (r : Run) : List String :=
  s!"== Jokers == ({r.jokers.size}/{r.jokers.capacity})" ::
    r.jokers.items.zipIdx.map fun (a, i) => jokerLine i a

/- The line of an offer. -/
def offerLine
    (pending : Option Nat)
    (i : Nat)
    (a : Ability) : String :=
  mark (pending == some i) ++
    Text.padLeft 3 (toString i) ++ "  " ++
    Text.padRight 18 a.name ++ " $" ++
    Text.padRight 3 (toString a.cost) ++ " " ++
    a.description

/- The offers of the shop, when it is open. -/
def shop
    (r : Run) : List String :=
  if r.phase ≠ .shop then
    ["shop is closed"]
  else
    s!"== Shop == (${r.progress.money}, reroll ${r.shop.rerollCost})" ::
      r.shop.offers.items.zipIdx.map fun (a, i) =>
        offerLine r.shop.pending i a

------------------------------------------------------------
-- Scores
------------------------------------------------------------

/- A line of a log. -/
def logLine
    (line : String) : String :=
  "  " ++ line

/- The scoring cards of a played hand. -/
def scoringTexts
    (s : PlaySummary)
    (played : List Card) : List String :=
  (s.hand.scoringCards played).map Card.text

/- The result of a played hand. -/
def score
    (s : PlaySummary)
    (played : List Card) : List String :=
  let cards := String.intercalate " " (scoringTexts s played)
  s!"{s.hand.category.title} [{cards}]" ::
    s.log.map logLine ++ [s!"score: {s.score}"]

/- The result of a played hand as stored data. -/
def storedScore
    (s : PlaySummary)
    (played : List Card) : String :=
  Json.opened
    (.object
      (("category", .string s.hand.category.title) ::
        ("scoring_cards",
          .ofLines (scoringTexts s played)) ::
        s.storedFields))

end Screen

------------------------------------------------------------
-- Events
------------------------------------------------------------

/- The line of an event. -/
def Event.line : Event → String
  | .roundStarted round target hands discards =>
      s!"round {round} started: target {target}, {hands} hands, {discards} discards"
  | .handDealt count => s!"dealt {count} cards"
  | .handScored hand chips mult total =>
      s!"{hand.title} scored {chips} x {mult} = {total}"
  | .discarded count dollars =>
      s!"discarded {count} cards (+${dollars})"
  | .roundCleared score reward money =>
      s!"round cleared with {score}: +${reward} (${money})"
  | .gameOver score target =>
      s!"game over: {score} of {target}"
  | .shopRestocked offers money =>
      s!"shop stocked with {offers} offers (${money})"
  | .jokerBought id cost money =>
      s!"bought {id} for ${cost} (${money})"
  | .jokerReplaced sold bought cost money =>
      s!"replaced {sold} with {bought} for ${cost} (${money})"
  | .jokerSold id value money =>
      s!"sold {id} for ${value} (${money})"

/- The lines of events. -/
def Screen.events
    (es : List Event) : List String :=
  es.map fun e => "> " ++ e.line

end JokerRun
