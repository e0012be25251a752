import JokerRun.Ability.Basic
import JokerRun.Hand.Classify

/-
  The score of a played hand.

  A tally starts from the base values and the chips of the
  scoring cards.  Then the jokers act in board order: on
  each scoring card, on each held card that does not score,
  and once each for the whole hand.

  Key definitions include:
    * `PlaySummary`
    * `Tally`
    * `Tally.apply`
    * `Scoring.play`
-/

------------------------------------------------------------
-- Tallies
------------------------------------------------------------

namespace JokerRun

/- The result of a played hand. -/
structure PlaySummary where
  hand : HandResult
  chips : Int
  mult : Int
  score : Int
  log : List String
deriving DecidableEq, Repr

/- Chips and mult so far, with the lines written so far. -/
structure Tally where
  chips : Int
  mult : Int
  log : List String
deriving DecidableEq, Repr

namespace Tally

/- The tally with one more line. -/
def write
    (t : Tally)
    (line : String) : Tally :=
  { t with log := t.log ++ [line] }

/- A sum in which only gains count. -/
def gain
    (a b : Int) : Int :=
  if 0 < b then Amount.add a b else a

/-
  The tally after an outcome of a joker: gains first, then
  the factor if there is one, and a line in any case.
-/
def apply
    (t : Tally)
    (title : String)
    (owner : Ability)
    (o : Outcome) : Tally :=
  let chips := gain t.chips o.chips
  let mult := gain t.mult o.mult
  if o.hasFactor then
    Tally.write
      ⟨chips, Binary64.scale mult o.factor, t.log⟩
      s!"{title} ({owner.name}): X{o.factor.plain}"
  else
    Tally.write
      ⟨chips, mult, t.log⟩
      s!"{title} ({owner.name}): {o.message}"

/- The tally after a joker's moment, if it does anything. -/
def trigger
    (t : Tally)
    (title : String)
    (m : Moment)
    (owner : Ability) : Tally :=
  match owner.outcome? m with
  | none => t
  | some o => t.apply title owner o

/- The tally after every joker's moment, in board order. -/
def pass
    (t : Tally)
    (title : String)
    (phase : Phase)
    (card : Option Card)
    (board : List Ability) : Tally :=
  board.foldl
    (fun t a =>
      t.trigger title ⟨phase, card, board.length⟩ a)
    t

end Tally

------------------------------------------------------------
-- Playing
------------------------------------------------------------

namespace Scoring

/- The tally before any joker acts. -/
def opening
    (hand : HandResult)
    (scoring : List Card) : Tally :=
  ⟨scoring.foldl (fun n c => Amount.add n c.chips) hand.chips,
    hand.mult,
    [s!"Base: {hand.chips} x {hand.mult}"]⟩

/- The held cards that are no scoring card. -/
def idleHeld
    (scoring held : List Card) : List Card :=
  held.filter fun c => !scoring.contains c

/- The tally after a pass for each of some cards. -/
def passCards
    (title : String)
    (phase : Phase)
    (board : List Ability)
    (cards : List Card)
    (t : Tally) : Tally :=
  cards.foldl
    (fun t c => t.pass title phase (some c) board)
    t

/- The tally after all jokers have acted. -/
def tally
    (hand : HandResult)
    (scoring held : List Card)
    (board : List Ability) : Tally :=
  let t := opening hand scoring
  let t := passCards "Joker" .individual board scoring t
  let t :=
    passCards "Held" .heldInHand board
      (idleHeld scoring held) t
  t.pass "Global" .global none board

/- The result of playing cards while others are held. -/
def play
    (rules : List HandRule)
    (selected held : List Card)
    (board : List Ability) : PlaySummary :=
  let hand := Hand.classify rules selected
  let scoring := hand.scoringCards selected
  let t := tally hand scoring held board
  let score := Amount.mul t.chips t.mult
  let line := s!"Final: {t.chips} x {t.mult} = {score}"
  ⟨hand, t.chips, t.mult, score, (t.write line).log⟩

end Scoring

end JokerRun
