import JokerRun.DrawPile
import JokerRun.Scoring.Discard
import JokerRun.Shop

/-
  Runs: the state of a game and what an action leaves.

  Key definitions include:
    * `RunPhase`
    * `Progress`
    * `Run`
    * `Run.begin`
    * `RunError`
    * `Event`
    * `Turn`
-/

------------------------------------------------------------
-- Progress
------------------------------------------------------------

namespace JokerRun

/- The stage that a run is in. -/
inductive RunPhase where
  | setup
  | play
  | shop
  | gameOver
deriving DecidableEq, Repr

namespace RunPhase

/- The name of a phase. -/
def name : RunPhase → String
  | .setup => "Setup"
  | .play => "Play"
  | .shop => "Shop"
  | .gameOver => "GameOver"

/- The word that players see for a phase. -/
def word : RunPhase → String
  | .setup => "setup"
  | .play => "play"
  | .shop => "shop"
  | .gameOver => "over"

end RunPhase

/- How far a run has come. -/
structure Progress where
  phase : RunPhase
  round : Nat
  score : Int
  target : Int
  handsLeft : Nat
  discardsLeft : Nat
  money : Int
deriving DecidableEq, Repr

/- The progress of a run before its first round. -/
def Progress.initial
    (rules : RunRules) : Progress where
  phase := .setup
  round := 1
  score := 0
  target := rules.startingTarget
  handsLeft := rules.handsPerRound
  discardsLeft := rules.discardsPerRound
  money := rules.startingMoney

------------------------------------------------------------
-- Runs
------------------------------------------------------------

/- A run: what it is played with, and where it stands. -/
structure Run where
  rules : Rules
  chips : RankChips
  catalog : Catalog
  generator : Generator
  pile : DrawPile
  hand : Area Card
  jokers : Area Ability
  shop : Shop
  /- Positions in the hand, ascending. -/
  selection : List Nat
  progress : Progress

namespace Run

/- A run before its first round. -/
def begin
    (rules : Rules)
    (chips : RankChips)
    (catalog : Catalog)
    (seed : UInt64) : Run where
  rules := rules
  chips := chips
  catalog := catalog
  generator := Generator.ofSeed seed
  pile := DrawPile.empty
  hand := Area.ofCapacity rules.run.handSize
  jokers := Area.ofCapacity rules.run.jokerSlots
  shop := Shop.ofRules rules.run
  selection := []
  progress := Progress.initial rules.run

/- The phase that the run is in. -/
def phase
    (r : Run) : RunPhase :=
  r.progress.phase

/- The selected cards, in the order of the selection. -/
def selectedCards
    (r : Run) : List Card :=
  r.selection.filterMap r.hand.get?

/- The cards of the hand that are not selected. -/
def unselectedCards
    (r : Run) : List Card :=
  Area.others r.selection r.hand.items

/- The run with nothing selected. -/
def clearSelection
    (r : Run) : Run :=
  { r with selection := [] }

/- The run with no offer waiting. -/
def cancelPurchase
    (r : Run) : Run :=
  { r with shop := r.shop.cancel }

end Run

------------------------------------------------------------
-- Refusals
------------------------------------------------------------

/- Why a run refuses an action. -/
inductive RunError where
  | invalidPhase (phase : RunPhase)
  | noHandsLeft
  | noDiscardsLeft
  | emptySelection
  | selectionFull (limit : Nat)
  | invalidCardIndex (index : Nat)
  | invalidJokerIndex (index : Nat)
  | shop (e : ShopError)
  | area (e : AreaError)
deriving DecidableEq, Repr

/- The wording of a refusal. -/
def RunError.message : RunError → String
  | .invalidPhase p => s!"invalid phase: {p.name}"
  | .noHandsLeft => "no hands left"
  | .noDiscardsLeft => "no discards left"
  | .emptySelection => "no cards selected"
  | .selectionFull n => s!"cannot select more than {n} cards"
  | .invalidCardIndex i => s!"invalid card index {i}"
  | .invalidJokerIndex i => s!"invalid joker index {i}"
  | .shop e => s!"shop error: {e.message}"
  | .area e => s!"area error: {e.message}"

------------------------------------------------------------
-- Events
------------------------------------------------------------

/- What a run announces. -/
inductive Event where
  | roundStarted
      (round : Nat)
      (target : Int)
      (hands discards : Nat)
  | handDealt (count : Nat)
  | handScored
      (hand : Category)
      (chips mult total : Int)
  | discarded (count : Nat) (dollars : Int)
  | roundCleared (score reward money : Int)
  | gameOver (score target : Int)
  | shopRestocked (offers : Nat) (money : Int)
  | jokerBought (id : String) (cost money : Int)
  | jokerReplaced
      (sold bought : String)
      (cost money : Int)
  | jokerSold (id : String) (value money : Int)
deriving DecidableEq, Repr

------------------------------------------------------------
-- Turns
------------------------------------------------------------

/-
  What an action leaves: its answer, the run after it, and
  what it announced and noted on the way.
-/
structure Turn (α : Type) where
  answer : Except RunError α
  run : Run
  events : List Event
  notices : List Notice

namespace Turn

variable {α β : Type}

/- A refusal that leaves the run alone. -/
def refuse
    (r : Run)
    (e : RunError) : Turn α :=
  ⟨.error e, r, [], []⟩

/- An answer that announces nothing. -/
def quiet
    (r : Run)
    (a : α) : Turn α :=
  ⟨.ok a, r, [], []⟩

/- The turn with another answer. -/
def map
    (f : α → β)
    (t : Turn α) : Turn β :=
  { t with answer := t.answer.map f }

end Turn

end JokerRun
