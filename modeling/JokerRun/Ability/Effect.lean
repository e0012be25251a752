import JokerRun.Binary64.Layout
import JokerRun.Binary64.Reading
import JokerRun.Card.Basic

/-
  Effects of jokers and what they yield.

  An effect acts in one phase.  What it yields depends on
  its own parameters, on the card at hand and on the number
  of jokers on the board.

  Key definitions include:
    * `Phase`
    * `Effect`
    * `Outcome`
    * `Moment`
    * `Effect.outcome?`
-/

------------------------------------------------------------
-- Phases And Effects
------------------------------------------------------------

namespace JokerRun

/- When an effect acts. -/
inductive Phase where
  /- Once for each scoring card. -/
  | individual
  /- Once for each held card that does not score. -/
  | heldInHand
  /- Once for each joker, after the cards. -/
  | global
  /- Once for each discarded card. -/
  | discard
deriving DecidableEq, Repr

/- What a joker does. -/
inductive Effect where
  | flatMult (amount : Int)
  | suitConditionalMult (amount : Int) (suit : Suit)
  | countScaledMult (perUnit : Int)
  | discardRankRebate (dollars : Int) (rank : Rank)
  | flatChips (amount : Int)
  | multFactor (factor : Binary64)
  | heldRankMult (amount : Int) (rank : Rank)
deriving DecidableEq, Repr

/- The phase in which an effect acts. -/
def Effect.phase : Effect → Phase
  | .flatMult _ => .global
  | .suitConditionalMult _ _ => .individual
  | .countScaledMult _ => .global
  | .discardRankRebate _ _ => .discard
  | .flatChips _ => .global
  | .multFactor _ => .global
  | .heldRankMult _ _ => .heldInHand

------------------------------------------------------------
-- Outcomes
------------------------------------------------------------

/- What one effect yields at one moment. -/
structure Outcome where
  chips : Int
  mult : Int
  factor : Binary64
  dollars : Int
  message : String
deriving DecidableEq, Repr

namespace Outcome

/- The outcome that changes nothing. -/
def silent
    (message : String) : Outcome :=
  ⟨0, 0, Binary64.ofInt 1, 0, message⟩

/- An outcome of added mult. -/
def ofMult
    (amount : Int)
    (message : String) : Outcome :=
  { silent message with mult := amount }

/- An outcome of added chips. -/
def ofChips
    (amount : Int)
    (message : String) : Outcome :=
  { silent message with chips := amount }

/- An outcome of multiplied mult. -/
def ofFactor
    (factor : Binary64)
    (message : String) : Outcome :=
  { silent message with factor := factor }

/- An outcome of earned money. -/
def ofDollars
    (amount : Int)
    (message : String) : Outcome :=
  { silent message with dollars := amount }

/- Whether the outcome multiplies. -/
def hasFactor
    (o : Outcome) : Bool :=
  o.factor.exceedsOne

end Outcome

------------------------------------------------------------
-- Evaluation
------------------------------------------------------------

/- What an effect sees: phase, card at hand, board size. -/
structure Moment where
  phase : Phase
  card : Option Card
  jokers : Nat
deriving DecidableEq, Repr

namespace Effect

/- What the effect says about a card, if it applies. -/
def onCard?
    (m : Moment)
    (applies : Card → Bool)
    (o : Outcome) : Option Outcome :=
  match m.card with
  | none => none
  | some c => if applies c then some o else none

/- What an effect yields at a moment of its phase. -/
def yield?
    (m : Moment) : Effect → Option Outcome
  | .flatMult a =>
      some (.ofMult a s!"+{a} Mult")
  | .suitConditionalMult a suit =>
      onCard? m (fun c => c.suit == suit)
        (.ofMult a s!"+{a} Mult ({suit.name})")
  | .countScaledMult a =>
      let total := Amount.mul a (m.jokers : Int)
      some (.ofMult total
        s!"+{total} Mult ({m.jokers} Jokers)")
  | .discardRankRebate d rank =>
      onCard? m (fun c => c.rank == rank)
        (.ofDollars d s!"+${d}")
  | .flatChips a =>
      some (.ofChips a s!"+{a} Chips")
  | .multFactor f =>
      some (.ofFactor f s!"X{f.plain} Mult")
  | .heldRankMult a rank =>
      onCard? m (fun c => c.rank == rank)
        (.ofMult a s!"+{a} Mult ({rank.name} held)")

/- What an effect yields at a moment, if it acts there. -/
def outcome?
    (m : Moment)
    (e : Effect) : Option Outcome :=
  if m.phase = e.phase then e.yield? m else none

end Effect

end JokerRun
