import JokerRun.Scoring.Play

/-
  The result of a discard.

  Key definitions include:
    * `DiscardSummary`
    * `Scoring.discard`
-/

------------------------------------------------------------
-- Discarding
------------------------------------------------------------

namespace JokerRun

/- What discarded cards bring. -/
structure DiscardSummary where
  dollars : Int
  chips : Int
  mult : Int
  log : List String
deriving DecidableEq, Repr

namespace DiscardSummary

/- The summary before any joker acts. -/
def empty : DiscardSummary :=
  ⟨0, 0, 0, []⟩

/- The line that earned money leaves. -/
def lines
    (owner : Ability)
    (o : Outcome) : List String :=
  if 0 < o.dollars then
    [s!"Discard ({owner.name}): +${o.dollars}"]
  else
    []

/- The summary after an outcome of a joker. -/
def apply
    (s : DiscardSummary)
    (owner : Ability)
    (o : Outcome) : DiscardSummary :=
  ⟨Tally.gain s.dollars o.dollars,
    Tally.gain s.chips o.chips,
    Tally.gain s.mult o.mult,
    s.log ++ lines owner o⟩

/- The summary after a joker's moment. -/
def trigger
    (s : DiscardSummary)
    (m : Moment)
    (owner : Ability) : DiscardSummary :=
  match owner.outcome? m with
  | none => s
  | some o => s.apply owner o

end DiscardSummary

namespace Scoring

/- The result of discarding cards. -/
def discard
    (cards : List Card)
    (board : List Ability) : DiscardSummary :=
  cards.foldl
    (fun s c =>
      board.foldl
        (fun s a =>
          s.trigger ⟨.discard, some c, board.length⟩ a)
        s)
    .empty

end Scoring

end JokerRun
