import JokerRun.Run.Round
import JokerRun.Run.Trade

/-
  Every action that a run knows, as data.

  Key definitions include:
    * `Action`
    * `Reply`
    * `Run.perform`
    * `Run.performAll`
    * `Run.Reachable`
-/

------------------------------------------------------------
-- Actions And Replies
------------------------------------------------------------

namespace JokerRun

/- An action with its arguments. -/
inductive Action where
  | start
  | next
  | refill
  | toggle (index : Nat)
  | clearSelection
  | play
  | discard
  | buy (offer : Nat)
  | replace (slot : Nat)
  | cancelPurchase
  | reroll
  | sell (slot : Nat)
  | addJoker (id : String)
deriving DecidableEq, Repr

/- What a run answers to an action that it accepts. -/
inductive Reply where
  | done
  | selected (now : Bool)
  | played (s : PlaySummary)
  | discarded (s : DiscardSummary)
  | purchase (p : Purchase)
  | offers (n : Nat)
  | value (n : Int)
  | added (slot : Option Nat)
deriving DecidableEq, Repr

------------------------------------------------------------
-- Performing
------------------------------------------------------------

namespace Run

/- The turn of an action. -/
def perform
    (r : Run) : Action → Turn Reply
  | .start => r.startRound.map fun _ => .done
  | .next => r.nextRound.map fun _ => .done
  | .refill => r.refill.map fun _ => .done
  | .toggle i => (r.toggle i).map .selected
  | .clearSelection => .quiet r.clearSelection .done
  | .play => r.play.map .played
  | .discard => r.discard.map .discarded
  | .buy i => (r.buy i).map .purchase
  | .replace i => (r.replace i).map fun _ => .done
  | .cancelPurchase => .quiet r.cancelPurchase .done
  | .reroll => r.reroll.map .offers
  | .sell i => (r.sell i).map .value
  | .addJoker id =>
      let (slot, after) := r.addJoker id
      .quiet after (.added slot)

/- The run after actions in a row, accepted or not. -/
def performAll
    (r : Run) : List Action → Run
  | [] => r
  | a :: as => (r.perform a).run.performAll as

/- A run that some actions lead to from its beginning. -/
inductive Reachable : Run → Prop where
  | begin
      (rules : Rules)
      (chips : RankChips)
      (catalog : Catalog)
      (seed : UInt64) :
      Reachable (Run.begin rules chips catalog seed)
  | perform
      {r : Run}
      (a : Action)
      (hReachable : Reachable r) :
      Reachable (r.perform a).run

end Run

end JokerRun
