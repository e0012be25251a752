import JokerRun.Proofs.Run.Limits
import JokerRun.Proofs.Run.Pending

/-
  Two runs of one seed meet the same fortune.

  Chance is used when a round starts, when a play clears a
  round and when offers are renewed.  What it reveals then
  depends on the rules, the chips, the catalog and the
  generator alone, and nothing else moves the generator.  So
  runs that use chance alike see the same cards and offers,
  whatever else is done in them.

  Key definitions include:
    * `Chance`
    * `Chance.draw`
    * `Run.chances`

  Key theorems include:
    * `Run.drawn_step`
    * `Run.drawAll_chances`
    * `Run.same_fortune`
-/

------------------------------------------------------------
-- Uses Of Chance
------------------------------------------------------------

namespace JokerRun

/- What chance is used for. -/
inductive Chance where
  | roundStart
  | roundClear
  | reroll
deriving DecidableEq, Repr

/- What a use of chance shows. -/
inductive Reveal where
  | cards (hand pile : List Card)
  | offers (jokers : List Ability)
deriving DecidableEq, Repr

namespace Chance

/-
  What a use of chance shows on the run right after it: the
  hand and the pile in their order, or the offers.
-/
def reveal
    (after : Run) : Chance → Reveal
  | .roundStart =>
      .cards after.hand.items after.pile.cards
  | .roundClear => .offers after.shop.offers.items
  | .reroll => .offers after.shop.offers.items

section

variable (rules : RunRules)
variable (chips : RankChips)
variable (catalog : Catalog)

/- A shuffled pile and the first hand drawn from it. -/
def deal
    (g : Generator) : Reveal × Generator :=
  let shuffled := (DrawPile.standard chips).shuffle g
  let drawn := shuffled.1.draw rules.handSize
  (.cards drawn.1 drawn.2.cards, shuffled.2)

/- New offers for the slots of the shop. -/
def stock
    (g : Generator) : Reveal × Generator :=
  let stocked := Shop.stock catalog rules.shopSlots g
  (.offers stocked.1.items, stocked.2)

/- What a use of chance shows, and the generator after it. -/
def draw
    (g : Generator) : Chance → Reveal × Generator
  | .roundStart => deal rules chips g
  | .roundClear => stock rules catalog g
  | .reroll => stock rules catalog g

/- Uses of chance in a row, with what each of them shows. -/
def drawAll
    (g : Generator) :
    List Chance → List (Chance × Reveal) × Generator
  | [] => ([], g)
  | c :: cs =>
      let drawn := draw rules chips catalog g c
      let rest := drawAll drawn.2 cs
      ((c, drawn.1) :: rest.1, rest.2)

end

end Chance

namespace Run

/-
  The use of chance by an action that is answered so and
  leaves the given run.
-/
def chance?
    (a : Action)
    (after : Run) : Except RunError Reply → Option Chance
  | .error _ => none
  | .ok _ =>
      match a with
      | .start => some .roundStart
      | .next => some .roundStart
      | .play =>
          if after.phase = .shop then
            some .roundClear
          else
            none
      | .reroll => some .reroll
      | _ => none

/- The uses of chance by actions, with what they show. -/
def chances
    (r : Run) : List Action → List (Chance × Reveal)
  | [] => []
  | a :: as =>
      let after := (r.perform a).run
      match chance? a after (r.perform a).answer with
      | none => after.chances as
      | some c => (c, c.reveal after) :: after.chances as

------------------------------------------------------------
-- One Action
------------------------------------------------------------

/-
  From one run to another the generator rests, or it moves
  and shows what the use of chance draws.
-/
def Drawn
    (r r' : Run) : Option Chance → Prop
  | none => r'.generator = r.generator
  | some c =>
      c.draw r.rules.run r.chips r.catalog r.generator =
        (c.reveal r', r'.generator)

/- A round starts with cards drawn from a fresh pile. -/
theorem drawn_deal
    {r : Run}
    (hLimits : r.WithinLimits) :
    Drawn r r.deal.refill.run (some .roundStart) := by
  have hSlots :
      r.hand.clear.freeSlots = r.rules.run.handSize :=
    hLimits.hand.capacity
  unfold Drawn Chance.draw Chance.deal Chance.reveal
  rw [refill_run]
  unfold refilling
  rw [deal_eq, ← hSlots]
  simp only [Area.items_clear, List.nil_append]

/- A restocked shop shows offers drawn for its slots. -/
theorem stock_eq_restock
    {r : Run}
    (hLimits : r.WithinLimits) :
    Chance.stock r.rules.run r.catalog r.generator =
      (.offers
          (r.shop.restock r.catalog
            r.generator).1.offers.items,
        (r.shop.restock r.catalog r.generator).2) := by
  rw [Shop.restock_eq, hLimits.offers.capacity]
  rfl

/- A cleared round shows new offers. -/
theorem drawn_clearRound
    {r : Run}
    (hLimits : r.WithinLimits) :
    Drawn r r.clearRound.run (some .roundClear) := by
  rw [clearRound_run]
  exact stock_eq_restock hLimits

/- However an action ends, chance is used as said. -/
theorem drawn_step
    {r r' : Run}
    {a : Action}
    {answer : Except RunError Reply}
    {events : List Event}
    (hLimits : r.WithinLimits)
    (hStep : Step r a answer r' events) :
    Drawn r r' (chance? a r' answer) := by
  cases hStep with
  | started | nextStarted => exact drawn_deal hLimits
  | refused | refilled | unselected | selected
  | selectionCleared | discarded | waiting | bought
  | replaced | purchaseCancelled | sold | added
  | notAdded => rfl
  | played hMay =>
      have hPhase :
          r.scoredRun.refill.run.phase ≠ .shop := by
        change r.phase ≠ .shop
        rw [hMay.phase]
        exact RunPhase.noConfusion
      unfold chance?
      simp only [hPhase, if_false]
      rfl
  | lost => rfl
  | won =>
      have hPhase :
          r.scoredRun.refill.run.clearRound.run.phase =
            .shop := by
        rw [clearRound_run, phase]
      have hCleared :=
        drawn_clearRound (withinLimits_refill
          (withinLimits_scoredRun hLimits))
      unfold chance?
      simp only [hPhase, if_true]
      exact hCleared
  | rerolled => exact stock_eq_restock hLimits

------------------------------------------------------------
-- Whole Runs
------------------------------------------------------------

/-
  The uses of chance alone decide what they show and where
  the generator is left.
-/
theorem drawAll_chances
    {r : Run}
    (hReachable : Reachable r)
    (as : List Action) :
    Chance.drawAll r.rules.run r.chips r.catalog r.generator
        ((r.chances as).map Prod.fst) =
      (r.chances as, (r.performAll as).generator) := by
  induction as generalizing r with
  | nil => rfl
  | cons a as ih =>
      have hStep := step_of_reachable hReachable a
      have hSame := hStep.sameTable
      have hDrawn := drawn_step
        (withinLimits_of_reachable hReachable) hStep
      have hRest := ih (Reachable.perform a hReachable)
      rw [hSame.rules, hSame.chips, hSame.catalog] at hRest
      unfold chances performAll
      cases hChance :
          chance? a (r.perform a).run (r.perform a).answer with
      | none =>
          rw [hChance] at hDrawn
          have hRests :
              (r.perform a).run.generator = r.generator :=
            hDrawn
          simp only [hChance]
          rw [← hRests]
          exact hRest
      | some c =>
          rw [hChance] at hDrawn
          have hMoves :
              c.draw r.rules.run r.chips r.catalog
                  r.generator =
                (c.reveal (r.perform a).run,
                  (r.perform a).run.generator) :=
            hDrawn
          simp only [hChance, List.map_cons, Chance.drawAll,
            hMoves, hRest]

/-
  Two runs of the same beginning that use chance alike, in
  the same order, see the same cards and offers each time
  and end with the same generator.
-/
theorem same_fortune
    (rules : Rules)
    (chips : RankChips)
    (catalog : Catalog)
    (seed : UInt64)
    (as bs : List Action)
    (hAlike :
      ((Run.begin rules chips catalog seed).chances
          as).map Prod.fst =
        ((Run.begin rules chips catalog seed).chances
          bs).map Prod.fst) :
    (Run.begin rules chips catalog seed).chances as =
        (Run.begin rules chips catalog seed).chances bs ∧
      ((Run.begin rules chips catalog seed).performAll
          as).generator =
        ((Run.begin rules chips catalog seed).performAll
          bs).generator := by
  have hBegin := Reachable.begin rules chips catalog seed
  have hFirst := drawAll_chances hBegin as
  have hSecond := drawAll_chances hBegin bs
  rw [hAlike, hSecond] at hFirst
  have hParts := Prod.mk.inj hFirst
  exact ⟨hParts.1.symm, hParts.2.symm⟩

------------------------------------------------------------
-- Two Runs Of One Beginning
------------------------------------------------------------

/- Whether an action may use chance. -/
def mayDraw : Action → Bool
  | .start => true
  | .next => true
  | .play => true
  | .reroll => true
  | _ => false

/- An action that uses no chance shows nothing. -/
theorem chances_cons_of_quiet
    {r : Run}
    {a : Action}
    (hQuiet : mayDraw a = false)
    (as : List Action) :
    r.chances (a :: as) = (r.perform a).run.chances as := by
  have hNone :
      chance? a (r.perform a).run (r.perform a).answer =
        none := by
    cases (r.perform a).answer with
    | error e => rfl
    | ok reply =>
        cases a with
        | start | next | play | reroll => cases hQuiet
        | refill | toggle | clearSelection | discard | buy
        | replace | cancelPurchase | sell | addJoker => rfl
  simp only [chances, hNone]

/- An action that uses chance shows something first. -/
theorem map_chances_cons_of_some
    {r : Run}
    {a : Action}
    {c : Chance}
    (hSome :
      chance? a (r.perform a).run (r.perform a).answer =
        some c)
    (as : List Action) :
    (r.chances (a :: as)).map Prod.fst =
      c :: ((r.perform a).run.chances as).map Prod.fst := by
  simp only [chances, hSome, List.map_cons]

/- A round that its first card clears uses chance twice. -/
theorem map_chances_firstPlayed
    {r : Run}
    {i : Nat}
    (hReachable : Reachable r)
    (hOpen : r.MayOpen i)
    (hReached :
      (r.firstScored i).progress.target ≤
        (r.firstScored i).progress.score)
    (as : List Action) :
    (r.chances (.start :: .toggle i :: .play :: as)).map
        Prod.fst =
      .roundStart :: .roundClear ::
        ((r.firstPlayed i).chances as).map Prod.fst := by
  have hStart :
      chance? .start (r.perform .start).run
          (r.perform .start).answer =
        some .roundStart := by
    rw [(perform_start hOpen.phase).1]
    rfl
  have hPlay :
      chance? .play
          ((r.performAll [.start, .toggle i]).perform
            .play).run
          ((r.performAll [.start, .toggle i]).perform
            .play).answer =
        some .roundClear := by
    have hAnswer :=
      (perform_play (inOrder_opened hReachable i)
        (mayPlay_opened hOpen)).1
    have hShop :
        ((r.performAll [.start, .toggle i]).perform
          .play).run.phase = .shop :=
      (firstPlayed_of_reached hReachable hOpen hReached).1
    rw [hAnswer]
    simp only [chance?, hShop, if_true]
  rw [map_chances_cons_of_some hStart,
    chances_cons_of_quiet rfl]
  exact congrArg (List.cons Chance.roundStart)
    (map_chances_cons_of_some hPlay as)

/-
  One run plays another card than the other, has a joker
  before it starts and buys one after the round.
-/
theorem chances_alike :
    (crampedBegin.chances
        [.start, .toggle 0, .play]).map Prod.fst =
      (crampedBegin.chances
        [.addJoker "j_joker", .start, .toggle 1, .play,
          .buy 0]).map Prod.fst := by
  have hBegin : Reachable crampedBegin :=
    Reachable.begin _ _ _ _
  have hOpen : crampedBegin.MayOpen 0 :=
    ⟨Or.inl rfl, by decide, by decide, by decide⟩
  have hFirst :
      (crampedBegin.chances
          [.start, .toggle 0, .play]).map Prod.fst =
        [.roundStart, .roundClear] :=
    map_chances_firstPlayed hBegin hOpen
      (firstScored_reaches_lowest hOpen rfl) []
  have hCramped : Reachable crampedRun :=
    reachable_performAll hBegin [.addJoker "j_joker"]
  have hCrampedOpen : crampedRun.MayOpen 1 :=
    ⟨Or.inl rfl, by decide, by decide, by decide⟩
  have hSecond :
      (crampedRun.chances
          [.start, .toggle 1, .play, .buy 0]).map Prod.fst =
        [.roundStart, .roundClear] := by
    rw [map_chances_firstPlayed hCramped hCrampedOpen
        (firstScored_reaches_lowest hCrampedOpen rfl),
      chances_cons_of_quiet rfl]
    rfl
  rw [hFirst, chances_cons_of_quiet rfl]
  exact hSecond.symm

theorem same_fortune_cramped :
    (crampedBegin.chances
        [.start, .toggle 0, .play]).map Prod.fst =
      (crampedBegin.chances
        [.addJoker "j_joker", .start, .toggle 1, .play,
          .buy 0]).map Prod.fst ∧
      crampedBegin.chances [.start, .toggle 0, .play] =
        crampedBegin.chances
          [.addJoker "j_joker", .start, .toggle 1, .play,
            .buy 0] ∧
      (crampedBegin.performAll
          [.start, .toggle 0, .play]).generator =
        (crampedBegin.performAll
          [.addJoker "j_joker", .start, .toggle 1, .play,
            .buy 0]).generator :=
  ⟨chances_alike,
    same_fortune crampedRules RankChips.standard
      (Catalog.ofList [cheapJoker]) 7 _ _ chances_alike⟩

end Run

end JokerRun
