import JokerRun.Proofs.Run.Pending
import JokerRun.Proofs.Run.Replay
import JokerRun.Proofs.Scoring.Gain

/-
  Trading never makes a player richer.

  The worth of a run is its money together with what its
  jokers would bring.  A joker brings at most what it costs,
  so buying, exchanging and selling only ever lose worth.
  What is gained is the reward of rounds that are won, the
  dollars of discards and the jokers that are gifts.

  Key definitions include:
    * `worthOf` and `Run.worth`
    * `Run.income`
    * `Run.Solvent`
    * `Run.NoArbitrage`

  Key theorems include:
    * `Ability.sellValue_le_cost`
    * `worthOf_bought_le` and `worthOf_replaced_le`
    * `worthOf_sold_le`
    * `Run.solvent_step`
    * `Run.worth_step`
    * `Run.worth_perform`
    * `Run.worth_performAll`
    * `Run.no_arbitrage`
-/

------------------------------------------------------------
-- Prices And Rebates
------------------------------------------------------------

namespace JokerRun

namespace Ability

/- A joker that is sold brings something. -/
theorem one_le_sellValue
    (a : Ability) :
    1 ≤ a.sellValue :=
  Int.le_max_right _ _

/- A joker with a price brings at most its price. -/
theorem sellValue_le_cost
    {a : Ability}
    (hPriced : 1 ≤ a.cost) :
    a.sellValue ≤ a.cost := by
  unfold sellValue
  rw [Int.tdiv_eq_ediv_of_nonneg (by omega)]
  omega

end Ability

namespace Scoring

/- A discard never costs money. -/
theorem discard_dollars_nonneg
    (cards : List Card)
    (board : List Ability) :
    0 ≤ (discard cards board).dollars := by
  have hTrigger
      (s : DiscardSummary)
      (hStart : 0 ≤ s.dollars)
      (m : Moment)
      (a : Ability) :
      0 ≤ (s.trigger m a).dollars := by
    unfold DiscardSummary.trigger
    split
    · exact hStart
    · exact Tally.gain_nonneg hStart _
  unfold discard
  -- No card and, for a card, no joker takes dollars away.
  refine List.foldlRecOn
    (motive := fun s : DiscardSummary => 0 ≤ s.dollars)
    cards _ (Int.le_refl 0) ?_
  intro s hStart c _
  refine List.foldlRecOn
    (motive := fun s : DiscardSummary => 0 ≤ s.dollars)
    board _ hStart ?_
  intro s hStart a _
  exact hTrigger s hStart _ a

end Scoring

------------------------------------------------------------
-- Worth
------------------------------------------------------------

/- What some jokers would bring if they were sold. -/
def sellValues
    (as : List Ability) : Int :=
  (as.map Ability.sellValue).sum

section

variable {as bs : List Ability}

theorem sellValues_append :
    sellValues (as ++ bs) =
      sellValues as + sellValues bs := by
  unfold sellValues
  rw [List.map_append, List.sum_append]

theorem sellValues_cons
    (a : Ability) :
    sellValues (a :: as) = a.sellValue + sellValues as := by
  unfold sellValues
  rw [List.map_cons, List.sum_cons]

/- The order of the jokers does not matter. -/
theorem sellValues_perm
    (hPerm : as.Perm bs) :
    sellValues as = sellValues bs :=
  (hPerm.map Ability.sellValue).sum_eq

/- A joker that leaves takes its value with it. -/
theorem sellValues_eraseIdx
    {i : Nat}
    {a : Ability}
    (hItem : as[i]? = some a) :
    sellValues (as.eraseIdx i) =
      sellValues as - a.sellValue := by
  have hSplit := sellValues_perm (Area.perm_of_taken hItem)
  rw [sellValues_cons] at hSplit
  omega

/- A joker that takes another's slot brings its own value. -/
theorem sellValues_set
    {i : Nat}
    {old : Ability}
    (hItem : as[i]? = some old)
    (a : Ability) :
    sellValues (as.set i a) =
      sellValues as - old.sellValue + a.sellValue := by
  have hSwap :=
    sellValues_perm (Area.perm_of_replaced hItem a)
  rw [sellValues_cons, sellValues_cons] at hSwap
  omega

------------------------------------------------------------
-- Trades
------------------------------------------------------------

/- What money and jokers are worth together. -/
def worthOf
    (money : Int)
    (as : List Ability) : Int :=
  money + sellValues as

variable {money : Int}
variable {a old : Ability}
variable {slot : Nat}

/- A joker that is bought brings no more than it costs. -/
theorem worthOf_bought_le
    (hPriced : 1 ≤ a.cost) :
    worthOf (money - a.cost) (as ++ [a]) ≤
      worthOf money as := by
  have hValue := Ability.sellValue_le_cost hPriced
  unfold worthOf
  rw [sellValues_append, sellValues_cons]
  change _ + (_ + (a.sellValue + 0)) ≤ _
  omega

/- In exchange for another one that is lost, even less. -/
theorem worthOf_replaced_le
    (hPriced : 1 ≤ a.cost)
    (hSlot : as[slot]? = some old) :
    worthOf (money - a.cost) (as.set slot a) ≤
      worthOf money as := by
  have hValue := Ability.sellValue_le_cost hPriced
  have hOld := old.one_le_sellValue
  unfold worthOf
  rw [sellValues_set hSlot]
  omega

/- A joker that is sold leaves at most its value behind. -/
theorem worthOf_sold_le
    (hMoney : 0 ≤ money)
    (hSlot : as[slot]? = some a) :
    worthOf (Amount.add money a.sellValue)
        (as.eraseIdx slot) ≤
      worthOf money as := by
  have hValue := a.one_le_sellValue
  have hPaid :
      Amount.add money a.sellValue ≤ money + a.sellValue :=
    Amount.add_le_of_nonneg (by omega)
  unfold worthOf
  rw [sellValues_eraseIdx hSlot]
  omega

/- A joker that is given adds its value. -/
theorem worthOf_added :
    worthOf money (as ++ [a]) =
      worthOf money as + sellValues [a] := by
  unfold worthOf
  rw [sellValues_append, Int.add_assoc]

end

------------------------------------------------------------
-- Income
------------------------------------------------------------

/- The dollars that an event announces. -/
def Event.dollars : Event → Int
  | .discarded _ dollars => dollars
  | _ => 0

/- The dollars of discards that events announce. -/
def discardDollars
    (events : List Event) : Int :=
  (events.map Event.dollars).sum

theorem discardDollars_append
    (es fs : List Event) :
    discardDollars (es ++ fs) =
      discardDollars es + discardDollars fs := by
  unfold discardDollars
  rw [List.map_append, List.sum_append]

namespace Run

/- Money, and what the jokers would bring. -/
def worth
    (r : Run) : Int :=
  r.progress.money + sellValues r.jokers.items

/- The jokers that an action answered so gives away. -/
def giftsOf
    (r : Run) :
    Action → Except RunError Reply → List Ability
  | .addJoker id, .ok (.added (some _)) =>
      (r.catalog.get? id).toList
  | _, _ => []

/- The jokers that actions in a row give away. -/
def giftsAmong
    (r : Run) : List Action → List Ability
  | [] => []
  | a :: as =>
      r.giftsOf a (r.perform a).answer ++
        (r.perform a).run.giftsAmong as

/-
  The worth that an action may add: the reward of a round
  that it wins, the dollars of a discard, a gift.
-/
def income
    (r : Run)
    (a : Action) : Int :=
  match a with
  | .play =>
      r.rules.run.clearReward *
        (((r.perform .play).run.progress.round : Int) -
          r.progress.round)
  | .discard => discardDollars (r.perform .discard).events
  | .addJoker id =>
      sellValues
        (r.giftsOf (.addJoker id)
          (r.perform (.addJoker id)).answer)
  | _ => 0

------------------------------------------------------------
-- Money To Pay With
------------------------------------------------------------

/- Money, prices and rewards that are no loss. -/
structure Solvent (r : Run) : Prop where
  money : 0 ≤ r.progress.money
  reward : 0 ≤ r.rules.run.clearReward
  newOffers : 0 ≤ r.shop.rerollCost
  catalog : ∀ a ∈ r.catalog.toList, 1 ≤ a.cost
  offers : ∀ a ∈ r.shop.offers.items, 1 ≤ a.cost

/- Restocked offers have the prices of the catalog. -/
theorem priced_restock
    {catalog : Catalog}
    (hCatalog : ∀ a ∈ catalog.toList, 1 ≤ a.cost)
    (s : Shop)
    (g : Generator) :
    ∀ a ∈ (s.restock catalog g).1.offers.items,
      1 ≤ a.cost := by
  intro a ha
  rw [Shop.restock_eq] at ha
  exact hCatalog a (Shop.mem_catalog_of_mem_stock ha)

/- Fewer offers have prices, too. -/
theorem priced_withoutOffer
    {s : Shop}
    (hOffers : ∀ a ∈ s.offers.items, 1 ≤ a.cost)
    (offer : Nat) :
    ∀ a ∈ (s.withoutOffer offer).offers.items,
      1 ≤ a.cost :=
  fun a ha => hOffers a (List.mem_of_mem_eraseIdx ha)

/- However an action ends, a solvent run stays solvent. -/
theorem solvent_step
    {r r' : Run}
    {a : Action}
    {answer : Except RunError Reply}
    {events : List Event}
    (hSolvent : r.Solvent)
    (hStep : Step r a answer r' events) :
    r'.Solvent := by
  have hMoney := hSolvent.money
  have hReward := hSolvent.reward
  have hNewOffers := hSolvent.newOffers
  have hCatalog := hSolvent.catalog
  have hOffers := hSolvent.offers
  cases hStep with
  | refused | refilled | unselected | selected
  | selectionCleared | played | lost | waiting
  | purchaseCancelled | added | notAdded =>
      exact ⟨hMoney, hReward, hNewOffers, hCatalog, hOffers⟩
  | started | nextStarted =>
      rw [refill_run, deal_eq]
      exact ⟨hMoney, hReward, hNewOffers, hCatalog, hOffers⟩
  | won =>
      rw [clearRound_run]
      refine ⟨?_, hReward, ?_, hCatalog,
        priced_restock hCatalog _ _⟩
      · exact Amount.add_nonneg
          (Int.add_nonneg hMoney hReward)
      · rw [Shop.rerollCost_restock]
        exact hNewOffers
  | discarded =>
      refine ⟨?_, hReward, hNewOffers, hCatalog, hOffers⟩
      have hDollars :=
        Scoring.discard_dollars_nonneg r.selectedCards
          r.jokers.items
      exact Amount.add_nonneg
        (Int.add_nonneg hMoney hDollars)
  | bought hPhase hOffer hPaid
  | replaced hPhase _ hOffer hPaid =>
      exact ⟨Int.sub_nonneg_of_le hPaid, hReward, hNewOffers,
        hCatalog, priced_withoutOffer hOffers _⟩
  | rerolled hPhase hPaid =>
      refine ⟨Int.sub_nonneg_of_le hPaid, hReward, ?_,
        hCatalog, priced_restock hCatalog _ _⟩
      rw [Shop.rerollCost_restock]
      exact hNewOffers
  | @sold slot a =>
      refine ⟨?_, hReward, hNewOffers, hCatalog, hOffers⟩
      have hValue := a.one_le_sellValue
      exact Amount.add_nonneg (by omega)

theorem solvent_begin
    {rules : Rules}
    {catalog : Catalog}
    (hMoney : 0 ≤ rules.run.startingMoney)
    (hReward : 0 ≤ rules.run.clearReward)
    (hNewOffers : 0 ≤ rules.run.rerollCost)
    (hCatalog : ∀ a ∈ catalog.toList, 1 ≤ a.cost)
    (chips : RankChips)
    (seed : UInt64) :
    (Run.begin rules chips catalog seed).Solvent where
  money := hMoney
  reward := hReward
  newOffers := hNewOffers
  catalog := hCatalog
  offers := fun _ ha => absurd ha List.not_mem_nil

theorem solvent_performAll
    {r : Run}
    (hReachable : Reachable r)
    (hSolvent : r.Solvent)
    (as : List Action) :
    (r.performAll as).Solvent := by
  induction as generalizing r with
  | nil => exact hSolvent
  | cons a as ih =>
      exact ih (Reachable.perform a hReachable)
        (solvent_step hSolvent
          (step_of_reachable hReachable a))

------------------------------------------------------------
-- However An Action Ends
------------------------------------------------------------

/- Dealt cards are no discard. -/
theorem discardDollars_dealt
    (n : Nat) :
    discardDollars (dealt n) = 0 := by
  unfold dealt
  split <;> rfl

/- An event in front of dealt cards pays alone. -/
theorem discardDollars_cons_dealt
    (e : Event)
    (n : Nat) :
    discardDollars (e :: dealt n) = e.dollars := by
  have hRest := discardDollars_dealt n
  unfold discardDollars at *
  rw [List.map_cons, List.sum_cons, hRest, Int.add_zero]

/- A hand that is scored discards nothing. -/
theorem discardDollars_handEvents
    (r : Run) :
    discardDollars r.handEvents = 0 := by
  rw [handEvents, refill_events, discardDollars_cons_dealt]
  rfl

/- A round that is won discards nothing. -/
theorem discardDollars_clearRound
    (r : Run) :
    discardDollars r.clearRound.events = 0 := by
  unfold clearRound
  generalize r.shop.restock r.catalog r.generator = stocked
  rfl

section

variable {r r' : Run}
variable {a : Action}
variable {answer : Except RunError Reply}
variable {events : List Event}

/- Only a discard pays dollars. -/
theorem Step.discardDollars_eq_zero
    (hStep : Step r a answer r' events)
    (hOther : a ≠ .discard) :
    discardDollars events = 0 := by
  cases hStep with
  | refused | unselected | selected | selectionCleared
  | waiting | bought | replaced | purchaseCancelled
  | rerolled | sold | added | notAdded => rfl
  | started | nextStarted =>
      rw [refill_events, discardDollars_cons_dealt]
      rfl
  | refilled => exact discardDollars_dealt _
  | played => exact discardDollars_handEvents r
  | won =>
      rw [discardDollars_append, discardDollars_handEvents,
        discardDollars_clearRound]
      rfl
  | lost =>
      rw [discardDollars_append, discardDollars_handEvents]
      rfl
  | discarded => exact absurd rfl hOther

/- Only a played hand ends a round. -/
theorem Step.round_eq
    (hStep : Step r a answer r' events)
    (hOther : a ≠ .play) :
    r'.progress.round = r.progress.round := by
  cases hStep with
  | started | nextStarted =>
      rw [refill_progress, deal_eq]
  | played | won | lost => exact absurd rfl hOther
  | refused | refilled | unselected | selected
  | selectionCleared | discarded | waiting | bought
  | replaced | purchaseCancelled | rerolled | sold | added
  | notAdded => rfl

/- A round that starts costs and brings nothing. -/
theorem worth_deal_refill
    (r : Run) :
    r.deal.refill.run.worth = r.worth := by
  unfold worth
  rw [refill_progress, refill_jokers, deal_eq]

/- A round that is cleared brings at most its reward. -/
theorem worth_clearRound_le
    (hMoney : 0 ≤ r.progress.money)
    (hReward : 0 ≤ r.rules.run.clearReward) :
    r.clearRound.run.worth ≤
      r.worth + r.rules.run.clearReward := by
  have hPaid := Amount.add_le_of_nonneg
    (Int.add_nonneg hMoney hReward)
  unfold worth
  rw [clearRound_run]
  dsimp only
  omega

/- A hand that wins the round brings no more than that. -/
theorem worth_won_le
    (hMoney : 0 ≤ r.progress.money)
    (hReward : 0 ≤ r.rules.run.clearReward) :
    r.scoredRun.refill.run.clearRound.run.worth ≤
      r.worth + r.rules.run.clearReward :=
  worth_clearRound_le (r := r.scoredRun.refill.run) hMoney
    hReward

/- It is followed by the next round. -/
theorem round_won
    (r : Run) :
    r.scoredRun.refill.run.clearRound.run.progress.round =
      r.progress.round + 1 := by
  rw [clearRound_run]
  rfl

/- A discard brings at most its dollars. -/
theorem worth_discarded_le
    (hMoney : 0 ≤ r.progress.money) :
    r.paidRun.refill.run.worth ≤
      r.worth + r.discardSummary.dollars := by
  have hDollars :=
    Scoring.discard_dollars_nonneg r.selectedCards
      r.jokers.items
  have hPaid :
      Amount.add r.progress.money r.discardSummary.dollars ≤
        r.progress.money + r.discardSummary.dollars :=
    Amount.add_le_of_nonneg (Int.add_nonneg hMoney hDollars)
  change
    Amount.add r.progress.money r.discardSummary.dollars +
        sellValues r.jokers.items ≤
      r.progress.money + sellValues r.jokers.items +
        r.discardSummary.dollars
  omega

/- New offers cost and bring nothing. -/
theorem worth_rerolled_le
    (hPrice : 0 ≤ r.shop.rerollCost) :
    worthOf (r.progress.money - r.shop.rerollCost)
        r.jokers.items ≤
      r.worth := by
  unfold worth worthOf
  omega

/-
  Without a round won, a discard or a gift, worth must not
  grow at all.
-/
theorem worth_le_of_quiet
    (hRound : r'.progress.round = r.progress.round)
    (hDollars : discardDollars events = 0)
    (hGifts : r.giftsOf a answer = [])
    (hWorth : r'.worth ≤ r.worth) :
    r'.worth ≤
      r.worth +
        r.rules.run.clearReward *
          ((r'.progress.round : Int) - r.progress.round) +
        discardDollars events +
        sellValues (r.giftsOf a answer) := by
  rw [hRound, hDollars, hGifts, Int.sub_self, Int.mul_zero]
  change r'.worth ≤ r.worth + 0 + 0 + 0
  omega

/-
  However an action ends, worth grows at most by rewards,
  dollars and gifts.
-/
theorem worth_step
    (hSolvent : r.Solvent)
    (hStep : Step r a answer r' events) :
    r'.worth ≤
      r.worth +
        r.rules.run.clearReward *
          ((r'.progress.round : Int) - r.progress.round) +
        discardDollars events +
        sellValues (r.giftsOf a answer) := by
  cases hStep with
  | refused =>
      refine worth_le_of_quiet rfl rfl ?_ (Int.le_refl _)
      cases a <;> rfl
  | unselected | selected | selectionCleared | waiting
  | purchaseCancelled | notAdded =>
      exact worth_le_of_quiet rfl rfl rfl (Int.le_refl _)
  | refilled =>
      exact worth_le_of_quiet rfl (discardDollars_dealt _) rfl
        (Int.le_refl _)
  | started hPhase =>
      have hStarted := Step.started hPhase
      exact worth_le_of_quiet
        (hStarted.round_eq Action.noConfusion)
        (hStarted.discardDollars_eq_zero Action.noConfusion)
        rfl (Int.le_of_eq (worth_deal_refill r))
  | nextStarted hPhase =>
      have hStarted := Step.nextStarted hPhase
      exact worth_le_of_quiet
        (hStarted.round_eq Action.noConfusion)
        (hStarted.discardDollars_eq_zero Action.noConfusion)
        rfl (Int.le_of_eq (worth_deal_refill r))
  | played =>
      exact worth_le_of_quiet rfl
        (discardDollars_handEvents r) rfl (Int.le_refl _)
  | lost hMay hShort hNoneLeft =>
      have hLost := Step.lost hMay hShort hNoneLeft
      exact worth_le_of_quiet rfl
        (hLost.discardDollars_eq_zero Action.noConfusion)
        rfl (Int.le_refl _)
  | won hMay hReached =>
      have hWon := Step.won hMay hReached
      have hNone :=
        hWon.discardDollars_eq_zero Action.noConfusion
      have hPaid :=
        worth_won_le hSolvent.money hSolvent.reward
      have hOne :
          ((r.progress.round + 1 : Nat) : Int) -
              r.progress.round =
            1 := by
        omega
      rw [round_won, hOne, hNone, Int.mul_one]
      change
        _ ≤ r.worth + r.rules.run.clearReward + 0 + 0
      omega
  | discarded =>
      have hPaid := worth_discarded_le hSolvent.money
      have hRound :
          r.paidRun.refill.run.progress.round =
            r.progress.round := rfl
      rw [refill_events, discardDollars_cons_dealt, hRound,
        Int.sub_self, Int.mul_zero]
      change _ ≤ r.worth + 0 + r.discardSummary.dollars + 0
      omega
  | bought _ hOffer =>
      have hPriced :=
        hSolvent.offers _ (List.mem_of_getElem? hOffer)
      exact worth_le_of_quiet rfl rfl rfl
        (worthOf_bought_le hPriced)
  | replaced _ _ hOffer _ hSlot =>
      have hPriced :=
        hSolvent.offers _ (List.mem_of_getElem? hOffer)
      exact worth_le_of_quiet rfl rfl rfl
        (worthOf_replaced_le hPriced hSlot)
  | rerolled =>
      exact worth_le_of_quiet rfl rfl rfl
        (worth_rerolled_le hSolvent.newOffers)
  | sold _ hSlot =>
      exact worth_le_of_quiet rfl rfl rfl
        (worthOf_sold_le hSolvent.money hSlot)
  | @added id a hEntry hRoom =>
      have hGifts :
          r.giftsOf (.addJoker id)
              (.ok (.added (some r.jokers.size))) =
            [a] := by
        change (r.catalog.get? id).toList = [a]
        rw [hEntry]
        rfl
      rw [hGifts, Int.sub_self, Int.mul_zero]
      change
        worthOf r.progress.money (r.jokers.items ++ [a]) ≤
          r.worth + 0 + 0 + sellValues [a]
      rw [worthOf_added, Int.add_zero, Int.add_zero]
      exact Int.le_refl _

end

/- No action makes a run richer by more than its income. -/
theorem worth_perform
    {r : Run}
    (hReachable : Reachable r)
    (hSolvent : r.Solvent)
    (a : Action) :
    (r.perform a).run.worth ≤ r.worth + r.income a := by
  have hStep := step_of_reachable hReachable a
  have hWorth := worth_step hSolvent hStep
  cases a with
  | play =>
      have hNone :=
        hStep.discardDollars_eq_zero Action.noConfusion
      rw [hNone] at hWorth
      change
        _ ≤ r.worth + r.income .play + 0 + 0 at hWorth
      omega
  | discard =>
      have hRound := hStep.round_eq Action.noConfusion
      rw [hRound, Int.sub_self, Int.mul_zero] at hWorth
      change _ ≤ r.worth + 0 + r.income .discard + 0 at hWorth
      omega
  | addJoker id =>
      have hNone :=
        hStep.discardDollars_eq_zero Action.noConfusion
      have hRound := hStep.round_eq Action.noConfusion
      rw [hNone, hRound, Int.sub_self, Int.mul_zero] at hWorth
      change
        _ ≤ r.worth + 0 + 0 + r.income (.addJoker id) at hWorth
      omega
  | start | next | refill | toggle | clearSelection | buy
  | replace | cancelPurchase | reroll | sell =>
      have hNone :=
        hStep.discardDollars_eq_zero Action.noConfusion
      have hRound := hStep.round_eq Action.noConfusion
      rw [hNone, hRound, Int.sub_self, Int.mul_zero] at hWorth
      change _ ≤ r.worth + 0 + 0 + 0 at hWorth
      change _ ≤ r.worth + 0
      omega

------------------------------------------------------------
-- Whatever Actions Are Taken
------------------------------------------------------------

/-
  Over any actions, worth grows at most by the rewards of
  rounds won, the dollars announced and the gifts.
-/
theorem worth_performAll
    {r : Run}
    (hReachable : Reachable r)
    (hSolvent : r.Solvent)
    (as : List Action) :
    (r.performAll as).worth ≤
      r.worth +
        r.rules.run.clearReward *
          (((r.performAll as).progress.round : Int) -
            r.progress.round) +
        discardDollars (r.announced as) +
        sellValues (r.giftsAmong as) := by
  induction as generalizing r with
  | nil =>
      change
        r.worth ≤
          r.worth +
            r.rules.run.clearReward *
              ((r.progress.round : Int) - r.progress.round) +
            0 + 0
      rw [Int.sub_self, Int.mul_zero]
      omega
  | cons a as ih =>
      have hStep := step_of_reachable hReachable a
      have hFirst := worth_step hSolvent hStep
      have hRest := ih (Reachable.perform a hReachable)
        (solvent_step hSolvent hStep)
      rw [hStep.sameTable.rules] at hRest
      simp only [performAll, announced, giftsAmong,
        discardDollars_append, sellValues_append]
      rw [Int.mul_sub] at *
      omega

/-
  After any actions from a beginning: no debt, no action
  that adds more than its income, and no more worth than
  the first money, rewards, dollars and gifts.
-/
structure NoArbitrage
    (start : Run)
    (as : List Action) : Prop where
  money : 0 ≤ (start.performAll as).progress.money
  action :
    ∀ a : Action,
      ((start.performAll as).perform a).run.worth ≤
        (start.performAll as).worth +
          (start.performAll as).income a
  total :
    (start.performAll as).worth ≤
      start.rules.run.startingMoney +
        start.rules.run.clearReward *
          (((start.performAll as).progress.round : Int) -
            1) +
        discardDollars (start.announced as) +
        sellValues (start.giftsAmong as)

/- Where every joker has a price, no trade makes money. -/
theorem no_arbitrage
    (rules : Rules)
    (chips : RankChips)
    (catalog : Catalog)
    (seed : UInt64)
    (hMoney : 0 ≤ rules.run.startingMoney)
    (hReward : 0 ≤ rules.run.clearReward)
    (hNewOffers : 0 ≤ rules.run.rerollCost)
    (hCatalog : ∀ a ∈ catalog.toList, 1 ≤ a.cost)
    (as : List Action) :
    NoArbitrage (Run.begin rules chips catalog seed) as := by
  have hBegin := Reachable.begin rules chips catalog seed
  have hSolvent :=
    solvent_begin hMoney hReward hNewOffers hCatalog chips
      seed
  have hLater := solvent_performAll hBegin hSolvent as
  have hWorth := worth_performAll hBegin hSolvent as
  have hFirst :
      (Run.begin rules chips catalog seed).worth =
        rules.run.startingMoney :=
    Int.add_zero _
  rw [hFirst] at hWorth
  exact {
    money := hLater.money
    action :=
      worth_perform (reachable_performAll hBegin as) hLater
    total := hWorth }

/- A gift, a round that is won, an exchange and a sale. -/
theorem no_arbitrage_cramped :
    NoArbitrage crampedBegin
      [.addJoker "j_joker", .start, .toggle 0, .play,
        .buy 0, .replace 0, .sell 0] := by
  have hCatalog :
      ∀ a ∈ (Catalog.ofList [cheapJoker]).toList,
        1 ≤ a.cost := by
    decide
  exact no_arbitrage crampedRules RankChips.standard
    (Catalog.ofList [cheapJoker]) 7 (by decide) (by decide)
    (by decide) hCatalog _

end Run

end JokerRun
