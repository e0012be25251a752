import JokerRun.Proofs.Run.Opening

/-
  An offer that waits can still be exchanged for a joker.

  What waits is only the position of an offer.  Offers move
  up when one is bought, and jokers, money and offers change
  by other actions, so each of these must give the position
  up or leave alone what it stands for.

  Key definitions include:
    * `Run.Waits`

  Key theorems include:
    * `Run.waits_step`
    * `Run.waits_of_reachable`
    * `Run.replaceable_of_pending`
-/

------------------------------------------------------------
-- Waiting Offers
------------------------------------------------------------

namespace JokerRun

namespace Run

/-
  A joker that is still offered at a position, can be paid,
  and lacks nothing but a slot.
-/
structure Waits
    (r : Run)
    (offer : Nat)
    (a : Ability) : Prop where
  phase : r.phase = .shop
  inside : offer < r.shop.offers.size
  offered : r.shop.offers.get? offer = some a
  full : r.jokers.isFull = true
  paid : a.cost ≤ r.progress.money

/- Every position that waits stands for a waiting joker. -/
def PendingWaits
    (r : Run) : Prop :=
  ∀ offer, r.shop.pending = some offer →
    ∃ a, r.Waits offer a

theorem pendingWaits_of_none
    {r : Run}
    (hNone : r.shop.pending = none) :
    r.PendingWaits := by
  intro offer hPending
  rw [hNone] at hPending
  cases hPending

/- Outside the shop nothing waits. -/
theorem PendingWaits.none_of_phase
    {r : Run}
    (hWaits : r.PendingWaits)
    (hPhase : r.phase ≠ .shop) :
    r.shop.pending = none := by
  rw [Option.eq_none_iff_forall_ne_some]
  intro offer hPending
  rcases hWaits offer hPending with ⟨a, hWaiting⟩
  exact hPhase hWaiting.phase

/-
  What waits depends on the phase, the shop, the jokers and
  the money only.
-/
theorem PendingWaits.congr
    {r r' : Run}
    (hWaits : r.PendingWaits)
    (hPhase : r'.phase = r.phase)
    (hShop : r'.shop = r.shop)
    (hJokers : r'.jokers = r.jokers)
    (hMoney : r'.progress.money = r.progress.money) :
    r'.PendingWaits := by
  intro offer hPending
  rw [hShop] at hPending
  rcases hWaits offer hPending with ⟨a, hWaiting⟩
  refine ⟨a, hPhase.trans hWaiting.phase, ?_, ?_, ?_, ?_⟩
  · rw [hShop]
    exact hWaiting.inside
  · rw [hShop]
    exact hWaiting.offered
  · rw [hJokers]
    exact hWaiting.full
  · rw [hMoney]
    exact hWaiting.paid

------------------------------------------------------------
-- However An Action Ends
------------------------------------------------------------

/- However an action ends, no stale position waits. -/
theorem waits_step
    {r r' : Run}
    {a : Action}
    {answer : Except RunError Reply}
    {events : List Event}
    (hWaits : r.PendingWaits)
    (hStep : Step r a answer r' events) :
    r'.PendingWaits := by
  -- Before a round is won or lost nothing waits.
  have hPlaying (hPhase : r.phase = .play) :
      r.shop.pending = none := by
    apply hWaits.none_of_phase
    rw [hPhase]
    exact RunPhase.noConfusion
  cases hStep with
  | refused | notAdded => exact hWaits
  | started | nextStarted =>
      apply pendingWaits_of_none
      rw [refill_run, deal_eq]
      rfl
  | refilled | unselected | selected | selectionCleared =>
      exact hWaits.congr rfl rfl rfl rfl
  | played hMay | lost hMay =>
      exact pendingWaits_of_none (hPlaying hMay.phase)
  | won =>
      apply pendingWaits_of_none
      rw [clearRound_run]
      exact Shop.pending_restock _ _ _
  | discarded hMay =>
      exact pendingWaits_of_none (hPlaying hMay.phase)
  | @waiting chosen a hPhase hOffer hMoney hFull =>
      intro offer hPending
      have hChosen : chosen = offer :=
        Option.some.inj hPending
      subst hChosen
      refine ⟨a, hPhase, ?_, hOffer, ?_, hMoney⟩
      · exact (List.getElem?_eq_some_iff.mp hOffer).1
      · exact (Area.isFull_iff r.jokers).mpr hFull
  | bought | replaced | purchaseCancelled | sold =>
      exact pendingWaits_of_none rfl
  | rerolled =>
      exact pendingWaits_of_none (Shop.pending_restock _ _ _)
  | added hEntry hRoom =>
      -- A slot is free, so nothing was waiting for one.
      apply pendingWaits_of_none
      rw [Option.eq_none_iff_forall_ne_some]
      intro offer hPending
      rcases hWaits offer hPending with ⟨a, hWaiting⟩
      have hFull := (Area.isFull_iff r.jokers).mp
        hWaiting.full
      omega

theorem waits_of_reachable
    {r : Run}
    (hReachable : Reachable r) :
    r.PendingWaits :=
  hReachable.invariant
    (fun _ _ _ _ => pendingWaits_of_none rfl)
    fun _ hWaits hStep => waits_step hWaits hStep

------------------------------------------------------------
-- Exchanging
------------------------------------------------------------

section

variable {r : Run}
variable {offer slot : Nat}
variable {a : Ability}

/- A joker in a slot is exchanged for what waits. -/
theorem Waits.perform_replace
    (hWaits : r.Waits offer a)
    (hPending : r.shop.pending = some offer)
    (hSlot : slot < r.jokers.size) :
    (r.perform (.replace slot)).answer = .ok .done ∧
      (r.perform (.replace slot)).run =
        r.withCounter
          (r.counter.afterReplacing offer slot a) := by
  have hOld :
      r.jokers.get? slot =
        some (r.jokers.items.get ⟨slot, hSlot⟩) :=
    List.getElem?_eq_getElem hSlot
  have hReplace :=
    Counter.replace_of_pending (c := r.counter) hPending
      hWaits.offered hWaits.paid hOld
  constructor
  · simp only [perform, replace, hWaits.phase, ne_eq,
      not_true, if_false, hReplace, Turn.map]
    rfl
  · simp only [perform, replace, hWaits.phase, ne_eq,
      not_true, if_false, hReplace, Turn.map]

/- Without a joker in the slot nothing is exchanged. -/
theorem slot_lt_of_replaced
    (hAnswer :
      (r.perform (.replace slot)).answer = .ok .done) :
    slot < r.jokers.size := by
  by_cases hPhase : r.phase = .shop
  · rcases r.counter.replace_cases slot with
      ⟨e, hReplace⟩ | ⟨offer, a, old, -, -, -, hSlot, -⟩
    · simp only [perform, replace, hPhase, ne_eq, not_true,
        if_false, hReplace, Turn.map, Turn.refuse,
        Except.map] at hAnswer
      cases hAnswer
    · exact (List.getElem?_eq_some_iff.mp hSlot).1
  · simp only [perform, replace, hPhase, ne_eq,
      not_false_eq_true, if_true, Turn.map, Turn.refuse,
      Except.map] at hAnswer
    cases hAnswer

end

/-
  On a reachable run, a position that waits stands for an
  offer that a full board and enough money wait for.  It is
  exchanged for the joker of any slot, and for nothing else.
-/
theorem replaceable_of_pending
    {r : Run}
    {offer : Nat}
    (hReachable : Reachable r)
    (hPending : r.shop.pending = some offer) :
    ∃ a, r.Waits offer a ∧
      ∀ slot,
        ((r.perform (.replace slot)).answer = .ok .done ↔
          slot < r.jokers.size) ∧
        (slot < r.jokers.size →
          (r.perform (.replace slot)).run.jokers.items =
              r.jokers.items.set slot a ∧
            (r.perform (.replace slot)).run.jokers.get?
              slot = some a) := by
  rcases waits_of_reachable hReachable offer hPending with
    ⟨a, hWaits⟩
  refine ⟨a, hWaits, ?_⟩
  intro slot
  constructor
  · constructor
    · exact slot_lt_of_replaced
    · intro hSlot
      exact (hWaits.perform_replace hPending hSlot).1
  · intro hSlot
    rw [(hWaits.perform_replace hPending hSlot).2]
    exact ⟨rfl, List.getElem?_set_self hSlot⟩

------------------------------------------------------------
-- A Run That Waits
------------------------------------------------------------

/- An offer that is chosen on a full board waits. -/
theorem pending_buy_of_full
    {r : Run}
    {offer : Nat}
    {a : Ability}
    (hPhase : r.phase = .shop)
    (hOffer : r.shop.offers.get? offer = some a)
    (hMoney : a.cost ≤ r.progress.money)
    (hFull : r.jokers.capacity ≤ r.jokers.size) :
    (r.perform (.buy offer)).run.shop.pending =
      some offer := by
  have hBuy :=
    Counter.buy_of_full (c := r.counter) hOffer hMoney hFull
  simp only [perform, buy, hPhase, ne_eq, not_true,
    if_false, hBuy]
  rfl

/- A joker for a few coins. -/
def cheapJoker : Ability where
  id := "j_joker"
  name := "Joker"
  description := ""
  cost := 2
  atlasIndex := 0
  effect := some (.flatMult 4)

/- One slot for jokers, one offer, and targets for anyone. -/
def crampedRules : Rules where
  run :=
    { RunRules.standard with
      startingTarget := Amount.lowest
      jokerSlots := 1
      shopSlots := 1 }
  hands := []

/- A run that knows one joker. -/
def crampedBegin : Run :=
  Run.begin crampedRules RankChips.standard
    (Catalog.ofList [cheapJoker]) 7

/- A run with its only slot taken, before its first round. -/
def crampedRun : Run :=
  crampedBegin.performAll [.addJoker "j_joker"]

/- The same run when an offer waits for the slot. -/
def waitingRun : Run :=
  (crampedRun.firstPlayed 0).performAll [.buy 0]

/- A catalog of one joker always offers this joker. -/
theorem stock_crampedRun
    (g : Generator) :
    (Shop.stock crampedRun.catalog 1 g).1.get? 0 =
      some cheapJoker := by
  have hPick :
      crampedRun.catalog.pick g =
        (some cheapJoker, (g.next).2) := by
    have hFirst : g.next.1.toNat % 1 = 0 := Nat.mod_one _
    have hSize : crampedRun.catalog.size = 1 := rfl
    simp only [Catalog.pick, Generator.below, hSize,
      Nat.one_ne_zero, if_false, hFirst]
    rfl
  have hSome : ¬ crampedRun.catalog.isEmpty = true := by
    decide
  simp only [Shop.stock, hSome, Shop.fill, hPick]
  rfl

theorem pending_waitingRun :
    waitingRun.shop.pending = some 0 := by
  have hReachable : Reachable crampedRun :=
    reachable_performAll (Reachable.begin _ _ _ _) _
  have hOpen : crampedRun.MayOpen 0 :=
    ⟨Or.inl rfl, by decide, by decide, by decide⟩
  have hReached := firstScored_reaches_lowest hOpen rfl
  rcases firstPlayed_of_reached hReachable hOpen
      hReached with
    ⟨hShop, hJokers, hMoney, g, hOffers⟩
  have hOffer :
      (crampedRun.firstPlayed 0).shop.offers.get? 0 =
        some cheapJoker := by
    rw [hOffers]
    exact stock_crampedRun g
  have hPaid :
      cheapJoker.cost ≤
        (crampedRun.firstPlayed 0).progress.money := by
    rw [hMoney]
    decide
  have hFull :
      (crampedRun.firstPlayed 0).jokers.capacity ≤
        (crampedRun.firstPlayed 0).jokers.size := by
    rw [hJokers]
    decide
  rw [waitingRun, performAll, performAll]
  exact pending_buy_of_full hShop hOffer hPaid hFull

theorem replaceable_of_pending_waitingRun :
    Reachable waitingRun ∧
      waitingRun.shop.pending = some 0 ∧
      ∃ a, waitingRun.Waits 0 a ∧
        ∀ slot,
          ((waitingRun.perform (.replace slot)).answer =
              .ok .done ↔
            slot < waitingRun.jokers.size) ∧
          (slot < waitingRun.jokers.size →
            (waitingRun.perform
                (.replace slot)).run.jokers.items =
              waitingRun.jokers.items.set slot a ∧
            (waitingRun.perform
                (.replace slot)).run.jokers.get? slot =
              some a) := by
  have hReachable : Reachable waitingRun :=
    reachable_performAll
      (reachable_performAll
        (reachable_performAll
          (Reachable.begin _ _ _ _) _) _) _
  have hPending := pending_waitingRun
  exact ⟨hReachable, hPending,
    replaceable_of_pending hReachable hPending⟩

end Run

end JokerRun
