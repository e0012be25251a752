import JokerRun.Proofs.DrawPile
import JokerRun.Proofs.Shop
import JokerRun.Run.Action

/-
  What one action can do to a run.

  `Run.Step` lists the ways in which an action ends, each
  with what it needs and what it leaves.  Laws about whole
  runs split on these ways and never open the actions again.

  Key definitions include:
    * `Run.InOrder`
    * `Run.Step`
    * `Run.Toggles`

  Key theorems include:
    * `Run.refill_run`
    * `Run.deal_eq`
    * `Run.toggles_toggle`
    * `Run.step_perform`
-/

------------------------------------------------------------
-- Dealing
------------------------------------------------------------

namespace JokerRun

namespace Run

/- Cards for which there is room are all pushed. -/
theorem pushAll_of_room
    (a : Area Card)
    (cs : List Card)
    (hRoom : a.size + cs.length ≤ a.capacity) :
    pushAll a cs = { a with items := a.items ++ cs } := by
  induction cs generalizing a with
  | nil => simp [pushAll]
  | cons c cs ih =>
      rw [List.length_cons] at hRoom
      have hSlot : a.size < a.capacity := by omega
      let pushed : Area Card :=
        { a with items := a.items ++ [c] }
      have hSize : pushed.size = a.size + 1 :=
        List.length_append
      have hRest :
          pushed.size + cs.length ≤ pushed.capacity := by
        rw [hSize]
        exact (by omega : a.size + 1 + cs.length ≤ a.capacity)
      simp only [pushAll, Area.push_of_room hSlot]
      rw [ih pushed hRest]
      simp [pushed]

/- The cards that filling up the hand draws. -/
def refilling
    (r : Run) : List Card :=
  (r.pile.draw r.hand.freeSlots).1

/- Every card that is drawn reaches the hand. -/
theorem refill_run
    (r : Run) :
    r.refill.run =
      { r with
        pile := (r.pile.draw r.hand.freeSlots).2
        hand :=
          { r.hand with
            items := r.hand.items ++ r.refilling } } := by
  have hPush :
      pushAll r.hand r.refilling =
        { r.hand with
          items := r.hand.items ++ r.refilling } := by
    by_cases hRoom : r.hand.size ≤ r.hand.capacity
    · apply pushAll_of_room
      have hLength := DrawPile.length_draw r.pile
        r.hand.freeSlots
      change r.refilling.length = _ at hLength
      unfold Area.freeSlots at hLength
      omega
    · have hNone : r.refilling = [] := by
        have hFree : r.hand.freeSlots = 0 := by
          unfold Area.freeSlots
          omega
        simp [refilling, hFree, DrawPile.draw]
      simp [hNone, pushAll]
  simp only [refill]
  rw [← hPush]
  rfl

@[simp] theorem refill_events
    (r : Run) :
    r.refill.events = dealt r.refilling.length := rfl

@[simp] theorem refill_progress
    (r : Run) :
    r.refill.run.progress = r.progress := rfl

@[simp] theorem refill_selection
    (r : Run) :
    r.refill.run.selection = r.selection := rfl

@[simp] theorem refill_jokers
    (r : Run) :
    r.refill.run.jokers = r.jokers := rfl

@[simp] theorem refill_shop
    (r : Run) :
    r.refill.run.shop = r.shop := rfl

/- The run with a shuffled pile and an empty table. -/
theorem deal_eq
    (r : Run) :
    r.deal =
      { r with
        generator :=
          ((DrawPile.standard r.chips).shuffle
            r.generator).2
        pile :=
          ((DrawPile.standard r.chips).shuffle
            r.generator).1
        hand := r.hand.clear
        shop := r.shop.cancel
        selection := []
        progress :=
          { r.progress with
            score := 0
            handsLeft := r.rules.run.handsPerRound
            discardsLeft := r.rules.run.discardsPerRound
            phase := .play } } := by
  unfold deal
  -- The shuffle stays closed: only its result matters here.
  generalize
    (DrawPile.standard r.chips).shuffle r.generator = dealt
  rfl

/- A round won, with what restocking leaves. -/
theorem clearRound_run
    (r : Run) :
    r.clearRound.run =
      { r with
        generator :=
          (r.shop.restock r.catalog r.generator).2
        shop := (r.shop.restock r.catalog r.generator).1
        selection := []
        progress :=
          { r.progress with
            money :=
              Amount.add r.progress.money
                r.rules.run.clearReward
            target :=
              r.rules.run.nextTarget r.progress.target
            round := r.progress.round + 1
            phase := .shop } } := by
  unfold clearRound
  generalize r.shop.restock r.catalog r.generator = stocked
  rfl

------------------------------------------------------------
-- Ways An Action Can End
------------------------------------------------------------

/- A selection as actions keep it: ascending, in the hand. -/
structure InOrder (r : Run) : Prop where
  ascending : Positions.Ascending r.selection
  inside : ∀ i ∈ r.selection, i < r.hand.size

/- What playing the selected cards needs. -/
structure MayPlay (r : Run) : Prop where
  phase : r.phase = .play
  handsLeft : 0 < r.progress.handsLeft
  selected : r.selection ≠ []

/- What discarding the selected cards needs. -/
structure MayDiscard (r : Run) : Prop where
  phase : r.phase = .play
  discardsLeft : 0 < r.progress.discardsLeft
  selected : r.selection ≠ []

/- The hand without the selected cards. -/
def keptHand
    (r : Run) : Area Card :=
  { r.hand with items := r.unselectedCards }

/- The run whose hand is scored, before cards are dealt. -/
def scoredRun
    (r : Run) : Run :=
  r.scoreHand r.keptHand r.playSummary

/- The run whose discard is paid, before cards are dealt. -/
def paidRun
    (r : Run) : Run :=
  r.payDiscard r.keptHand r.discardSummary

/- What a played hand announces before the round may end. -/
def handEvents
    (r : Run) : List Event :=
  scored r.playSummary :: r.scoredRun.refill.events

/-
  The ways in which an action ends on a run whose selection
  is in order: the answer, the run after it, the events.
-/
inductive Step (r : Run) :
    Action → Except RunError Reply → Run → List Event →
      Prop where
  | refused
      (a : Action)
      (e : RunError) :
      Step r a (.error e) r []
  | started
      (hPhase : r.phase = .setup ∨ r.phase = .shop) :
      Step r .start (.ok .done) r.deal.refill.run
        (r.deal.started :: r.deal.refill.events)
  | nextStarted
      (hPhase : r.phase = .shop) :
      Step r .next (.ok .done) r.deal.refill.run
        (r.deal.started :: r.deal.refill.events)
  | refilled :
      Step r .refill (.ok .done) r.refill.run
        r.refill.events
  | unselected
      {i : Nat}
      (hPhase : r.phase = .play)
      (hSelected : i ∈ r.selection) :
      Step r (.toggle i) (.ok (.selected false))
        { r with selection := r.selection.erase i } []
  | selected
      {i : Nat}
      (hPhase : r.phase = .play)
      (hInside : i < r.hand.size)
      (hNew : i ∉ r.selection)
      (hRoom :
        r.selection.length < r.rules.run.maxSelection) :
      Step r (.toggle i) (.ok (.selected true))
        { r with
          selection := Positions.sort (r.selection ++ [i]) }
        []
  | selectionCleared :
      Step r .clearSelection (.ok .done)
        r.clearSelection []
  | played
      (hMay : r.MayPlay)
      (hShort :
        r.scoredRun.progress.score <
          r.scoredRun.progress.target)
      (hLeft : 0 < r.scoredRun.progress.handsLeft) :
      Step r .play (.ok (.played r.playSummary))
        r.scoredRun.refill.run r.handEvents
  | won
      (hMay : r.MayPlay)
      (hReached :
        r.scoredRun.progress.target ≤
          r.scoredRun.progress.score) :
      Step r .play (.ok (.played r.playSummary))
        r.scoredRun.refill.run.clearRound.run
        (r.handEvents ++
          r.scoredRun.refill.run.clearRound.events)
  | lost
      (hMay : r.MayPlay)
      (hShort :
        r.scoredRun.progress.score <
          r.scoredRun.progress.target)
      (hNoneLeft : r.scoredRun.progress.handsLeft = 0) :
      Step r .play (.ok (.played r.playSummary))
        r.scoredRun.refill.run.loseRun.run
        (r.handEvents ++
          r.scoredRun.refill.run.loseRun.events)
  | discarded
      (hMay : r.MayDiscard) :
      Step r .discard (.ok (.discarded r.discardSummary))
        r.paidRun.refill.run
        (.discarded r.selectedCards.length
            r.discardSummary.dollars ::
          r.paidRun.refill.events)
  | waiting
      {offer : Nat}
      {a : Ability}
      (hPhase : r.phase = .shop)
      (hOffer : r.shop.offers.get? offer = some a)
      (hMoney : a.cost ≤ r.progress.money)
      (hFull : r.jokers.capacity ≤ r.jokers.size) :
      Step r (.buy offer)
        (.ok (.purchase (.needsReplacement offer)))
        { r with shop := r.shop.withPending offer } []
  | bought
      {offer : Nat}
      {a : Ability}
      (hPhase : r.phase = .shop)
      (hOffer : r.shop.offers.get? offer = some a)
      (hMoney : a.cost ≤ r.progress.money)
      (hRoom : r.jokers.size < r.jokers.capacity) :
      Step r (.buy offer)
        (.ok (.purchase (.bought r.jokers.size)))
        (r.withCounter (r.counter.afterBuying offer a))
        [.jokerBought a.id a.cost
          (r.progress.money - a.cost)]
  | replaced
      {slot offer : Nat}
      {a old : Ability}
      (hPhase : r.phase = .shop)
      (hPending : r.shop.pending = some offer)
      (hOffer : r.shop.offers.get? offer = some a)
      (hMoney : a.cost ≤ r.progress.money)
      (hSlot : r.jokers.get? slot = some old) :
      Step r (.replace slot) (.ok .done)
        (r.withCounter
          (r.counter.afterReplacing offer slot a))
        [.jokerReplaced old.id a.id a.cost
          (r.progress.money - a.cost)]
  | purchaseCancelled :
      Step r .cancelPurchase (.ok .done)
        r.cancelPurchase []
  | rerolled
      (hPhase : r.phase = .shop)
      (hMoney : r.shop.rerollCost ≤ r.progress.money) :
      Step r .reroll
        (.ok (.offers
          (r.shop.restock r.catalog
            r.generator).1.offers.size))
        { r with
          generator :=
            (r.shop.restock r.catalog r.generator).2
          shop := (r.shop.restock r.catalog r.generator).1
          progress :=
            { r.progress with
              money :=
                r.progress.money - r.shop.rerollCost } }
        [.shopRestocked
          (r.shop.restock r.catalog
            r.generator).1.offers.size
          (r.progress.money - r.shop.rerollCost)]
  | sold
      {slot : Nat}
      {a : Ability}
      (hPhase : r.phase ≠ .gameOver)
      (hSlot : r.jokers.get? slot = some a) :
      Step r (.sell slot) (.ok (.value a.sellValue))
        { r with
          jokers :=
            { r.jokers with
              items := r.jokers.items.eraseIdx slot }
          shop := r.shop.cancel
          progress :=
            { r.progress with
              money :=
                Amount.add r.progress.money a.sellValue } }
        [.jokerSold a.id a.sellValue
          (Amount.add r.progress.money a.sellValue)]
  | added
      {id : String}
      {a : Ability}
      (hEntry : r.catalog.get? id = some a)
      (hRoom : r.jokers.size < r.jokers.capacity) :
      Step r (.addJoker id)
        (.ok (.added (some r.jokers.size)))
        { r with
          jokers :=
            { r.jokers with items := r.jokers.items ++ [a] } }
        []
  | notAdded
      (id : String) :
      Step r (.addJoker id) (.ok (.added none)) r []

------------------------------------------------------------
-- Ways A Toggle Can End
------------------------------------------------------------

/- The ways in which a toggle ends in a round. -/
inductive Toggles
    (r : Run)
    (i : Nat) : Turn Bool → Prop where
  | outside
      (hOutside : r.hand.size ≤ i) :
      Toggles r i (.refuse r (.invalidCardIndex i))
  | unselected
      (hInside : i < r.hand.size)
      (hSelected : i ∈ r.selection) :
      Toggles r i
        (.quiet
          { r with selection := r.selection.erase i }
          false)
  | full
      (hInside : i < r.hand.size)
      (hNew : i ∉ r.selection)
      (hFull :
        r.rules.run.maxSelection ≤ r.selection.length) :
      Toggles r i
        (.refuse r
          (.selectionFull r.rules.run.maxSelection))
  | selected
      (hInside : i < r.hand.size)
      (hNew : i ∉ r.selection)
      (hRoom :
        r.selection.length < r.rules.run.maxSelection) :
      Toggles r i
        (.quiet
          { r with
            selection :=
              Positions.sort (r.selection ++ [i]) }
          true)

/- In a round a toggle ends in one of these ways. -/
theorem toggles_toggle
    {r : Run}
    (hPhase : r.phase = .play)
    (i : Nat) :
    r.Toggles i (r.toggle i) := by
  by_cases hOutside : r.hand.size ≤ i
  · have hNone := (Area.get?_isNone_iff r.hand i).mpr hOutside
    simp only [toggle, hPhase, ne_eq, not_true, if_false,
      hNone, if_true]
    exact Toggles.outside hOutside
  · have hInside := Nat.lt_of_not_le hOutside
    have hSome : ¬ (r.hand.get? i).isNone = true := by
      rw [Area.get?_isNone_iff]
      exact hOutside
    by_cases hSelected : i ∈ r.selection
    · simp only [toggle, hPhase, ne_eq, not_true, if_false,
        hSome, hSelected, if_true]
      exact Toggles.unselected hInside hSelected
    · by_cases hFull :
          r.rules.run.maxSelection ≤ r.selection.length
      · simp only [toggle, hPhase, ne_eq, not_true,
          if_false, hSome, hSelected, hFull, if_true]
        exact Toggles.full hInside hSelected hFull
      · simp only [toggle, hPhase, ne_eq, not_true,
          if_false, hSome, hSelected, hFull]
        exact Toggles.selected hInside hSelected
          (Nat.lt_of_not_le hFull)

------------------------------------------------------------
-- Every Action Ends In One Of These Ways
------------------------------------------------------------

/- The turn of an action ends in one of the listed ways. -/
def Ends
    (r : Run)
    (a : Action) : Prop :=
  Step r a (r.perform a).answer (r.perform a).run
    (r.perform a).events

/- Handing the counter back unchanged changes nothing. -/
@[simp] theorem withCounter_counter
    (r : Run) :
    r.withCounter r.counter = r := rfl

/- A refusal is one of the ways. -/
theorem ends_of_refuse
    {r : Run}
    {a : Action}
    {e : RunError}
    (hRefuse : r.perform a = .refuse r e) :
    r.Ends a := by
  unfold Ends
  rw [hRefuse]
  exact Step.refused a e

theorem ends_start
    (r : Run) :
    r.Ends .start := by
  by_cases hPhase : r.phase = .setup ∨ r.phase = .shop
  · unfold Ends
    simp only [perform, startRound, hPhase, if_true,
      Turn.map]
    exact Step.started hPhase
  · apply ends_of_refuse (e := .invalidPhase r.phase)
    simp only [perform, startRound, hPhase, if_false]
    rfl

theorem ends_next
    (r : Run) :
    r.Ends .next := by
  by_cases hPhase : r.phase = .shop
  · unfold Ends
    simp only [perform, nextRound, startRound, hPhase,
      or_true, if_true, Turn.map]
    exact Step.nextStarted hPhase
  · apply ends_of_refuse (e := .invalidPhase r.phase)
    simp only [perform, nextRound, hPhase, if_false]
    rfl

theorem ends_toggle
    (r : Run)
    (i : Nat) :
    r.Ends (.toggle i) := by
  by_cases hPhase : r.phase = .play
  · have hToggles := toggles_toggle hPhase i
    change Step r (.toggle i)
      ((r.toggle i).map Reply.selected).answer
      (r.toggle i).run (r.toggle i).events
    generalize r.toggle i = t at hToggles ⊢
    cases hToggles with
    | outside | full => exact Step.refused _ _
    | unselected hInside hSelected =>
        exact Step.unselected hPhase hSelected
    | selected hInside hNew hRoom =>
        exact Step.selected hPhase hInside hNew hRoom
  · apply ends_of_refuse (e := .invalidPhase r.phase)
    simp only [perform, toggle, hPhase, ne_eq,
      not_false_eq_true, if_true]
    rfl

/-
  A selection in order is taken out of the hand: the
  selected cards leave and the others stay.
-/
theorem InOrder.takeMany_selection
    {r : Run}
    (hOrder : r.InOrder) :
    r.hand.takeMany r.selection =
      .ok (r.selectedCards, r.keptHand) :=
  Area.takeMany_of_ascending hOrder.ascending hOrder.inside

theorem ends_play
    {r : Run}
    (hOrder : r.InOrder) :
    r.Ends .play := by
  by_cases hPhase : r.phase = .play
  · by_cases hNone : r.progress.handsLeft = 0
    · apply ends_of_refuse (e := .noHandsLeft)
      simp only [perform, play, hPhase, ne_eq, not_true,
        if_false, hNone, if_true]
      rfl
    · by_cases hEmpty : r.selection = []
      · apply ends_of_refuse (e := .emptySelection)
        simp only [perform, play, hPhase, ne_eq, not_true,
          if_false, hNone, hEmpty, if_true]
        rfl
      · have hMay : r.MayPlay :=
          ⟨hPhase, Nat.pos_of_ne_zero hNone, hEmpty⟩
        unfold Ends
        simp only [perform, play, hPhase, ne_eq, not_true,
          if_false, hNone, hEmpty,
          hOrder.takeMany_selection, Turn.map]
        change Step r .play (.ok (.played r.playSummary))
          r.scoredRun.refill.run.settle.run
          (r.handEvents ++
            r.scoredRun.refill.run.settle.events)
        -- The last hand may have won or lost the round.
        unfold settle
        simp only [refill_progress]
        by_cases hReached :
            r.scoredRun.progress.target ≤
              r.scoredRun.progress.score
        · simp only [hReached, if_true]
          exact Step.won hMay hReached
        · have hShort := Int.not_le.mp hReached
          by_cases hLast :
              r.scoredRun.progress.handsLeft = 0
          · simp only [hReached, if_false, hLast, if_true]
            exact Step.lost hMay hShort hLast
          · simp only [hReached, if_false, hLast,
              Turn.quiet, List.append_nil]
            exact Step.played hMay hShort
              (Nat.pos_of_ne_zero hLast)
  · apply ends_of_refuse (e := .invalidPhase r.phase)
    simp only [perform, play, hPhase, ne_eq,
      not_false_eq_true, if_true]
    rfl

theorem ends_discard
    {r : Run}
    (hOrder : r.InOrder) :
    r.Ends .discard := by
  by_cases hPhase : r.phase = .play
  · by_cases hNone : r.progress.discardsLeft = 0
    · apply ends_of_refuse (e := .noDiscardsLeft)
      simp only [perform, discard, hPhase, ne_eq, not_true,
        if_false, hNone, if_true]
      rfl
    · by_cases hEmpty : r.selection = []
      · apply ends_of_refuse (e := .emptySelection)
        simp only [perform, discard, hPhase, ne_eq,
          not_true, if_false, hNone, hEmpty, if_true]
        rfl
      · unfold Ends
        simp only [perform, discard, hPhase, ne_eq,
          not_true, if_false, hNone, hEmpty,
          hOrder.takeMany_selection, Turn.map]
        exact Step.discarded
          ⟨hPhase, Nat.pos_of_ne_zero hNone, hEmpty⟩
  · apply ends_of_refuse (e := .invalidPhase r.phase)
    simp only [perform, discard, hPhase, ne_eq,
      not_false_eq_true, if_true]
    rfl

theorem ends_buy
    (r : Run)
    (offer : Nat) :
    r.Ends (.buy offer) := by
  by_cases hPhase : r.phase = .shop
  · rcases r.counter.buy_cases offer with
      ⟨e, hBuy⟩ | ⟨a, hOffer, hMoney, hFull, hBuy⟩ |
        ⟨a, hOffer, hMoney, hRoom, hBuy⟩
    · apply ends_of_refuse (e := .shop e)
      simp only [perform, buy, hPhase, ne_eq, not_true,
        if_false, hBuy, withCounter_counter]
      rfl
    · unfold Ends
      simp only [perform, buy, hPhase, ne_eq, not_true,
        if_false, hBuy]
      exact Step.waiting hPhase hOffer hMoney hFull
    · change r.shop.offers.get? offer = some a at hOffer
      unfold Ends
      simp only [perform, buy, hPhase, ne_eq, not_true,
        if_false, hBuy, hOffer]
      exact Step.bought hPhase hOffer hMoney hRoom
  · apply ends_of_refuse (e := .invalidPhase r.phase)
    simp only [perform, buy, hPhase, ne_eq,
      not_false_eq_true, if_true]
    rfl

theorem ends_replace
    (r : Run)
    (slot : Nat) :
    r.Ends (.replace slot) := by
  by_cases hPhase : r.phase = .shop
  · rcases r.counter.replace_cases slot with
      ⟨e, hReplace⟩ |
        ⟨offer, a, old, hPending, hOffer, hMoney, hSlot,
          hReplace⟩
    · apply ends_of_refuse (e := .shop e)
      simp only [perform, replace, hPhase, ne_eq, not_true,
        if_false, hReplace, withCounter_counter]
      rfl
    · -- The new joker is found in the slot, and the money
      -- that is gone is its price.
      have hNew :
          (r.counter.afterReplacing offer slot a).jokers.get?
              slot = some a := by
        have hInside : slot < r.jokers.items.length :=
          (List.getElem?_eq_some_iff.mp hSlot).1
        exact List.getElem?_set_self hInside
      have hPaid :
          r.progress.money -
              (r.counter.afterReplacing offer slot a).money =
            a.cost :=
        Int.sub_sub_self r.progress.money a.cost
      unfold Ends
      simp only [perform, replace, hPhase, ne_eq, not_true,
        if_false, hReplace, hNew, hPaid]
      exact Step.replaced hPhase hPending hOffer hMoney hSlot
  · apply ends_of_refuse (e := .invalidPhase r.phase)
    simp only [perform, replace, hPhase, ne_eq,
      not_false_eq_true, if_true]
    rfl

theorem ends_reroll
    (r : Run) :
    r.Ends .reroll := by
  by_cases hPhase : r.phase = .shop
  · rcases r.counter.reroll_cases r.catalog r.generator with
      ⟨e, hReroll⟩ | ⟨hMoney, hReroll⟩
    · apply ends_of_refuse (e := .shop e)
      simp only [perform, reroll, hPhase, ne_eq, not_true,
        if_false, hReroll, withCounter_counter]
      rfl
    · unfold Ends
      simp only [perform, reroll, hPhase, ne_eq, not_true,
        if_false, hReroll]
      exact Step.rerolled hPhase hMoney
  · apply ends_of_refuse (e := .invalidPhase r.phase)
    simp only [perform, reroll, hPhase, ne_eq,
      not_false_eq_true, if_true]
    rfl

theorem ends_sell
    (r : Run)
    (slot : Nat) :
    r.Ends (.sell slot) := by
  by_cases hOver : r.phase = .gameOver
  · apply ends_of_refuse (e := .invalidPhase r.phase)
    simp only [perform, sell, hOver, if_true]
    rfl
  · cases hSlot : r.jokers.get? slot with
    | none =>
        have hTake :
            r.jokers.take slot =
              .error (.invalidIndex slot) := by
          unfold Area.get? at hSlot
          simp only [Area.take, hSlot]
        apply ends_of_refuse (e := .invalidJokerIndex slot)
        simp only [perform, sell, hOver, if_false, hTake]
        rfl
    | some a =>
        unfold Ends
        simp only [perform, sell, hOver, if_false,
          Area.take_of_get? hSlot]
        exact Step.sold hOver hSlot

theorem ends_addJoker
    (r : Run)
    (id : String) :
    r.Ends (.addJoker id) := by
  unfold Ends
  cases hEntry : r.catalog.get? id with
  | none =>
      simp only [perform, addJoker, hEntry]
      exact Step.notAdded id
  | some a =>
      by_cases hRoom : r.jokers.size < r.jokers.capacity
      · simp only [perform, addJoker, hEntry,
          Area.push_of_room hRoom]
        exact Step.added hEntry hRoom
      · have hFull : r.jokers.isFull = true := by
          rw [Area.isFull_iff]
          omega
        simp only [perform, addJoker, hEntry, Area.push,
          hFull, if_true]
        exact Step.notAdded id

/- Every action ends in one of the listed ways. -/
theorem step_perform
    {r : Run}
    (hOrder : r.InOrder)
    (a : Action) :
    Step r a (r.perform a).answer (r.perform a).run
      (r.perform a).events := by
  cases a with
  | start => exact ends_start r
  | next => exact ends_next r
  | refill => exact Step.refilled
  | toggle i => exact ends_toggle r i
  | clearSelection => exact Step.selectionCleared
  | play => exact ends_play hOrder
  | discard => exact ends_discard hOrder
  | buy offer => exact ends_buy r offer
  | replace slot => exact ends_replace r slot
  | cancelPurchase => exact Step.purchaseCancelled
  | reroll => exact ends_reroll r
  | sell slot => exact ends_sell r slot
  | addJoker id => exact ends_addJoker r id

------------------------------------------------------------
-- What No Action Changes
------------------------------------------------------------

/- Two runs that are played with the same things. -/
structure SameTable (r r' : Run) : Prop where
  rules : r'.rules = r.rules
  chips : r'.chips = r.chips
  catalog : r'.catalog = r.catalog
  rerollCost : r'.shop.rerollCost = r.shop.rerollCost

theorem sameTable_refill
    (r : Run) :
    SameTable r r.refill.run :=
  ⟨rfl, rfl, rfl, rfl⟩

theorem sameTable_deal
    (r : Run) :
    SameTable r r.deal := by
  rw [deal_eq]
  exact ⟨rfl, rfl, rfl, rfl⟩

theorem sameTable_scoredRun
    (r : Run) :
    SameTable r r.scoredRun :=
  ⟨rfl, rfl, rfl, rfl⟩

theorem sameTable_clearRound
    (r : Run) :
    SameTable r r.clearRound.run := by
  rw [clearRound_run]
  exact ⟨rfl, rfl, rfl, Shop.rerollCost_restock _ _ _⟩

theorem SameTable.trans
    {r s t : Run}
    (hFirst : SameTable r s)
    (hSecond : SameTable s t) :
    SameTable r t where
  rules := hSecond.rules.trans hFirst.rules
  chips := hSecond.chips.trans hFirst.chips
  catalog := hSecond.catalog.trans hFirst.catalog
  rerollCost := hSecond.rerollCost.trans hFirst.rerollCost

/- What a run is played with stays, however an action ends. -/
theorem Step.sameTable
    {r r' : Run}
    {a : Action}
    {answer : Except RunError Reply}
    {events : List Event}
    (hStep : Step r a answer r' events) :
    SameTable r r' := by
  cases hStep with
  | started | nextStarted =>
      exact (sameTable_deal r).trans
        (sameTable_refill r.deal)
  | won =>
      exact ((sameTable_scoredRun r).trans
        (sameTable_refill _)).trans (sameTable_clearRound _)
  | rerolled =>
      exact ⟨rfl, rfl, rfl, Shop.rerollCost_restock _ _ _⟩
  | refused | refilled | unselected | selected
  | selectionCleared | played | lost | discarded | waiting
  | bought | replaced | purchaseCancelled | sold | added
  | notAdded =>
      exact ⟨rfl, rfl, rfl, rfl⟩

end Run

end JokerRun
