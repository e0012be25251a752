import JokerRun.Proofs.Run.Opening

/-
  Selected cards leave the hand and others come in.

  The cards that stay close up in their old order, and cards
  from the end of the pile follow them, the last one first,
  until the hand is full or the pile is empty.  Apart from
  that a discard changes money and the discards that are
  left, and a played hand changes the score, the hands that
  are left and what the end of a round brings.

  Key definitions include:
    * `Run.incoming`
    * `Run.replenished`
    * `Run.PlaysSelection`
    * `Run.DiscardsSelection`

  Key theorems include:
    * `Run.refill_run_of_kept`
    * `Run.playsSelection_of_mayPlay`
    * `Run.discardsSelection_of_mayDiscard`
    * `Run.selection_replaced_from_pile`
-/

------------------------------------------------------------
-- Cards That Come In
------------------------------------------------------------

namespace JokerRun

namespace Run

/- How many cards come in for the selected ones. -/
def incoming
    (r : Run) : Nat :=
  min (r.hand.capacity - r.unselectedCards.length)
    r.pile.cards.length

/-
  The run whose selected cards are gone and whose hand is
  filled up from the end of the pile.
-/
def replenished
    (r : Run) : Run :=
  let kept := r.pile.cards.length - r.incoming
  { r with
    hand :=
      { r.hand with
        items :=
          r.unselectedCards ++
            (r.pile.cards.drop kept).reverse }
    pile := { r.pile with cards := r.pile.cards.take kept }
    selection := [] }

/- The pile keeps what is drawn from a hand without room. -/
theorem draw_freeSlots_keptHand
    (r : Run) :
    r.pile.draw r.keptHand.freeSlots =
      ((r.pile.cards.drop
          (r.pile.cards.length - r.incoming)).reverse,
        r.replenished.pile) := by
  have hKept :
      r.pile.cards.length - r.keptHand.freeSlots =
        r.pile.cards.length - r.incoming := by
    change
      r.pile.cards.length -
          (r.hand.capacity - r.unselectedCards.length) =
        r.pile.cards.length - r.incoming
    unfold incoming
    omega
  simp only [DrawPile.draw, hKept, replenished]

/-
  A run that has lost the selected cards and nothing of its
  pile is filled up to the replenished hand and pile.
-/
theorem refill_run_of_kept
    {r s : Run}
    (hHand : s.hand = r.keptHand)
    (hPile : s.pile = r.pile) :
    s.refill.run =
      { s with
        hand := r.replenished.hand
        pile := r.replenished.pile } := by
  have hDraw := draw_freeSlots_keptHand r
  rw [refill_run]
  unfold refilling
  rw [hHand, hPile, hDraw]
  rfl

/- As many cards are dealt as come in. -/
theorem length_refilling_of_kept
    {r s : Run}
    (hHand : s.hand = r.keptHand)
    (hPile : s.pile = r.pile) :
    s.refilling.length = r.incoming := by
  unfold refilling
  rw [hHand, hPile, DrawPile.length_draw]
  rfl

------------------------------------------------------------
-- Results Of The Selected Cards
------------------------------------------------------------

/- What scoring the hand's cards at the selection gives. -/
def selectionScore
    (r : Run) : PlaySummary :=
  Scoring.play r.rules.hands
    (Area.chosen r.selection r.hand.items)
    (Area.others r.selection r.hand.items)
    r.jokers.items

/- What discarding the hand's cards at the selection gives. -/
def selectionRebate
    (r : Run) : DiscardSummary :=
  Scoring.discard
    (Area.chosen r.selection r.hand.items)
    r.jokers.items

/- A selection in order lists the cards as the hand does. -/
theorem InOrder.selectedCards_eq
    {r : Run}
    (hOrder : r.InOrder) :
    r.selectedCards =
      Area.chosen r.selection r.hand.items :=
  Area.filterMap_get_eq_chosen hOrder.ascending r.hand.items

theorem InOrder.playSummary_eq
    {r : Run}
    (hOrder : r.InOrder) :
    r.playSummary = r.selectionScore := by
  unfold playSummary selectionScore
  rw [hOrder.selectedCards_eq]
  rfl

theorem InOrder.discardSummary_eq
    {r : Run}
    (hOrder : r.InOrder) :
    r.discardSummary = r.selectionRebate := by
  unfold discardSummary selectionRebate
  rw [hOrder.selectedCards_eq]

------------------------------------------------------------
-- Playing
------------------------------------------------------------

/- The score once the selected cards are played. -/
def scoreAfter
    (r : Run) : Int :=
  Amount.add r.progress.score r.selectionScore.score

/-
  Playing scores the selected cards and replaces them.  A
  score below the target changes nothing else but the hands
  that are left, and without any left the run is lost; a
  score that reaches it clears the round.
-/
structure PlaysSelection (r : Run) : Prop where
  answer :
    (r.perform .play).answer =
      .ok (.played r.selectionScore)
  short :
    r.scoreAfter < r.progress.target →
      (r.perform .play).run =
        { r.replenished with
          progress :=
            { r.progress with
              score := r.scoreAfter
              handsLeft := r.progress.handsLeft - 1
              phase :=
                if r.progress.handsLeft = 1 then .gameOver
                else .play } }
  reached :
    r.progress.target ≤ r.scoreAfter →
      (r.perform .play).run =
        { r.replenished with
          generator :=
            (r.shop.restock r.catalog r.generator).2
          shop := (r.shop.restock r.catalog r.generator).1
          progress :=
            { r.progress with
              score := r.scoreAfter
              handsLeft := r.progress.handsLeft - 1
              money :=
                Amount.add r.progress.money
                  r.rules.run.clearReward
              target :=
                r.rules.run.nextTarget r.progress.target
              round := r.progress.round + 1
              phase := .shop } }

/- The run after a played hand, before the round may end. -/
theorem InOrder.refill_scoredRun
    {r : Run}
    (hOrder : r.InOrder) :
    r.scoredRun.refill.run =
      { r.replenished with
        progress :=
          { r.progress with
            score := r.scoreAfter
            handsLeft := r.progress.handsLeft - 1 } } := by
  have hRefill :=
    refill_run_of_kept (r := r) (s := r.scoredRun) rfl rfl
  have hScore :
      Amount.add r.progress.score r.playSummary.score =
        r.scoreAfter := by
    unfold scoreAfter
    rw [hOrder.playSummary_eq]
  rw [hRefill]
  unfold scoredRun scoreHand
  rw [hScore]
  rfl

theorem playsSelection_of_mayPlay
    {r : Run}
    (hOrder : r.InOrder)
    (hMay : r.MayPlay) :
    r.PlaysSelection := by
  rcases perform_play hOrder hMay with ⟨hAnswer, hRun⟩
  rw [hOrder.refill_scoredRun] at hRun
  have hPhase : r.progress.phase = .play := hMay.phase
  have hLeft := hMay.handsLeft
  refine ⟨?_, ?_, ?_⟩
  · rw [hAnswer, hOrder.playSummary_eq]
  · intro hShort
    have hNotReached := Int.not_le.mpr hShort
    rw [hRun]
    by_cases hLast : r.progress.handsLeft = 1
    · simp only [settle, hNotReached, if_false, hLast,
        Nat.sub_self, if_true, loseRun]
    · have hMore : r.progress.handsLeft - 1 ≠ 0 := by omega
      simp only [settle, hNotReached, if_false, hMore,
        Turn.quiet, hLast, hPhase]
  · intro hReached
    rw [hRun]
    simp only [settle, hReached, if_true]
    rw [clearRound_run]
    rfl

------------------------------------------------------------
-- Discarding
------------------------------------------------------------

/-
  Discarding pays for the selected cards and replaces them,
  and changes nothing else but the discards that are left.
-/
structure DiscardsSelection (r : Run) : Prop where
  answer :
    (r.perform .discard).answer =
      .ok (.discarded r.selectionRebate)
  run :
    (r.perform .discard).run =
      { r.replenished with
        progress :=
          { r.progress with
            money :=
              Amount.add r.progress.money
                r.selectionRebate.dollars
            discardsLeft := r.progress.discardsLeft - 1 } }
  events :
    (r.perform .discard).events =
      .discarded r.selection.length
          r.selectionRebate.dollars ::
        dealt r.incoming

theorem discardsSelection_of_mayDiscard
    {r : Run}
    (hOrder : r.InOrder)
    (hMay : r.MayDiscard) :
    r.DiscardsSelection := by
  have hLeft : r.progress.discardsLeft ≠ 0 :=
    Nat.ne_of_gt hMay.discardsLeft
  have hSummary := hOrder.discardSummary_eq
  have hCount :
      r.selectedCards.length = r.selection.length :=
    Area.length_filterMap_get? hOrder.inside
  have hRefill :=
    refill_run_of_kept (r := r) (s := r.paidRun) rfl rfl
  have hDealt :=
    length_refilling_of_kept (r := r) (s := r.paidRun)
      rfl rfl
  have hTurn :
      (r.perform .discard).answer =
          .ok (.discarded r.discardSummary) ∧
        (r.perform .discard).run = r.paidRun.refill.run ∧
        (r.perform .discard).events =
          .discarded r.selectedCards.length
              r.discardSummary.dollars ::
            r.paidRun.refill.events := by
    simp only [perform, discard, hMay.phase, ne_eq,
      not_true, if_false, hLeft, hMay.selected,
      hOrder.takeMany_selection, Turn.map]
    exact ⟨rfl, rfl, rfl⟩
  rcases hTurn with ⟨hAnswer, hRun, hEvents⟩
  refine ⟨?_, ?_, ?_⟩
  · rw [hAnswer, hSummary]
  · rw [hRun, hRefill]
    unfold paidRun payDiscard
    rw [hSummary]
    rfl
  · rw [hEvents, refill_events, hDealt, hSummary, hCount]

------------------------------------------------------------
-- Reachable Runs
------------------------------------------------------------

/-
  In a round of a reachable run, selected cards are played
  when a hand is left and discarded when a discard is left.
  Either way their result is the one of the cards in the
  order of the hand, and the hand is replenished.
-/
theorem selection_replaced_from_pile
    {r : Run}
    (hReachable : Reachable r)
    (hPhase : r.phase = .play)
    (hSelected : r.selection ≠ []) :
    (0 < r.progress.handsLeft → r.PlaysSelection) ∧
      (0 < r.progress.discardsLeft →
        r.DiscardsSelection) := by
  have hOrder := inOrder_of_reachable hReachable
  constructor
  · intro hHands
    exact playsSelection_of_mayPlay hOrder
      ⟨hPhase, hHands, hSelected⟩
  · intro hDiscards
    exact discardsSelection_of_mayDiscard hOrder
      ⟨hPhase, hDiscards, hSelected⟩

/- A round starts with all its discards. -/
theorem discardsLeft_opened
    {r : Run}
    {i : Nat}
    (hOpen : r.MayOpen i) :
    (r.performAll
        [.start, .toggle i]).progress.discardsLeft =
      r.rules.run.discardsPerRound := by
  have hDealt :
      r.deal.refill.run.progress.discardsLeft =
        r.rules.run.discardsPerRound := by
    rw [refill_progress, deal_eq]
  rw [performAll_start_toggle hOpen]
  -- The dealt run stays closed from here on.
  generalize r.deal.refill.run = dealt at *
  exact hDealt

/- A run in its first round, with its third card selected. -/
def thirdSelected : Run :=
  (Run.begin Rules.standard RankChips.standard Catalog.empty
      7).performAll [.start, .toggle 2]

theorem selection_replaced_from_pile_third :
    Reachable thirdSelected ∧ thirdSelected.phase = .play ∧
      thirdSelected.selection ≠ [] ∧
      0 < thirdSelected.progress.handsLeft ∧
      0 < thirdSelected.progress.discardsLeft ∧
      thirdSelected.PlaysSelection ∧
      thirdSelected.DiscardsSelection := by
  have hReachable : Reachable thirdSelected :=
    reachable_performAll (Reachable.begin _ _ _ _)
      [.start, .toggle 2]
  have hOpen :
      (Run.begin Rules.standard RankChips.standard
        Catalog.empty 7).MayOpen 2 :=
    ⟨Or.inl rfl, by decide, by decide, by decide⟩
  have hMay : thirdSelected.MayPlay := mayPlay_opened hOpen
  have hDiscards :
      0 < thirdSelected.progress.discardsLeft := by
    rw [thirdSelected, discardsLeft_opened hOpen]
    decide
  rcases selection_replaced_from_pile hReachable hMay.phase
      hMay.selected with ⟨hPlays, hDiscardsSelection⟩
  exact ⟨hReachable, hMay.phase, hMay.selected,
    hMay.handsLeft, hDiscards, hPlays hMay.handsLeft,
    hDiscardsSelection hDiscards⟩

end Run

end JokerRun
