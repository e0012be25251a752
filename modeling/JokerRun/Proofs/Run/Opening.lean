import JokerRun.Proofs.Run.Selection

/-
  A round that starts can be played.

  Starting deals as many cards as the hand and the pile
  allow, and a dealt card can be selected.  Playing it ends
  in the shop when the target is reached, and it loses the
  run when the hand was the last one and fell short.

  Key definitions include:
    * `Run.MayOpen`
    * `Run.firstPlayed`
    * `Run.startedRun`

  Key theorems include:
    * `Run.perform_start`
    * `Run.size_deal_refill`
    * `Run.perform_toggle_new`
    * `Run.perform_play`
    * `Run.mayPlay_opened`
    * `Run.firstPlayed_of_reached`
    * `Run.firstPlayed_of_short`
-/

------------------------------------------------------------
-- Accepted Actions
------------------------------------------------------------

namespace JokerRun

namespace Run

/- A round starts before the first one and from the shop. -/
theorem perform_start
    {r : Run}
    (hPhase : r.phase = .setup ∨ r.phase = .shop) :
    (r.perform .start).answer = .ok .done ∧
      (r.perform .start).run = r.deal.refill.run := by
  constructor
  · simp only [perform, startRound, hPhase, if_true,
      Turn.map]
    rfl
  · simp only [perform, startRound, hPhase, if_true,
      Turn.map]

/- A card that is not selected yet is selected. -/
theorem perform_toggle_new
    {r : Run}
    {i : Nat}
    (hPhase : r.phase = .play)
    (hInside : i < r.hand.size)
    (hNew : i ∉ r.selection)
    (hRoom :
      r.selection.length < r.rules.run.maxSelection) :
    (r.perform (.toggle i)).answer = .ok (.selected true) ∧
      (r.perform (.toggle i)).run =
        { r with
          selection :=
            Positions.sort (r.selection ++ [i]) } := by
  have hToggles := toggles_toggle hPhase i
  change
    ((r.toggle i).map Reply.selected).answer =
        .ok (.selected true) ∧
      (r.toggle i).run = _
  generalize r.toggle i = t at hToggles ⊢
  cases hToggles with
  | outside hOutside =>
      exact absurd hInside (Nat.not_lt_of_le hOutside)
  | unselected _ hSelected => exact absurd hSelected hNew
  | full _ _ hFull =>
      exact absurd hRoom (Nat.not_lt_of_le hFull)
  | selected => exact ⟨rfl, rfl⟩

/- Selected cards are played, and the round may end. -/
theorem perform_play
    {r : Run}
    (hOrder : r.InOrder)
    (hMay : r.MayPlay) :
    (r.perform .play).answer =
        .ok (.played r.playSummary) ∧
      (r.perform .play).run =
        r.scoredRun.refill.run.settle.run := by
  have hLeft : r.progress.handsLeft ≠ 0 :=
    Nat.ne_of_gt hMay.handsLeft
  simp only [perform, play, hMay.phase, ne_eq, not_true,
    if_false, hLeft, hMay.selected,
    hOrder.takeMany_selection, Turn.map]
  exact ⟨rfl, rfl⟩

/- A played hand that reaches the target clears the round. -/
theorem perform_play_won
    {r : Run}
    (hOrder : r.InOrder)
    (hMay : r.MayPlay)
    (hReached :
      r.scoredRun.progress.target ≤
        r.scoredRun.progress.score) :
    (r.perform .play).run =
      r.scoredRun.refill.run.clearRound.run := by
  rw [(perform_play hOrder hMay).2]
  simp only [settle, refill_progress, hReached, if_true]

/- A last hand that falls short loses the run. -/
theorem perform_play_lost
    {r : Run}
    (hOrder : r.InOrder)
    (hMay : r.MayPlay)
    (hShort :
      r.scoredRun.progress.score <
        r.scoredRun.progress.target)
    (hNoneLeft : r.scoredRun.progress.handsLeft = 0) :
    (r.perform .play).run =
      r.scoredRun.refill.run.loseRun.run := by
  have hNotReached := Int.not_le.mpr hShort
  rw [(perform_play hOrder hMay).2]
  simp only [settle, refill_progress, hNotReached, if_false,
    hNoneLeft, if_true]

------------------------------------------------------------
-- The First Card Of A Round
------------------------------------------------------------

/-
  What a round needs to be started, and its card at a
  position to be selected and played.
-/
structure MayOpen
    (r : Run)
    (i : Nat) : Prop where
  phase : r.phase = .setup ∨ r.phase = .shop
  inside : i < min r.hand.capacity 52
  selectable : 0 < r.rules.run.maxSelection
  hands : 0 < r.rules.run.handsPerRound

/- A round starts with a full hand, or with all 52 cards. -/
theorem size_deal_refill
    (r : Run) :
    r.deal.refill.run.hand.size =
      min r.hand.capacity 52 := by
  have hPile :
      ((DrawPile.standard r.chips).shuffle
        r.generator).1.cards.length = 52 := by
    rw [(DrawPile.shuffle_cards_perm _ _).length_eq]
    exact (DrawPile.complete_of_perm
      (List.Perm.refl _)).size
  rw [refill_run]
  unfold Area.size refilling
  rw [List.length_append, DrawPile.length_draw, deal_eq]
  simp only [Area.items_clear, List.length_nil, Nat.zero_add,
    hPile]
  rfl

section

variable {r : Run}
variable {i : Nat}

/- A round started and one of its cards selected. -/
theorem performAll_start_toggle
    (hOpen : r.MayOpen i) :
    r.performAll [.start, .toggle i] =
      { r.deal.refill.run with selection := [i] } := by
  have hEmpty : r.deal.refill.run.selection = [] := by
    rw [refill_selection, deal_eq]
  have hPlay : r.deal.refill.run.phase = .play := by
    rw [phase, refill_progress, deal_eq]
  have hRules : r.deal.refill.run.rules = r.rules :=
    ((sameTable_deal r).trans
      (sameTable_refill r.deal)).rules
  have hCard : i < r.deal.refill.run.hand.size := by
    rw [size_deal_refill]
    exact hOpen.inside
  have hNew : i ∉ r.deal.refill.run.selection := by
    rw [hEmpty]
    exact List.not_mem_nil
  have hRoom :
      r.deal.refill.run.selection.length <
        r.deal.refill.run.rules.run.maxSelection := by
    rw [hEmpty, hRules]
    exact hOpen.selectable
  have hToggle :=
    (perform_toggle_new hPlay hCard hNew hRoom).2
  rw [hEmpty] at hToggle
  rw [performAll, (perform_start hOpen.phase).2, performAll,
    hToggle]
  rfl

/- Until then a round changes neither jokers nor offers. -/
theorem opened_keeps
    (hOpen : r.MayOpen i) :
    (r.performAll [.start, .toggle i]).jokers = r.jokers ∧
      (r.performAll [.start, .toggle i]).shop =
        r.shop.cancel ∧
      SameTable r (r.performAll [.start, .toggle i]) := by
  have hDealt : SameTable r r.deal.refill.run :=
    (sameTable_deal r).trans (sameTable_refill r.deal)
  have hJokers : r.deal.refill.run.jokers = r.jokers := by
    rw [refill_jokers, deal_eq]
  have hShop : r.deal.refill.run.shop = r.shop.cancel := by
    rw [refill_shop, deal_eq]
  rw [performAll_start_toggle hOpen]
  -- The dealt run stays closed from here on.
  generalize r.deal.refill.run = dealt at *
  exact ⟨hJokers, hShop, hDealt.rules, hDealt.chips,
    hDealt.catalog, hDealt.rerollCost⟩

/- Its card can be played then. -/
theorem mayPlay_opened
    (hOpen : r.MayOpen i) :
    (r.performAll [.start, .toggle i]).MayPlay := by
  have hPlay : r.deal.refill.run.phase = .play := by
    rw [phase, refill_progress, deal_eq]
  have hLeft : 0 < r.deal.refill.run.progress.handsLeft := by
    rw [refill_progress, deal_eq]
    exact hOpen.hands
  rw [performAll_start_toggle hOpen]
  -- The dealt run stays closed from here on.
  generalize r.deal.refill.run = dealt at *
  exact ⟨hPlay, hLeft, List.cons_ne_nil i []⟩

------------------------------------------------------------
-- A Round Decided By Its First Hand
------------------------------------------------------------

/- The run after a round is started and one card played. -/
def firstPlayed
    (r : Run)
    (i : Nat) : Run :=
  r.performAll [.start, .toggle i, .play]

/- The run when the card is scored and none is dealt yet. -/
def firstScored
    (r : Run)
    (i : Nat) : Run :=
  (r.performAll [.start, .toggle i]).scoredRun

/- The first hand of a round scores from nothing. -/
theorem firstScored_progress
    (hOpen : r.MayOpen i) :
    (r.firstScored i).progress =
      { r.progress with
        phase := .play
        score :=
          Amount.add 0
            (r.performAll
              [.start, .toggle i]).playSummary.score
        handsLeft := r.rules.run.handsPerRound - 1
        discardsLeft := r.rules.run.discardsPerRound } := by
  unfold firstScored scoredRun
  generalize
    (r.performAll [.start, .toggle i]).playSummary = s
  rw [performAll_start_toggle hOpen]
  unfold scoreHand
  rw [refill_progress, deal_eq]

/- The lowest target is reached by any score. -/
theorem firstScored_reaches_lowest
    (hOpen : r.MayOpen i)
    (hTarget : r.progress.target = Amount.lowest) :
    (r.firstScored i).progress.target ≤
      (r.firstScored i).progress.score := by
  rw [firstScored_progress hOpen]
  simp only [hTarget]
  exact (Amount.clamp_inRange _).1

theorem inOrder_opened
    (hReachable : Reachable r)
    (i : Nat) :
    (r.performAll [.start, .toggle i]).InOrder :=
  inOrder_of_reachable
    (reachable_performAll hReachable [.start, .toggle i])

/- A card that reaches the target leads to a stocked shop. -/
theorem firstPlayed_of_reached
    (hReachable : Reachable r)
    (hOpen : r.MayOpen i)
    (hReached :
      (r.firstScored i).progress.target ≤
        (r.firstScored i).progress.score) :
    (r.firstPlayed i).phase = .shop ∧
      (r.firstPlayed i).jokers = r.jokers ∧
      (r.firstPlayed i).progress.money =
        Amount.add r.progress.money
          r.rules.run.clearReward ∧
      ∃ g, (r.firstPlayed i).shop.offers =
        (Shop.stock r.catalog r.shop.offers.capacity g).1 := by
  have hPlayed :
      r.firstPlayed i =
        (r.firstScored i).refill.run.clearRound.run :=
    perform_play_won (inOrder_opened hReachable i)
      (mayPlay_opened hOpen) hReached
  have hMoney :
      (r.firstScored i).progress.money =
        r.progress.money := by
    rw [firstScored_progress hOpen]
  rcases opened_keeps hOpen with
    ⟨hJokers, hShop, hTable⟩
  rw [hPlayed]
  unfold firstScored at *
  -- The opened run stays closed from here on.
  generalize r.performAll [.start, .toggle i] = opened at *
  rw [clearRound_run, refill_shop, Shop.restock_eq]
  refine ⟨rfl, hJokers, ?_, ?_⟩
  · rw [← hMoney, ← hTable.rules]
    rfl
  · rw [← hTable.catalog]
    change ∃ g,
      (Shop.stock opened.catalog opened.shop.offers.capacity
        opened.scoredRun.generator).1 = _
    rw [hShop]
    exact ⟨opened.scoredRun.generator, rfl⟩

/- A last card that falls short loses the run. -/
theorem firstPlayed_of_short
    (hReachable : Reachable r)
    (hOpen : r.MayOpen i)
    (hOnly : r.rules.run.handsPerRound = 1)
    (hShort :
      (r.firstScored i).progress.score <
        (r.firstScored i).progress.target) :
    (r.firstPlayed i).phase = .gameOver := by
  have hNoneLeft :
      (r.firstScored i).progress.handsLeft = 0 := by
    rw [firstScored_progress hOpen, hOnly]
  have hPlayed :
      r.firstPlayed i =
        (r.firstScored i).refill.run.loseRun.run :=
    perform_play_lost (inOrder_opened hReachable i)
      (mayPlay_opened hOpen) hShort hNoneLeft
  rw [hPlayed]
  rfl

end

------------------------------------------------------------
-- A Started Round
------------------------------------------------------------

/- A round that starts has a full hand, or all 52 cards. -/
theorem size_performAll_start
    {r : Run}
    (hPhase : r.phase = .setup ∨ r.phase = .shop) :
    (r.performAll [.start]).hand.size =
      min r.hand.capacity 52 := by
  rw [performAll, (perform_start hPhase).2, performAll,
    size_deal_refill]

/- A run in its first round, with nothing selected. -/
def startedRun : Run :=
  (Run.begin Rules.standard RankChips.standard Catalog.empty
      7).performAll [.start]

/- What a player finds in the started run. -/
structure IsStarted (r : Run) : Prop where
  reachable : Reachable r
  phase : r.phase = .play
  size : r.hand.size = 8
  unselected : r.selection = []
  limit : r.rules.run.maxSelection = 5

theorem isStarted_startedRun :
    startedRun.IsStarted := by
  have hDealt :
      startedRun =
        (Run.begin Rules.standard RankChips.standard
          Catalog.empty 7).deal.refill.run :=
    (perform_start (Or.inl rfl)).2
  refine ⟨?_, ?_, ?_, ?_, ?_⟩
  · exact reachable_performAll (Reachable.begin _ _ _ _) _
  · rw [hDealt, phase, refill_progress, deal_eq]
  · rw [startedRun, size_performAll_start (Or.inl rfl)]
    rfl
  · rw [hDealt, refill_selection, deal_eq]
  · rw [hDealt, refill_run, deal_eq]
    rfl

end Run

end JokerRun
