import JokerRun.Proofs.Run.Limits
import JokerRun.Proofs.Run.Phases

/-
  A round never runs out of cards before it is decided.

  Every hand and every discard takes at most a selection of
  cards from the table, and a round that is still played has
  a hand left.  So if all the other hands and discards
  together cannot take the 52 cards, there is a card left to
  play, and playing on decides the round.

  Key definitions include:
    * `RunRules.Lasting`
    * `Run.used`
    * `Run.Supplied`
    * `Run.Accepts`
    * `Run.PlaysOn`

  Key theorems include:
    * `Run.supplied_step`
    * `Run.supplied_of_reachable`
    * `Run.accepts_playFirst`
    * `Run.round_plays_on`
-/

------------------------------------------------------------
-- The Supply Of Cards
------------------------------------------------------------

namespace JokerRun

/- The most cards that one hand or discard takes. -/
def RunRules.mostTaken
    (rules : RunRules) : Nat :=
  min rules.handSize rules.maxSelection

/-
  Rules under which a round can be played, and under which
  all hands and discards but one leave a card.
-/
structure RunRules.Lasting (rules : RunRules) : Prop where
  hands : 1 ≤ rules.handsPerRound
  slots : 1 ≤ rules.handSize
  selectable : 1 ≤ rules.maxSelection
  cards :
    (rules.handsPerRound + rules.discardsPerRound - 1) *
        rules.mostTaken <
      52

namespace Run

/- The hands and discards that the round has used. -/
def used
    (r : Run) : Nat :=
  r.rules.run.handsPerRound - r.progress.handsLeft +
    (r.rules.run.discardsPerRound - r.progress.discardsLeft)

/-
  The hand is as full as the pile allows, and no more cards
  are gone than the used hands and discards can take.
-/
structure Supplied (r : Run) : Prop where
  dealt :
    r.hand.size = r.rules.run.handSize ∨ r.pile.cards = []
  lasting :
    52 ≤ r.table.length + r.used * r.rules.run.mostTaken

/- Filling up ends with a full hand or an empty pile. -/
theorem refill_full_or_empty
    {r : Run}
    {slots : Nat}
    (hFits : r.hand.Fits slots) :
    r.refill.run.hand.size = slots ∨
      r.refill.run.pile.cards = [] := by
  have hSize := hFits.size
  have hFree :
      r.hand.freeSlots = slots - r.hand.items.length := by
    rw [← hFits.capacity]
    rfl
  have hDrawn := DrawPile.length_draw r.pile
    r.hand.freeSlots
  have hLeft :=
    (DrawPile.draw_perm r.pile r.hand.freeSlots).length_eq
  rw [List.length_append] at hLeft
  rw [refill_run]
  change (r.hand.items ++ r.refilling).length = slots ∨
    (r.pile.draw r.hand.freeSlots).2.cards = []
  unfold Area.size at hSize
  unfold refilling
  rw [List.length_append]
  by_cases hEnough : r.hand.freeSlots ≤ r.pile.cards.length
  · left
    omega
  · right
    apply List.eq_nil_of_length_eq_zero
    omega

/- A selection in order takes its own number of cards. -/
theorem InOrder.length_hand
    {r : Run}
    (hOrder : r.InOrder) :
    r.selection.length + r.keptHand.size = r.hand.size := by
  have hLength :=
    hOrder.selected_append_unselected_perm.length_eq
  rw [List.length_append, hOrder.length_selectedCards]
    at hLength
  exact hLength

/- No selection is larger than hand and rules allow. -/
theorem length_selection_le
    {r : Run}
    (hOrder : r.InOrder)
    (hLimits : r.WithinLimits) :
    r.selection.length ≤ r.rules.run.mostTaken := by
  have hHand := hOrder.length_hand
  have hFits := hLimits.hand.size
  have hSelected := hLimits.selected
  unfold RunRules.mostTaken
  omega

------------------------------------------------------------
-- However An Action Ends
------------------------------------------------------------

section

variable {r s : Run}

/- A round starts with all cards and nothing used. -/
theorem supplied_deal
    (hLimits : r.WithinLimits) :
    r.deal.refill.run.Supplied where
  dealt := by
    have hFits :=
      refill_full_or_empty (withinLimits_deal hLimits).hand
    rw [(sameTable_refill r.deal).rules]
    exact hFits
  lasting := by
    have hAll :
        r.deal.refill.run.table.length = 52 := by
      rw [((refill_table_perm r.deal).trans
        (deal_table_perm r)).length_eq]
      exact (DrawPile.complete_of_perm
        (List.Perm.refl _)).size
    rw [hAll]
    -- How much is used does not matter here.
    generalize r.deal.refill.run.used * _ = taken
    exact Nat.le_add_right 52 taken

/- The supply looks at cards and at used hands only. -/
theorem Supplied.congr
    (hSupplied : r.Supplied)
    (hHand : s.hand = r.hand)
    (hPile : s.pile = r.pile)
    (hRules : s.rules = r.rules)
    (hUsed : s.used = r.used) :
    s.Supplied := by
  refine ⟨?_, ?_⟩
  · rw [hHand, hPile, hRules]
    exact hSupplied.dealt
  · rw [table, hHand, hPile, hRules, hUsed]
    exact hSupplied.lasting

/- Filling up the hand only moves cards. -/
theorem Supplied.refill
    (hSupplied : r.Supplied)
    (hLimits : r.WithinLimits) :
    r.refill.run.Supplied where
  dealt := refill_full_or_empty hLimits.hand
  lasting := by
    rw [(refill_table_perm r).length_eq]
    exact hSupplied.lasting

/- One more hand or discard accounts for what it takes. -/
theorem Supplied.take
    (hSupplied : r.Supplied)
    (hOrder : r.InOrder)
    (hLimits : r.WithinLimits)
    (hHand : s.hand = r.keptHand)
    (hPile : s.pile = r.pile)
    (hRules : s.rules = r.rules)
    (hUsed : s.used = r.used + 1) :
    s.refill.run.Supplied where
  dealt := by
    have hFits : s.hand.Fits s.rules.run.handSize := by
      rw [hHand, hRules]
      exact fits_keptHand hLimits.hand
    exact refill_full_or_empty hFits
  lasting := by
    have hTaken := length_selection_le hOrder hLimits
    have hKept := hOrder.length_hand
    have hBefore := hSupplied.lasting
    have hUsedAfter : s.refill.run.used = r.used + 1 := hUsed
    have hRulesAfter : s.refill.run.rules = r.rules := hRules
    rw [(refill_table_perm s).length_eq, hUsedAfter,
      hRulesAfter, Nat.succ_mul]
    unfold table at *
    unfold Area.size at hKept
    rw [List.length_append] at hBefore ⊢
    rw [hHand, hPile]
    omega

end

/- A hand that is scored is used. -/
theorem used_scoredRun
    {r : Run}
    (hMay : r.MayPlay)
    (hStaged : r.progress.Staged r.rules.run) :
    r.scoredRun.used = r.used + 1 := by
  have hLeft := hMay.handsLeft
  have hHands := hStaged.hands
  have hFewer :
      r.scoredRun.progress.handsLeft =
        r.progress.handsLeft - 1 := rfl
  have hDiscards :
      r.scoredRun.progress.discardsLeft =
        r.progress.discardsLeft := rfl
  unfold used
  rw [hFewer, hDiscards, (sameTable_scoredRun r).rules]
  omega

/- A discard that is paid is used. -/
theorem used_paidRun
    {r : Run}
    (hMay : r.MayDiscard)
    (hStaged : r.progress.Staged r.rules.run) :
    r.paidRun.used = r.used + 1 := by
  have hLeft := hMay.discardsLeft
  have hDiscards := hStaged.discards
  have hFewer :
      r.paidRun.progress.discardsLeft =
        r.progress.discardsLeft - 1 := rfl
  have hHands :
      r.paidRun.progress.handsLeft =
        r.progress.handsLeft := rfl
  have hRules : r.paidRun.rules = r.rules := rfl
  unfold used
  rw [hFewer, hHands, hRules]
  omega

/- However an action ends, a round that is played lasts. -/
theorem supplied_step
    {r r' : Run}
    {a : Action}
    {answer : Except RunError Reply}
    {events : List Event}
    (hOrder : r.InOrder)
    (hLimits : r.WithinLimits)
    (hStaged : r.progress.Staged r.rules.run)
    (hBefore : r.phase = .play → r.Supplied)
    (hStep : Step r a answer r' events)
    (hPhase : r'.phase = .play) :
    r'.Supplied := by
  cases hStep with
  | refused | notAdded => exact hBefore hPhase
  | started | nextStarted => exact supplied_deal hLimits
  | refilled => exact (hBefore hPhase).refill hLimits
  | unselected | selected | selectionCleared | waiting
  | bought | replaced | purchaseCancelled | rerolled | sold
  | added =>
      exact (hBefore hPhase).congr rfl rfl rfl rfl
  | played hMay =>
      exact (hBefore hMay.phase).take (s := r.scoredRun)
        hOrder hLimits rfl rfl rfl
        (used_scoredRun hMay hStaged)
  | won =>
      rw [clearRound_run] at hPhase
      cases hPhase
  | lost => cases hPhase
  | discarded hMay =>
      exact (hBefore hMay.phase).take (s := r.paidRun)
        hOrder hLimits rfl rfl rfl
        (used_paidRun hMay hStaged)

theorem supplied_of_reachable
    {r : Run}
    (hReachable : Reachable r)
    (hHands : 1 ≤ r.rules.run.handsPerRound)
    (hPhase : r.phase = .play) :
    r.Supplied := by
  induction hReachable with
  | begin => cases hPhase
  | perform a hBefore ih =>
      have hStep := step_of_reachable hBefore a
      rw [hStep.sameTable.rules] at hHands
      exact supplied_step (inOrder_of_reachable hBefore)
        (withinLimits_of_reachable hBefore)
        (staged_of_reachable hBefore hHands)
        (ih hHands) hStep hPhase

------------------------------------------------------------
-- A Card To Play
------------------------------------------------------------

section

variable {r : Run}

/- While a hand is left, the hand has a card. -/
theorem Supplied.hand_pos
    (hSupplied : r.Supplied)
    (hRules : r.rules.run.Lasting)
    (hLeft : 1 ≤ r.progress.handsLeft) :
    0 < r.hand.size := by
  have hUsed :
      r.used ≤
        r.rules.run.handsPerRound +
          r.rules.run.discardsPerRound - 1 := by
    have hHands := hRules.hands
    unfold used
    omega
  have hTaken :=
    Nat.mul_le_mul_right r.rules.run.mostTaken hUsed
  have hCards := hRules.cards
  have hLasting := hSupplied.lasting
  rcases hSupplied.dealt with hFull | hEmpty
  · rw [hFull]
    exact hRules.slots
  · have hAll : r.table.length = r.hand.size := by
      rw [table, hEmpty, List.append_nil]
      rfl
    omega

/- Each of some actions is accepted in its turn. -/
def Accepts
    (r : Run) : List Action → Prop
  | [] => True
  | a :: as =>
      (∃ reply, (r.perform a).answer = .ok reply) ∧
        (r.perform a).run.Accepts as

theorem Accepts.append
    {as bs : List Action}
    (hFirst : r.Accepts as)
    (hSecond : (r.performAll as).Accepts bs) :
    r.Accepts (as ++ bs) := by
  induction as generalizing r with
  | nil => exact hSecond
  | cons a as ih =>
      exact ⟨hFirst.1, ih hFirst.2 hSecond⟩

theorem performAll_append
    (as bs : List Action) :
    r.performAll (as ++ bs) =
      (r.performAll as).performAll bs := by
  induction as generalizing r with
  | nil => rfl
  | cons a as ih => exact ih

/- The first card of the hand selected and played. -/
def playFirst : List Action :=
  [.clearSelection, .toggle 0, .play]

/- The first card played a number of times. -/
def playOn
    (n : Nat) : List Action :=
  (List.replicate n playFirst).flatten

theorem playOn_succ
    (n : Nat) :
    playOn (n + 1) = playFirst ++ playOn n := by
  rw [playOn, List.replicate_succ, List.flatten_cons,
    playOn]

/- The run when its first card alone is selected. -/
def firstSelected
    (r : Run) : Run :=
  r.performAll [.clearSelection, .toggle 0]

/- The round was won or lost. -/
def IsDecided
    (r : Run) : Prop :=
  r.phase = .shop ∨ r.phase = .gameOver

/- The first card of a hand that is played is selected. -/
theorem accepts_selectFirst
    (hPhase : r.phase = .play)
    (hHand : 0 < r.hand.size)
    (hSelectable : 1 ≤ r.rules.run.maxSelection) :
    r.Accepts [.clearSelection, .toggle 0] ∧
      r.firstSelected = { r with selection := [0] } := by
  have hToggle :=
    perform_toggle_new (r := r.clearSelection) (i := 0)
      hPhase hHand List.not_mem_nil hSelectable
  exact ⟨⟨⟨.done, rfl⟩, ⟨.selected true, hToggle.1⟩,
    trivial⟩, hToggle.2⟩

/- A played hand decides the round, or is one hand less. -/
theorem Step.decided_or_fewer
    {r' : Run}
    {reply : Reply}
    {events : List Event}
    (hStep : Step r .play (.ok reply) r' events) :
    r'.IsDecided ∨
      (r'.phase = .play ∧
        r'.progress.handsLeft + 1 =
          r.progress.handsLeft) := by
  cases hStep with
  | played hMay =>
      have hLeft := hMay.handsLeft
      refine Or.inr ⟨hMay.phase, ?_⟩
      change r.progress.handsLeft - 1 + 1 = _
      omega
  | won =>
      refine Or.inl (Or.inl ?_)
      rw [clearRound_run]
      rfl
  | lost => exact Or.inl (Or.inr rfl)

/-
  The first card can be played while a round lasts, and then
  the round is decided or has one hand less.
-/
theorem accepts_playFirst
    (hReachable : Reachable r)
    (hRules : r.rules.run.Lasting)
    (hPhase : r.phase = .play) :
    r.Accepts playFirst ∧
      ((r.performAll playFirst).IsDecided ∨
        ((r.performAll playFirst).phase = .play ∧
          (r.performAll playFirst).progress.handsLeft + 1 =
            r.progress.handsLeft)) := by
  have hLeft : 1 ≤ r.progress.handsLeft :=
    ((staged_of_reachable hReachable
      hRules.hands).play hPhase).1
  have hHand : 0 < r.hand.size :=
    (supplied_of_reachable hReachable hRules.hands
      hPhase).hand_pos hRules hLeft
  rcases accepts_selectFirst hPhase hHand
      hRules.selectable with
    ⟨hSelect, hSelected⟩
  have hReachableThen : Reachable r.firstSelected :=
    reachable_performAll hReachable _
  have hMay : r.firstSelected.MayPlay := by
    rw [hSelected]
    exact ⟨hPhase, hLeft, List.cons_ne_nil 0 []⟩
  have hAnswer :=
    (perform_play (inOrder_of_reachable hReachableThen)
      hMay).1
  have hStep := step_of_reachable hReachableThen .play
  rw [hAnswer] at hStep
  have hSame :
      r.firstSelected.progress.handsLeft =
        r.progress.handsLeft := by
    rw [hSelected]
  have hAfter := hStep.decided_or_fewer
  rw [hSame] at hAfter
  exact ⟨hSelect.append ⟨⟨_, hAnswer⟩, trivial⟩, hAfter⟩

------------------------------------------------------------
-- Playing On
------------------------------------------------------------

/- Playing first cards decides a round in its hands left. -/
theorem decided_of_playOn
    {n : Nat}
    (hReachable : Reachable r)
    (hRules : r.rules.run.Lasting)
    (hPhase : r.phase = .play)
    (hLeft : r.progress.handsLeft = n) :
    ∃ k, k ≤ n ∧ r.Accepts (playOn k) ∧
      (r.performAll (playOn k)).IsDecided := by
  induction n generalizing r with
  | zero =>
      have hSome :=
        ((staged_of_reachable hReachable
          hRules.hands).play hPhase).1
      omega
  | succ n ih =>
      rcases accepts_playFirst hReachable hRules hPhase with
        ⟨hAccepts, hDecided | ⟨hPlay, hFewer⟩⟩
      · exact ⟨1, by omega, hAccepts, hDecided⟩
      · have hSame :=
          (sameTable_performAll hReachable playFirst).rules
        rcases ih (reachable_performAll hReachable _)
            (by rw [hSame]; exact hRules) hPlay
            (by omega) with
          ⟨k, hk, hRest, hDecided⟩
        refine ⟨k + 1, by omega, ?_, ?_⟩
        · rw [playOn_succ]
          exact hAccepts.append hRest
        · rw [playOn_succ, performAll_append]
          exact hDecided

/-
  A round that can be played on: as many cards are dealt as
  can be, there are a card and a hand left, the card can be
  selected and played, and doing so again and again decides
  the round.
-/
structure PlaysOn (r : Run) : Prop where
  dealt :
    r.hand.size = r.rules.run.handSize ∨ r.pile.cards = []
  card : r.hand.items ≠ []
  handsLeft : 1 ≤ r.progress.handsLeft
  next : r.Accepts [.clearSelection, .toggle 0, .play]
  decided :
    ∃ n, n ≤ r.progress.handsLeft ∧ r.Accepts (playOn n) ∧
      (r.performAll (playOn n)).IsDecided

/-
  Under rules whose hands and discards leave a card, a round
  is never stuck: wherever it stands, it can be played on.
-/
theorem round_plays_on
    (hReachable : Reachable r)
    (hRules : r.rules.run.Lasting)
    (hPhase : r.phase = .play) :
    r.PlaysOn := by
  have hSupplied :=
    supplied_of_reachable hReachable hRules.hands hPhase
  have hLeft : 1 ≤ r.progress.handsLeft :=
    ((staged_of_reachable hReachable
      hRules.hands).play hPhase).1
  have hHand := hSupplied.hand_pos hRules hLeft
  exact {
    dealt := hSupplied.dealt
    card := List.ne_nil_of_length_pos hHand
    handsLeft := hLeft
    next := (accepts_playFirst hReachable hRules hPhase).1
    decided :=
      decided_of_playOn hReachable hRules hPhase rfl }

end

------------------------------------------------------------
-- A Round With No Card To Spare
------------------------------------------------------------

/- Three hands and a discard that leave a single card. -/
def thinRules : Rules where
  run :=
    { RunRules.standard with
      handsPerRound := 3
      discardsPerRound := 1
      handSize := 17
      maxSelection := 17 }
  hands := []

/- A run under these rules, in its first round. -/
def thinRun : Run :=
  (Run.begin thinRules RankChips.standard Catalog.empty
      7).performAll
    [.start]

theorem round_plays_on_thinRun :
    Reachable thinRun ∧ thinRun.rules.run.Lasting ∧
      thinRun.phase = .play ∧ thinRun.PlaysOn := by
  have hBegin :=
    Reachable.begin thinRules RankChips.standard
      Catalog.empty 7
  have hReachable : Reachable thinRun :=
    reachable_performAll hBegin _
  have hTable : thinRun.rules = thinRules :=
    (sameTable_performAll hBegin _).rules
  have hRules : thinRun.rules.run.Lasting := by
    rw [hTable]
    exact ⟨by decide, by decide, by decide, by decide⟩
  have hPhase : thinRun.phase = .play := by
    rw [thinRun, performAll, performAll,
      (perform_start (Or.inl rfl)).2, phase,
      refill_progress, deal_eq]
  exact ⟨hReachable, hRules, hPhase,
    round_plays_on hReachable hRules hPhase⟩

end Run

end JokerRun
