import JokerRun.Proofs.Run.Selection

/-
  No card of a round is lost, doubled or dealt twice.

  The cards in the hand, those left in the pile and those
  removed since the round began are the standard pile in
  some order.  The removed cards are kept nowhere in a run,
  so they are followed beside it, along the actions.

  Key definitions include:
    * `Run.startsAmong`
    * `Run.removedSince`
    * `Run.Balanced`

  Key theorems include:
    * `Run.refill_table_perm`
    * `Run.balanced_step`
    * `Run.round_cards_complete`
-/

------------------------------------------------------------
-- Cards That Move
------------------------------------------------------------

namespace JokerRun

namespace Run

/- The cards in the hand and those left in the pile. -/
def table
    (r : Run) : List Card :=
  r.hand.items ++ r.pile.cards

/- The cards that leave the hand when the selection does. -/
def takenCards
    (r : Run) : List Card :=
  match r.hand.takeMany r.selection with
  | .ok (cards, _) => cards
  | .error _ => []

/- Whether an action that is answered so starts a round. -/
def startsRound
    (a : Action) : Except RunError Reply → Bool
  | .ok _ => a == .start || a == .next
  | .error _ => false

/- The cards that an action answered so removes. -/
def removedBy
    (r : Run)
    (a : Action) : Except RunError Reply → List Card
  | .ok _ =>
      if a == .play || a == .discard then
        r.takenCards
      else
        []
  | .error _ => []

/- Whether one of the actions starts a round. -/
def startsAmong
    (r : Run) : List Action → Bool
  | [] => false
  | a :: as =>
      startsRound a (r.perform a).answer ||
        (r.perform a).run.startsAmong as

/-
  The cards removed since the last round began, given those
  removed before the actions.
-/
def removedSince
    (r : Run)
    (gone : List Card) : List Action → List Card
  | [] => gone
  | a :: as =>
      (r.perform a).run.removedSince
        (if startsRound a (r.perform a).answer then
          []
        else
          gone ++ r.removedBy a (r.perform a).answer)
        as

/- Dealing moves cards from the pile to the hand. -/
theorem refill_table_perm
    (r : Run) :
    r.refill.run.table.Perm r.table := by
  unfold table
  rw [refill_run, List.append_assoc]
  exact (DrawPile.draw_perm r.pile
    r.hand.freeSlots).append_left r.hand.items

/- A dealt table is the standard pile. -/
theorem deal_table_perm
    (r : Run) :
    r.deal.table.Perm (DrawPile.standard r.chips).cards := by
  have hTable :
      r.deal.table =
        ((DrawPile.standard r.chips).shuffle
          r.generator).1.cards := by
    rw [table, deal_eq]
    simp only [Area.items_clear, List.nil_append]
  rw [hTable]
  exact DrawPile.shuffle_cards_perm _ _

theorem deal_refill_chips
    (r : Run) :
    r.deal.refill.run.chips = r.chips := by
  rw [(sameTable_refill r.deal).chips, deal_eq]

/- A selection in order is what leaves the hand. -/
theorem InOrder.takenCards_eq
    {r : Run}
    (hOrder : r.InOrder) :
    r.takenCards = r.selectedCards := by
  rw [takenCards, hOrder.takeMany_selection]

/- What is kept and what is taken make up the hand. -/
theorem InOrder.hand_perm
    {r : Run}
    (hOrder : r.InOrder) :
    (r.keptHand.items ++ r.takenCards).Perm
      r.hand.items := by
  rw [hOrder.takenCards_eq]
  exact List.perm_append_comm.trans
    (Area.filterMap_get_append_others_perm
      hOrder.ascending.nodup r.hand.items)

------------------------------------------------------------
-- One Action
------------------------------------------------------------

/-
  Once a round has started, hand, pile and removed cards are
  the standard pile; until then there are no cards at all.
-/
def Balanced
    (r : Run)
    (started : Bool)
    (gone : List Card) : Prop :=
  if started then
    (r.table ++ gone).Perm (DrawPile.standard r.chips).cards
  else
    r.phase = .setup ∧ r.hand.items = [] ∧ r.pile.cards = []

/- The cards of a round are balanced when it starts. -/
theorem balanced_dealt
    (r : Run) :
    Balanced r.deal.refill.run true [] := by
  unfold Balanced
  rw [if_pos rfl, List.append_nil, deal_refill_chips]
  exact (refill_table_perm r.deal).trans (deal_table_perm r)

section

variable {r r' : Run}
variable {started : Bool}
variable {gone : List Card}

/- Cards are played in rounds that have started. -/
theorem Balanced.started_of_play
    (hBalanced : r.Balanced started gone)
    (hPhase : r.phase = .play) :
    started = true := by
  cases started with
  | true => rfl
  | false =>
      rw [hBalanced.1] at hPhase
      cases hPhase

/- The balance looks at cards, and before a start at phase. -/
theorem Balanced.congr
    (hBalanced : r.Balanced started gone)
    (hTable : r'.table = r.table)
    (hChips : r'.chips = r.chips)
    (hPhase : started = true ∨ r'.phase = r.phase) :
    r'.Balanced started gone := by
  cases started with
  | true =>
      have hPerm :
          (r.table ++ gone).Perm
            (DrawPile.standard r.chips).cards := hBalanced
      rw [← hTable, ← hChips] at hPerm
      exact hPerm
  | false =>
      rcases hBalanced with ⟨hSetup, hHand, hPile⟩
      have hSame : r'.phase = r.phase :=
        hPhase.resolve_left Bool.false_ne_true
      have hEmpty : r'.table = [] := by
        rw [hTable, table, hHand, hPile, List.append_nil]
      rcases List.append_eq_nil_iff.mp hEmpty with
        ⟨hHand', hPile'⟩
      exact ⟨hSame.trans hSetup, hHand', hPile'⟩

/- Filling up the hand keeps the balance. -/
theorem Balanced.refill
    (hBalanced : r.Balanced started gone) :
    r.refill.run.Balanced started gone := by
  cases started with
  | true =>
      have hPerm :
          (r.table ++ gone).Perm
            (DrawPile.standard r.chips).cards := hBalanced
      exact ((refill_table_perm r).append_right gone).trans
        hPerm
  | false =>
      rcases hBalanced with ⟨hSetup, hHand, hPile⟩
      have hEmpty : r.table = [] := by
        rw [table, hHand, hPile, List.append_nil]
      have hStill : r.refill.run.table = [] := by
        apply List.Perm.eq_nil
        rw [← hEmpty]
        exact refill_table_perm r
      rcases List.append_eq_nil_iff.mp hStill with
        ⟨hHand', hPile'⟩
      exact ⟨hSetup, hHand', hPile'⟩

/- Cards that leave the hand are counted as removed. -/
theorem Balanced.take
    (hOrder : r.InOrder)
    (hBalanced : r.Balanced true gone)
    (hHand : r'.hand = r.keptHand)
    (hPile : r'.pile = r.pile)
    (hChips : r'.chips = r.chips) :
    r'.Balanced true (gone ++ r.takenCards) := by
  have hPerm :
      (r.table ++ gone).Perm
        (DrawPile.standard r.chips).cards := hBalanced
  have hSplit := hOrder.hand_perm
  unfold Balanced
  rw [if_pos rfl, hChips]
  refine List.Perm.trans ?_ hPerm
  unfold table
  rw [hHand, hPile]
  rw [List.perm_iff_count] at hSplit ⊢
  intro c
  have hCount := hSplit c
  simp only [List.count_append] at hCount ⊢
  omega

/- An action that neither starts a round nor removes cards. -/
theorem Balanced.quiet
    {a : Action}
    {answer : Except RunError Reply}
    (hBalanced : r.Balanced started gone)
    (hStart : startsRound a answer = false)
    (hRemoved : r'.removedBy a answer = []) :
    r.Balanced (startsRound a answer || started)
      (if startsRound a answer then
        []
      else
        gone ++ r'.removedBy a answer) := by
  rw [hStart, hRemoved, List.append_nil]
  exact hBalanced

end

/- Cards that are played or discarded are removed. -/
theorem balanced_taken
    {r s : Run}
    {started : Bool}
    {gone : List Card}
    (hOrder : r.InOrder)
    (hPhase : r.phase = .play)
    (hBalanced : r.Balanced started gone)
    (hHand : s.hand = r.keptHand)
    (hPile : s.pile = r.pile)
    (hChips : s.chips = r.chips) :
    s.refill.run.Balanced started
      (gone ++ r.takenCards) := by
  have hStarted := hBalanced.started_of_play hPhase
  rw [hStarted] at hBalanced ⊢
  exact (hBalanced.take hOrder hHand hPile hChips).refill

theorem balanced_scored
    {r : Run}
    {started : Bool}
    {gone : List Card}
    (hOrder : r.InOrder)
    (hMay : r.MayPlay)
    (hBalanced : r.Balanced started gone) :
    r.scoredRun.refill.run.Balanced started
      (gone ++ r.takenCards) :=
  balanced_taken (s := r.scoredRun) hOrder hMay.phase
    hBalanced rfl rfl rfl

/- However an action ends, the cards stay balanced. -/
theorem balanced_step
    {r r' : Run}
    {a : Action}
    {answer : Except RunError Reply}
    {events : List Event}
    {started : Bool}
    {gone : List Card}
    (hOrder : r.InOrder)
    (hStep : Step r a answer r' events)
    (hBalanced : r.Balanced started gone) :
    r'.Balanced (startsRound a answer || started)
      (if startsRound a answer then
        []
      else
        gone ++ r.removedBy a answer) := by
  cases hStep with
  | started | nextStarted => exact balanced_dealt r
  | refused => exact hBalanced.quiet rfl rfl
  | refilled => exact hBalanced.refill.quiet rfl rfl
  | played hMay =>
      exact balanced_scored hOrder hMay hBalanced
  | won hMay =>
      have hStarted := hBalanced.started_of_play hMay.phase
      refine (balanced_scored hOrder hMay hBalanced).congr
        ?_ ?_ (Or.inl hStarted)
      · rw [table, clearRound_run]
        rfl
      · rw [clearRound_run]
  | lost hMay =>
      have hStarted := hBalanced.started_of_play hMay.phase
      exact (balanced_scored hOrder hMay hBalanced).congr
        rfl rfl (Or.inl hStarted)
  | discarded hMay =>
      exact balanced_taken (s := r.paidRun) hOrder
        hMay.phase hBalanced rfl rfl rfl
  | unselected | selected | selectionCleared | waiting
  | bought | replaced | purchaseCancelled | rerolled | sold
  | added | notAdded =>
      exact (hBalanced.congr rfl rfl (Or.inr rfl)).quiet
        rfl rfl

------------------------------------------------------------
-- Whole Runs
------------------------------------------------------------

/- Actions in a row keep the cards balanced. -/
theorem balanced_performAll
    {r : Run}
    {started : Bool}
    {gone : List Card}
    (hReachable : Reachable r)
    (hBalanced : r.Balanced started gone)
    (as : List Action) :
    (r.performAll as).Balanced (r.startsAmong as || started)
      (r.removedSince gone as) := by
  induction as generalizing r started gone with
  | nil => exact hBalanced
  | cons a as ih =>
      have hStep := step_of_reachable hReachable a
      have hNext := balanced_step
        (inOrder_of_reachable hReachable) hStep hBalanced
      have hRest := ih (Reachable.perform a hReachable) hNext
      rw [startsAmong, Bool.or_comm (startsRound _ _),
        Bool.or_assoc]
      exact hRest

/-
  Once one of the actions has started a round, the hand, the
  pile and the cards removed since the last start are all
  the cards of a round, each once.  Until then there are no
  cards.
-/
theorem round_cards_complete
    (rules : Rules)
    (chips : RankChips)
    (catalog : Catalog)
    (seed : UInt64)
    (as : List Action) :
    if (Run.begin rules chips catalog seed).startsAmong as
    then
      DrawPile.Complete chips
        (((Run.begin rules chips catalog seed).performAll
            as).hand.items ++
          ((Run.begin rules chips catalog seed).performAll
            as).pile.cards ++
          (Run.begin rules chips catalog seed).removedSince
            [] as)
    else
      ((Run.begin rules chips catalog seed).performAll
          as).hand.items = [] ∧
        ((Run.begin rules chips catalog seed).performAll
          as).pile.cards = [] := by
  have hReachable :=
    Reachable.begin rules chips catalog seed
  have hEmpty :
      (Run.begin rules chips catalog seed).Balanced false
        [] :=
    ⟨rfl, rfl, rfl⟩
  have hBalanced := balanced_performAll hReachable hEmpty as
  rw [Bool.or_false] at hBalanced
  unfold Balanced at hBalanced
  rw [(sameTable_performAll hReachable as).chips] at hBalanced
  split_ifs at hBalanced ⊢ with hStarted
  · exact DrawPile.complete_of_perm hBalanced
  · exact hBalanced.2

end Run

end JokerRun
