import JokerRun.Proofs.Run.Conservation

/-
  A run stays within its limits.

  The hand, the jokers and the offers never outgrow their
  slots, and no more cards are selected than the rules
  allow, in rounds only.  So the selected cards are a part
  of the hand, and playing or discarding them never fails
  for the positions.

  Key definitions include:
    * `Run.WithinLimits`

  Key theorems include:
    * `Run.withinLimits_step`
    * `Run.withinLimits_of_reachable`
    * `Run.selection_splits_hand`
-/

------------------------------------------------------------
-- Limits
------------------------------------------------------------

namespace JokerRun

namespace Run

/- Slots and selection as the rules of the run allow. -/
structure WithinLimits (r : Run) : Prop where
  hand : r.hand.Fits r.rules.run.handSize
  jokers : r.jokers.Fits r.rules.run.jokerSlots
  offers : r.shop.offers.Fits r.rules.run.shopSlots
  selected :
    r.selection.length ≤ r.rules.run.maxSelection
  idle : r.phase ≠ .play → r.selection = []

theorem withinLimits_begin
    (rules : Rules)
    (chips : RankChips)
    (catalog : Catalog)
    (seed : UInt64) :
    (Run.begin rules chips catalog seed).WithinLimits where
  hand := Area.fits_ofCapacity _
  jokers := Area.fits_ofCapacity _
  offers := Area.fits_ofCapacity _
  selected := Nat.zero_le _
  idle := fun _ => rfl

------------------------------------------------------------
-- Dealing And Taking
------------------------------------------------------------

/- No more cards are drawn than there are free slots. -/
theorem length_refilling_le
    (r : Run) :
    r.refilling.length ≤ r.hand.freeSlots := by
  unfold refilling
  rw [DrawPile.length_draw]
  exact Nat.min_le_left _ _

/- A hand that is filled up fits where it did before. -/
theorem fits_refill
    {r : Run}
    {slots : Nat}
    (hFits : r.hand.Fits slots) :
    r.refill.run.hand.Fits slots := by
  rw [refill_run]
  exact hFits.append_of_room (length_refilling_le r)

/- A hand that loses cards fits where it did before. -/
theorem fits_keptHand
    {r : Run}
    {slots : Nat}
    (hFits : r.hand.Fits slots) :
    r.keptHand.Fits slots :=
  hFits.of_length_le (Area.length_others_le _ _)

theorem withinLimits_refill
    {r : Run}
    (hLimits : r.WithinLimits) :
    r.refill.run.WithinLimits where
  hand := fits_refill hLimits.hand
  jokers := hLimits.jokers
  offers := hLimits.offers
  selected := hLimits.selected
  idle := hLimits.idle

/- Before cards are dealt, a round has an empty hand. -/
theorem withinLimits_deal
    {r : Run}
    (hLimits : r.WithinLimits) :
    r.deal.WithinLimits := by
  rw [deal_eq]
  exact {
    hand := hLimits.hand.of_length_le (Nat.zero_le _)
    jokers := hLimits.jokers
    offers := hLimits.offers
    selected := Nat.zero_le _
    idle := fun _ => rfl }

/- Cards that leave the hand leave the selection with it. -/
theorem WithinLimits.take
    {r s : Run}
    (hLimits : r.WithinLimits)
    (hTable : SameTable r s)
    (hHand : s.hand = r.keptHand)
    (hJokers : s.jokers = r.jokers)
    (hShop : s.shop = r.shop)
    (hEmpty : s.selection = []) :
    s.WithinLimits := by
  have hRules := hTable.rules
  refine ⟨?_, ?_, ?_, ?_, fun _ => hEmpty⟩
  · rw [hHand, hRules]
    exact fits_keptHand hLimits.hand
  · rw [hJokers, hRules]
    exact hLimits.jokers
  · rw [hShop, hRules]
    exact hLimits.offers
  · rw [hEmpty]
    exact Nat.zero_le _

theorem withinLimits_scoredRun
    {r : Run}
    (hLimits : r.WithinLimits) :
    r.scoredRun.WithinLimits :=
  hLimits.take (sameTable_scoredRun r) rfl rfl rfl rfl

------------------------------------------------------------
-- Offers And Jokers
------------------------------------------------------------

/- Restocked offers fit the slots of the shop. -/
theorem fits_restock
    {s : Shop}
    {slots : Nat}
    (hFits : s.offers.Fits slots)
    (catalog : Catalog)
    (g : Generator) :
    (s.restock catalog g).1.offers.Fits slots := by
  rw [Shop.restock_eq]
  rw [← hFits.capacity]
  exact Shop.fits_stock catalog s.offers.capacity g

theorem withinLimits_clearRound
    {r : Run}
    (hLimits : r.WithinLimits) :
    r.clearRound.run.WithinLimits := by
  rw [clearRound_run]
  exact {
    hand := hLimits.hand
    jokers := hLimits.jokers
    offers := fits_restock hLimits.offers _ _
    selected := Nat.zero_le _
    idle := fun _ => rfl }

/- An offer that is bought leaves its slot. -/
theorem fits_withoutOffer
    {s : Shop}
    {slots : Nat}
    (hFits : s.offers.Fits slots)
    (offer : Nat) :
    (s.withoutOffer offer).offers.Fits slots :=
  hFits.of_length_le
    (List.length_eraseIdx_le s.offers.items offer)

/- A free slot takes a joker. -/
theorem fits_joker
    {jokers : Area Ability}
    {slots : Nat}
    (hFits : jokers.Fits slots)
    (hRoom : jokers.size < jokers.capacity)
    (a : Ability) :
    Area.Fits
      { jokers with items := jokers.items ++ [a] }
      slots := by
  apply hFits.append_of_room
  unfold Area.freeSlots
  rw [List.length_singleton]
  omega

------------------------------------------------------------
-- However An Action Ends
------------------------------------------------------------

/- However an action ends, the run stays within its limits. -/
theorem withinLimits_step
    {r r' : Run}
    {a : Action}
    {answer : Except RunError Reply}
    {events : List Event}
    (hLimits : r.WithinLimits)
    (hStep : Step r a answer r' events) :
    r'.WithinLimits := by
  have hHand := hLimits.hand
  have hJokers := hLimits.jokers
  have hOffers := hLimits.offers
  have hSelected := hLimits.selected
  have hIdle := hLimits.idle
  cases hStep with
  | refused | notAdded => exact hLimits
  | started | nextStarted =>
      exact withinLimits_refill (withinLimits_deal hLimits)
  | refilled => exact withinLimits_refill hLimits
  | @unselected i hPhase =>
      have hFewer :
          (r.selection.erase i).length ≤
            r.selection.length :=
        List.length_erase_le
      refine ⟨hHand, hJokers, hOffers, ?_, ?_⟩
      · exact Nat.le_trans hFewer hSelected
      · intro hOther
        exact absurd hPhase hOther
  | @selected i hPhase hInside hNew hRoom =>
      have hOneMore :
          (Positions.sort (r.selection ++ [i])).length =
            r.selection.length + 1 := by
        rw [(Positions.sort_perm _).length_eq,
          List.length_append, List.length_singleton]
      refine ⟨hHand, hJokers, hOffers, ?_, ?_⟩
      · rw [hOneMore]
        exact hRoom
      · intro hOther
        exact absurd hPhase hOther
  | selectionCleared =>
      exact ⟨hHand, hJokers, hOffers, Nat.zero_le _,
        fun _ => rfl⟩
  | played =>
      exact withinLimits_refill
        (withinLimits_scoredRun hLimits)
  | won =>
      exact withinLimits_clearRound (withinLimits_refill
        (withinLimits_scoredRun hLimits))
  | lost =>
      have hDealt := withinLimits_refill
        (withinLimits_scoredRun hLimits)
      exact ⟨hDealt.hand, hDealt.jokers, hDealt.offers,
        hDealt.selected, fun _ => rfl⟩
  | discarded =>
      have hTable : SameTable r r.paidRun :=
        ⟨rfl, rfl, rfl, rfl⟩
      exact withinLimits_refill
        (hLimits.take hTable rfl rfl rfl rfl)
  | waiting | purchaseCancelled =>
      exact ⟨hHand, hJokers, hOffers, hSelected, hIdle⟩
  | bought hPhase hOffer hMoney hRoom =>
      exact ⟨hHand, fits_joker hJokers hRoom _,
        fits_withoutOffer hOffers _, hSelected, hIdle⟩
  | @replaced slot offer a =>
      have hSame :
          (r.jokers.items.set slot a).length ≤
            r.jokers.size :=
        Nat.le_of_eq List.length_set
      exact ⟨hHand, hJokers.of_length_le hSame,
        fits_withoutOffer hOffers _, hSelected, hIdle⟩
  | rerolled =>
      exact ⟨hHand, hJokers, fits_restock hOffers _ _,
        hSelected, hIdle⟩
  | @sold slot =>
      have hFewer :
          (r.jokers.items.eraseIdx slot).length ≤
            r.jokers.size :=
        List.length_eraseIdx_le _ _
      exact ⟨hHand, hJokers.of_length_le hFewer, hOffers,
        hSelected, hIdle⟩
  | added hEntry hRoom =>
      exact ⟨hHand, fits_joker hJokers hRoom _, hOffers,
        hSelected, hIdle⟩

theorem withinLimits_of_reachable
    {r : Run}
    (hReachable : Reachable r) :
    r.WithinLimits :=
  hReachable.invariant withinLimits_begin
    fun _ hLimits hStep => withinLimits_step hLimits hStep

------------------------------------------------------------
-- Splitting The Hand
------------------------------------------------------------

/- Selected and other cards make up the hand. -/
theorem InOrder.selected_append_unselected_perm
    {r : Run}
    (hOrder : r.InOrder) :
    (r.selectedCards ++ r.unselectedCards).Perm
      r.hand.items :=
  Area.filterMap_get_append_others_perm
    hOrder.ascending.nodup r.hand.items

/- No position of the selection is without a card. -/
theorem InOrder.length_selectedCards
    {r : Run}
    (hOrder : r.InOrder) :
    r.selectedCards.length = r.selection.length :=
  Area.length_filterMap_get? hOrder.inside

/- No card is twice in the hand of a reachable run. -/
theorem hand_nodup_of_reachable
    {r : Run}
    (hReachable : Reachable r) :
    r.hand.items.Nodup := by
  have hBalanced :
      ∃ started gone, r.Balanced started gone := by
    refine hReachable.invariant
      (P := fun r => ∃ started gone,
        r.Balanced started gone) ?_ ?_
    · intro rules chips catalog seed
      exact ⟨false, [], rfl, rfl, rfl⟩
    · intro r r' a answer events hOrder hBefore hStep
      rcases hBefore with ⟨started, gone, hBefore⟩
      exact ⟨_, _, balanced_step hOrder hStep hBefore⟩
  rcases hBalanced with ⟨started, gone, hBalanced⟩
  cases started with
  | false =>
      rw [hBalanced.2.1]
      exact List.nodup_nil
  | true =>
      have hComplete :
          DrawPile.Complete r.chips (r.table ++ gone) :=
        DrawPile.complete_of_perm hBalanced
      have hCards : (r.table ++ gone).Nodup :=
        hComplete.distinct.of_map Card.id
      unfold table at hCards
      rw [List.append_assoc] at hCards
      exact hCards.of_append_left

/- Each card of the hand is selected or not, once. -/
structure SplitsHand (r : Run) : Prop where
  complete :
    (r.selectedCards ++ r.unselectedCards).Perm
      r.hand.items
  disjoint :
    List.Disjoint r.selectedCards r.unselectedCards
  size : r.selectedCards.length = r.selection.length

theorem splitsHand_of_reachable
    {r : Run}
    (hReachable : Reachable r) :
    r.SplitsHand := by
  have hOrder := inOrder_of_reachable hReachable
  have hPerm := hOrder.selected_append_unselected_perm
  have hNodup :
      (r.selectedCards ++ r.unselectedCards).Nodup :=
    hPerm.nodup_iff.mpr (hand_nodup_of_reachable hReachable)
  exact {
    complete := hPerm
    disjoint := List.disjoint_of_nodup_append hNodup
    size := hOrder.length_selectedCards }

/- Playing a selection in order never fails for the area. -/
theorem InOrder.play_ne_area
    {r : Run}
    (hOrder : r.InOrder)
    (e : AreaError) :
    (r.perform .play).answer ≠ .error (.area e) := by
  simp only [perform, play, hOrder.takeMany_selection]
  split_ifs <;> simp [Turn.map, Turn.refuse, Except.map]

/- Discarding it never fails for the area either. -/
theorem InOrder.discard_ne_area
    {r : Run}
    (hOrder : r.InOrder)
    (e : AreaError) :
    (r.perform .discard).answer ≠ .error (.area e) := by
  simp only [perform, discard, hOrder.takeMany_selection]
  split_ifs <;> simp [Turn.map, Turn.refuse, Except.map]

/-
  On a reachable run the selection ascends inside the hand,
  the run is within its limits, the selected and the other
  cards split the hand, and neither playing nor discarding
  them fails for the area.
-/
theorem selection_splits_hand
    {r : Run}
    (hReachable : Reachable r) :
    r.InOrder ∧ r.WithinLimits ∧ r.SplitsHand ∧
      ∀ e : AreaError,
        (r.perform .play).answer ≠ .error (.area e) ∧
          (r.perform .discard).answer ≠
            .error (.area e) := by
  have hOrder := inOrder_of_reachable hReachable
  refine ⟨hOrder, withinLimits_of_reachable hReachable,
    splitsHand_of_reachable hReachable, ?_⟩
  intro e
  exact ⟨hOrder.play_ne_area e, hOrder.discard_ne_area e⟩

/- A run in its first round, with cards discarded and selected. -/
def midRoundRun : Run :=
  (Run.begin Rules.standard RankChips.standard Catalog.empty
      7).performAll
    [.start, .toggle 3, .toggle 1, .discard, .toggle 6,
      .toggle 0]

theorem selection_splits_hand_midRound :
    Reachable midRoundRun ∧ midRoundRun.InOrder ∧
      midRoundRun.WithinLimits ∧ midRoundRun.SplitsHand ∧
      ∀ e : AreaError,
        (midRoundRun.perform .play).answer ≠
            .error (.area e) ∧
          (midRoundRun.perform .discard).answer ≠
            .error (.area e) := by
  have hReachable : Reachable midRoundRun :=
    reachable_performAll (Reachable.begin _ _ _ _) _
  exact ⟨hReachable, selection_splits_hand hReachable⟩

end Run

end JokerRun
