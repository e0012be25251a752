import JokerRun.Proofs.Catalog
import JokerRun.Proofs.Shop

/-
  What restocking puts out.

  Jokers are picked and pushed as long as a slot is free.
  This might also come to an end because nothing is picked
  or because a push is refused, but with a joker in the
  catalog it never does: each round takes one slot and uses
  one number, until the last slot is taken.  So the offers
  are those that the next numbers choose, one for each slot,
  whatever lay in the shop before.

  Key definitions include:
    * `Shop.Fills`
    * `Shop.FillsEverySlot`

  Key theorems include:
    * `Shop.fills_iff`
    * `Shop.getElem?_picks`
    * `Shop.restock_fills_every_slot`
-/

------------------------------------------------------------
-- Filling Slot By Slot
------------------------------------------------------------

namespace JokerRun

namespace Shop

/- Why no more slots are filled. -/
inductive Ending where
  | full
  | nothingPicked
  | refused
deriving DecidableEq, Repr

/-
  Slots filled one after the other.  As long as one is free
  a joker is picked and pushed; a pick that finds nothing
  and a push that is refused put an end to it.
-/
inductive Fills
    (catalog : Catalog) :
    Area Ability → Generator → Ending →
      Area Ability → Generator → Prop where
  | full
      {offers : Area Ability}
      {g : Generator}
      (hFull : offers.isFull = true) :
      Fills catalog offers g .full offers g
  | nothingPicked
      {offers : Area Ability}
      {g g' : Generator}
      (hRoom : offers.isFull = false)
      (hPick : catalog.pick g = (none, g')) :
      Fills catalog offers g .nothingPicked offers g'
  | refused
      {offers : Area Ability}
      {g g' : Generator}
      {a : Ability}
      {e : AreaError}
      (hRoom : offers.isFull = false)
      (hPick : catalog.pick g = (some a, g'))
      (hPush : offers.push a = .error e) :
      Fills catalog offers g .refused offers g'
  | filled
      {offers more last : Area Ability}
      {g g' g'' : Generator}
      {a : Ability}
      {slot : Nat}
      {ending : Ending}
      (hRoom : offers.isFull = false)
      (hPick : catalog.pick g = (some a, g'))
      (hPush : offers.push a = .ok (slot, more))
      (hRest : Fills catalog more g' ending last g'') :
      Fills catalog offers g ending last g''

section

variable {catalog : Catalog}
variable {offers last : Area Ability}
variable {g g' : Generator}

/- Without a free slot nothing more is picked. -/
theorem fills_full_iff
    (hFull : offers.isFull = true)
    {ending : Ending} :
    Fills catalog offers g ending last g' ↔
      ending = .full ∧ last = offers ∧ g' = g := by
  constructor
  · intro hFills
    cases hFills with
    | full => exact ⟨rfl, rfl, rfl⟩
    | nothingPicked hRoom | refused hRoom | filled hRoom =>
        rw [hFull] at hRoom
        cases hRoom
  · rintro ⟨rfl, rfl, rfl⟩
    exact .full hFull

/- With a free slot and a pick the filling goes on. -/
theorem fills_room_iff
    {a : Ability}
    {picked : Generator}
    (hRoom : offers.size < offers.capacity)
    (hPick : catalog.pick g = (some a, picked))
    {ending : Ending} :
    Fills catalog offers g ending last g' ↔
      Fills catalog
        { offers with items := offers.items ++ [a] } picked
        ending last g' := by
  have hNotFull : offers.isFull = false := by
    rw [Area.isFull, decide_eq_false_iff_not]
    exact Nat.not_le.mpr hRoom
  have hPush := Area.push_of_room hRoom a
  constructor
  · intro hFills
    cases hFills with
    | full hFull =>
        rw [hNotFull] at hFull
        cases hFull
    | nothingPicked _ hNothing =>
        rw [hPick] at hNothing
        cases hNothing
    | refused _ hPick' hRefused =>
        rw [hPick] at hPick'
        cases hPick'
        rw [hPush] at hRefused
        cases hRefused
    | filled _ hPick' hPush' hRest =>
        rw [hPick] at hPick'
        cases hPick'
        rw [hPush] at hPush'
        cases hPush'
        exact hRest
  · exact .filled hNotFull hPick hPush

/-
  With a joker in the catalog slots are filled until none is
  free, and in no other way.
-/
theorem fills_iff
    (hSome : catalog.isEmpty = false)
    {ending : Ending} :
    Fills catalog offers g ending last g' ↔
      ending = .full ∧
        fill catalog offers.freeSlots offers g =
          (last, g') := by
  -- Each round leaves one free slot less.
  induction hFree : offers.freeSlots generalizing offers g with
  | zero =>
      have hFull : offers.isFull = true := by
        rw [Area.isFull_iff]
        exact Nat.sub_eq_zero_iff_le.mp hFree
      rw [fills_full_iff hFull, fill, Prod.mk.injEq,
        eq_comm (a := last), eq_comm (a := g')]
  | succ n ih =>
      have hRoom : offers.size < offers.capacity :=
        Nat.lt_of_sub_eq_succ hFree
      rcases Catalog.pick_of_some hSome g with ⟨a, -, hPick⟩
      have hLess :
          Area.freeSlots
              { offers with items := offers.items ++ [a] } =
            n := by
        rw [Area.freeSlots_append_singleton, hFree]
        rfl
      rw [fills_room_iff hRoom hPick, fill_succ hRoom hPick,
        ih hLess]

/- The joker of a place is chosen by the number of the place. -/
theorem getElem?_picks
    (hSome : catalog.isEmpty = false)
    {j n : Nat}
    (hPlace : j < n) :
    ∃ a, catalog.toList[catalog.choice (g.skip j)]? = some a ∧
      (picks catalog n g)[j]? = some a := by
  induction n generalizing g j with
  | zero => exact absurd hPlace (Nat.not_lt_zero j)
  | succ n ih =>
      rcases Catalog.pick_of_some hSome g with ⟨a, hItem, -⟩
      rw [picks, hItem]
      cases j with
      | zero => exact ⟨a, hItem, rfl⟩
      | succ j =>
          rw [Nat.add_comm j 1, ← Generator.skip_skip,
            Nat.add_comm 1 j]
          exact ih (Nat.lt_of_succ_lt_succ hPlace)

end

------------------------------------------------------------
-- Restocked Shops
------------------------------------------------------------

/- Restocking with nothing to pick clears the shop. -/
theorem restock_of_none
    {catalog : Catalog}
    (hNone : catalog.isEmpty = true)
    (s : Shop)
    (g : Generator) :
    s.restock catalog g =
      ({ s with offers := s.offers.clear, pending := none },
        g) := by
  rw [restock_eq, stock_of_none hNone]
  rfl

/- Restocking with jokers to pick takes every slot. -/
theorem restock_of_some
    {catalog : Catalog}
    (hSome : catalog.isEmpty = false)
    (s : Shop)
    (g : Generator) :
    s.restock catalog g =
      ({ s with
          offers :=
            ⟨s.offers.capacity,
              picks catalog s.offers.capacity g⟩
          pending := none },
        g.skip s.offers.capacity) := by
  rw [restock_eq, stock_of_some hSome]

/-
  Slots are filled until the last one is taken.  The joker
  of a slot is the one at the position that the number of
  the slot stands for, and no more numbers are used.  The
  numbers are taken one after the other.
-/
structure FillsEverySlot
    (s : Shop)
    (catalog : Catalog)
    (g : Generator) : Prop where
  ends :
    Fills catalog s.offers.clear g .full
      (s.restock catalog g).1.offers
      (s.restock catalog g).2
  endsSo :
    ∀ ending offers g',
      Fills catalog s.offers.clear g ending offers g' →
        ending = .full ∧
          offers = (s.restock catalog g).1.offers ∧
          g' = (s.restock catalog g).2
  size :
    (s.restock catalog g).1.offers.size = s.offers.capacity
  chosen :
    ∀ j, j < s.offers.capacity →
      ∃ a,
        catalog.toList[
            (g.skip j).next.1.toNat % catalog.size]? =
          some a ∧
        (s.restock catalog g).1.offers.get? j = some a
  used :
    (s.restock catalog g).2 = g.skip s.offers.capacity
  first : g.skip 0 = g
  next : ∀ j, (g.skip j).next.2 = g.skip (j + 1)

theorem fillsEverySlot_restock
    {catalog : Catalog}
    (hSome : catalog.isEmpty = false)
    (s : Shop)
    (g : Generator) :
    s.FillsEverySlot catalog g := by
  have hRestock := restock_of_some hSome s g
  have hFilled :
      fill catalog s.offers.clear.freeSlots s.offers.clear g =
        ((s.restock catalog g).1.offers,
          (s.restock catalog g).2) := by
    rw [hRestock, fill_eq hSome (Nat.le_refl _)]
    rfl
  refine ⟨(fills_iff hSome).mpr ⟨rfl, hFilled⟩, ?_, ?_, ?_, ?_,
    g.skip_zero, g.next_skip⟩
  · intro ending offers g' hFills
    rcases (fills_iff hSome).mp hFills with ⟨hEnding, hFill⟩
    rw [hFilled] at hFill
    cases hFill
    exact ⟨hEnding, rfl, rfl⟩
  · rw [hRestock]
    exact length_picks hSome s.offers.capacity
  · intro j hSlot
    rw [hRestock]
    exact getElem?_picks hSome hSlot
  · rw [hRestock]

/-
  Restocking takes every slot, or clears the shop when there
  is no joker.  It forgets the old offers and the one that
  waited.  New offers for a price are the price and the same
  restocking, which is reported with the number of offers.
-/
theorem restock_fills_every_slot
    (s : Shop)
    (catalog : Catalog)
    (g : Generator) :
    ((s.restock catalog g).1.pending = none ∧
      (s.restock catalog g).1.offers.capacity =
        s.offers.capacity ∧
      (s.restock catalog g).1.rerollCost = s.rerollCost) ∧
    (catalog.isEmpty = false → s.FillsEverySlot catalog g) ∧
    (catalog.isEmpty = true →
      (s.restock catalog g).1.offers.items = [] ∧
        (s.restock catalog g).2 = g) ∧
    ((catalog.ids.Pairwise fun i j =>
        Text.bytes i < Text.bytes j) ∧
      catalog.ids.map catalog.get? =
        catalog.toList.map some) ∧
    (∀ items pending,
      Shop.restock
          ⟨{ s.offers with items := items }, pending,
            s.rerollCost⟩
          catalog g =
        s.restock catalog g) ∧
    ∀ jokers money,
      Counter.reroll ⟨s, jokers, money⟩ catalog g =
        if money < s.rerollCost then
          (.error (.notEnoughMoney s.rerollCost money),
            ⟨s, jokers, money⟩, g)
        else
          (.ok (s.restock catalog g).1.offers.size,
            ⟨(s.restock catalog g).1, jokers,
              money - s.rerollCost⟩,
            (s.restock catalog g).2) := by
  refine ⟨⟨pending_restock s catalog g, ?_,
      rerollCost_restock s catalog g⟩,
    fun hSome => fillsEverySlot_restock hSome s g, ?_,
    ⟨catalog.ascending_ids, catalog.map_get?_ids⟩,
    fun _ _ => rfl, fun _ _ => rfl⟩
  · cases hEmpty : catalog.isEmpty with
    | true => rw [restock_of_none hEmpty]; rfl
    | false => rw [restock_of_some hEmpty]
  · intro hNone
    rw [restock_of_none hNone]
    exact ⟨rfl, rfl⟩

/- Three slots, an offer left over and one that waits. -/
def leftoverShop : Shop :=
  ⟨⟨3, [Catalog.plainJoker "j_x" 1]⟩, some 4, 2⟩

/- Two jokers fill three slots, and no joker clears them. -/
theorem restock_fills_every_slot_leftover :
    (Catalog.ofList Catalog.settled).isEmpty = false ∧
      leftoverShop.FillsEverySlot
        (Catalog.ofList Catalog.settled) (.ofSeed 11) ∧
      (leftoverShop.restock (Catalog.ofList Catalog.settled)
          (.ofSeed 11)).1.offers.get? 2 =
        some (Catalog.plainJoker "j_b" 5) ∧
      Catalog.empty.isEmpty = true ∧
      (leftoverShop.restock .empty
          (.ofSeed 11)).1.offers.items = [] ∧
      (leftoverShop.restock .empty (.ofSeed 11)).2 =
        .ofSeed 11 := by
  have hSome :
      (Catalog.ofList Catalog.settled).isEmpty = false := by
    decide
  rcases restock_fills_every_slot leftoverShop
      (Catalog.ofList Catalog.settled) (.ofSeed 11) with
    ⟨-, hFills, -, -, -, -⟩
  rcases restock_fills_every_slot leftoverShop .empty
      (.ofSeed 11) with ⟨-, -, hClears, -, -, -⟩
  have hPlace :
      ((Generator.ofSeed 11).skip 2).next.1.toNat %
          (Catalog.ofList Catalog.settled).size =
        1 := by
    decide +kernel
  have hThird :
      (Catalog.ofList Catalog.settled).toList[1]? =
        some (Catalog.plainJoker "j_b" 5) := by
    decide
  refine ⟨hSome, hFills hSome, ?_, rfl, hClears rfl⟩
  rcases (hFills hSome).chosen 2 (by decide) with
    ⟨a, hItem, hOffer⟩
  rw [hPlace, hThird] at hItem
  rw [hOffer, hItem]

end Shop

end JokerRun
