import JokerRun.Proofs.Area
import JokerRun.Proofs.Catalog
import JokerRun.Shop

/-
  What the shop's counter can do.

  Buying and replacing look before they move anything, so
  that a refusal leaves the counter alone and nothing is
  refused once an offer has left its slot.  New offers are
  the jokers that the next numbers choose.

  Key definitions include:
    * `Shop.stock`
    * `Shop.picks`
    * `Counter.Buys`
    * `Counter.Replaces`
    * `Counter.Rerolls`

  Key theorems include:
    * `Shop.restock_eq`
    * `Shop.fill_eq`
    * `Shop.fits_stock`
    * `Shop.mem_catalog_of_mem_stock`
    * `Counter.buys_buy`
    * `Counter.replaces_replace`
    * `Counter.rerolls_reroll`
-/

------------------------------------------------------------
-- Offers That Leave
------------------------------------------------------------

namespace JokerRun

namespace Shop

/- The shop after an offer is bought. -/
def withoutOffer
    (s : Shop)
    (offer : Nat) : Shop :=
  { s with
    offers :=
      { s.offers with items := s.offers.items.eraseIdx offer }
    pending := none }

/- The shop while an offer waits. -/
def withPending
    (s : Shop)
    (offer : Nat) : Shop :=
  { s with pending := some offer }

/- Restocking keeps the price of new offers. -/
@[simp] theorem rerollCost_restock
    (s : Shop)
    (catalog : Catalog)
    (g : Generator) :
    (s.restock catalog g).1.rerollCost = s.rerollCost := by
  unfold restock
  split <;> rfl

/- No offer waits in a restocked shop. -/
@[simp] theorem pending_restock
    (s : Shop)
    (catalog : Catalog)
    (g : Generator) :
    (s.restock catalog g).1.pending = none := by
  unfold restock
  split <;> rfl

------------------------------------------------------------
-- Fresh Offers
------------------------------------------------------------

/- New offers for a number of slots. -/
def stock
    (catalog : Catalog)
    (slots : Nat)
    (g : Generator) : Area Ability × Generator :=
  if catalog.isEmpty then
    (Area.ofCapacity slots, g)
  else
    fill catalog slots (Area.ofCapacity slots) g

/-
  Restocking looks at the number of slots and at nothing
  else of the shop.
-/
theorem restock_eq
    (s : Shop)
    (catalog : Catalog)
    (g : Generator) :
    s.restock catalog g =
      ({ s with
          offers :=
            (stock catalog s.offers.capacity g).1
          pending := none },
        (stock catalog s.offers.capacity g).2) := by
  unfold restock stock
  split
  · rfl
  · rfl

/- The jokers that the next numbers choose. -/
def picks
    (catalog : Catalog) :
    Nat → Generator → List Ability
  | 0, _ => []
  | n + 1, g =>
      catalog.toList[catalog.choice g]?.toList ++
        picks catalog n (g.skip 1)

section

variable {catalog : Catalog}
variable {offers : Area Ability}
variable {g g' : Generator}

/- One round of filling. -/
theorem fill_succ
    {a : Ability}
    (hRoom : offers.size < offers.capacity)
    (hPick : catalog.pick g = (some a, g'))
    (n : Nat) :
    fill catalog (n + 1) offers g =
      fill catalog n
        { offers with items := offers.items ++ [a] } g' := by
  simp only [fill, hPick, Area.push_of_room hRoom]

/- The picked jokers stand behind the offers there are. -/
theorem fill_eq
    (hSome : catalog.isEmpty = false)
    {n : Nat}
    (hRoom : n ≤ offers.freeSlots) :
    fill catalog n offers g =
      ({ offers with
          items := offers.items ++ picks catalog n g },
        g.skip n) := by
  induction n generalizing offers g with
  | zero =>
      rw [picks, List.append_nil]
      rfl
  | succ n ih =>
      rcases Catalog.pick_of_some hSome g with
        ⟨a, hItem, hPick⟩
      have hSlot : offers.size < offers.capacity :=
        Nat.lt_of_sub_pos (Nat.lt_of_lt_of_le n.succ_pos hRoom)
      have hRest :
          n ≤ Area.freeSlots
            { offers with items := offers.items ++ [a] } := by
        rw [Area.freeSlots_append_singleton]
        exact Nat.le_sub_one_of_lt hRoom
      rw [fill_succ hSlot hPick, ih hRest, picks, hItem,
        Generator.skip_skip, Nat.add_comm 1, List.append_assoc]
      rfl

/- Each number chooses a joker. -/
theorem length_picks
    (hSome : catalog.isEmpty = false)
    (n : Nat) :
    (picks catalog n g).length = n := by
  induction n generalizing g with
  | zero => rfl
  | succ n ih =>
      rcases Catalog.pick_of_some hSome g with ⟨a, hItem, -⟩
      rw [picks, hItem, List.length_append, ih]
      exact Nat.add_comm 1 n

/- Numbers choose jokers of the catalog only. -/
theorem mem_catalog_of_mem_picks
    {a : Ability}
    {n : Nat}
    (hMem : a ∈ picks catalog n g) :
    a ∈ catalog.toList := by
  induction n generalizing g with
  | zero => exact absurd hMem List.not_mem_nil
  | succ n ih =>
      rcases List.mem_append.mp hMem with hFirst | hLater
      · exact List.mem_of_getElem?
          (Option.mem_toList.mp hFirst)
      · exact ih hLater

theorem stock_of_none
    (hNone : catalog.isEmpty = true)
    (slots : Nat) :
    stock catalog slots g = (Area.ofCapacity slots, g) := by
  simp only [stock, hNone, if_true]

/- New offers take every slot. -/
theorem stock_of_some
    (hSome : catalog.isEmpty = false)
    (slots : Nat) :
    stock catalog slots g =
      (⟨slots, picks catalog slots g⟩, g.skip slots) := by
  simp only [stock, hSome, Bool.false_eq_true, if_false]
  exact fill_eq hSome (Nat.le_refl slots)

/- New offers stay within their slots. -/
theorem fits_stock
    (catalog : Catalog)
    (slots : Nat)
    (g : Generator) :
    (stock catalog slots g).1.Fits slots := by
  cases hEmpty : catalog.isEmpty with
  | true =>
      rw [stock_of_none hEmpty]
      exact Area.fits_ofCapacity slots
  | false =>
      rw [stock_of_some hEmpty]
      exact {
        capacity := rfl
        size := (length_picks hEmpty slots).le }

/- New offers are jokers of the catalog. -/
theorem mem_catalog_of_mem_stock
    {slots : Nat}
    {a : Ability}
    (hMem : a ∈ (stock catalog slots g).1.items) :
    a ∈ catalog.toList := by
  cases hEmpty : catalog.isEmpty with
  | true =>
      rw [stock_of_none hEmpty] at hMem
      exact absurd hMem List.not_mem_nil
  | false =>
      rw [stock_of_some hEmpty] at hMem
      exact mem_catalog_of_mem_picks hMem

end

end Shop

------------------------------------------------------------
-- Purchases
------------------------------------------------------------

namespace Counter

/- The counter after an offer is bought into a free slot. -/
def afterBuying
    (c : Counter)
    (offer : Nat)
    (a : Ability) : Counter :=
  ⟨c.shop.withoutOffer offer,
    { c.jokers with items := c.jokers.items ++ [a] },
    c.money - a.cost⟩

/- The counter after an offer is exchanged for a joker. -/
def afterReplacing
    (c : Counter)
    (offer slot : Nat)
    (a : Ability) : Counter :=
  ⟨c.shop.withoutOffer offer,
    { c.jokers with items := c.jokers.items.set slot a },
    c.money - a.cost⟩

------------------------------------------------------------
-- What Each Call May Do
------------------------------------------------------------

/- The answer to buying an offer, and the counter after it. -/
inductive Buys
    (c : Counter)
    (offer : Nat) :
    Except ShopError Purchase → Counter → Prop where
  | noOffer
      (hNone : c.shop.offers.get? offer = none) :
      Buys c offer (.error (.invalidOffer offer)) c
  | tooDear
      {a : Ability}
      (hOffer : c.shop.offers.get? offer = some a)
      (hPoor : c.money < a.cost) :
      Buys c offer
        (.error (.notEnoughMoney a.cost c.money)) c
  | waiting
      {a : Ability}
      (hOffer : c.shop.offers.get? offer = some a)
      (hMoney : a.cost ≤ c.money)
      (hFull : c.jokers.capacity ≤ c.jokers.size) :
      Buys c offer (.ok (.needsReplacement offer))
        { c with shop := c.shop.withPending offer }
  | bought
      {a : Ability}
      (hOffer : c.shop.offers.get? offer = some a)
      (hMoney : a.cost ≤ c.money)
      (hRoom : c.jokers.size < c.jokers.capacity) :
      Buys c offer (.ok (.bought c.jokers.size))
        (c.afterBuying offer a)

/-
  The answer to putting the waiting offer into a slot, and
  the counter after it.
-/
inductive Replaces
    (c : Counter)
    (slot : Nat) :
    Except ShopError Ability → Counter → Prop where
  | nothingWaits
      (hNone : c.shop.pending = none) :
      Replaces c slot (.error .noPendingPurchase) c
  | stale
      {offer : Nat}
      (hPending : c.shop.pending = some offer)
      (hNone : c.shop.offers.get? offer = none) :
      Replaces c slot (.error (.invalidOffer offer)) c
  | tooDear
      {offer : Nat}
      {a : Ability}
      (hPending : c.shop.pending = some offer)
      (hOffer : c.shop.offers.get? offer = some a)
      (hPoor : c.money < a.cost) :
      Replaces c slot
        (.error (.notEnoughMoney a.cost c.money)) c
  | noJoker
      {offer : Nat}
      {a : Ability}
      (hPending : c.shop.pending = some offer)
      (hOffer : c.shop.offers.get? offer = some a)
      (hMoney : a.cost ≤ c.money)
      (hNone : c.jokers.get? slot = none) :
      Replaces c slot (.error (.area (.invalidIndex slot))) c
  | replaced
      {offer : Nat}
      {a old : Ability}
      (hPending : c.shop.pending = some offer)
      (hOffer : c.shop.offers.get? offer = some a)
      (hMoney : a.cost ≤ c.money)
      (hSlot : c.jokers.get? slot = some old) :
      Replaces c slot (.ok old)
        (c.afterReplacing offer slot a)

/-
  The answer to asking for new offers, with the counter and
  the generator after it.
-/
inductive Rerolls
    (c : Counter)
    (catalog : Catalog)
    (g : Generator) :
    Except ShopError Nat → Counter × Generator → Prop where
  | tooDear
      (hPoor : c.money < c.shop.rerollCost) :
      Rerolls c catalog g
        (.error
          (.notEnoughMoney c.shop.rerollCost c.money))
        (c, g)
  | rerolled
      (hMoney : c.shop.rerollCost ≤ c.money) :
      Rerolls c catalog g
        (.ok (c.shop.restock catalog g).1.offers.size)
        (⟨(c.shop.restock catalog g).1, c.jokers,
            c.money - c.shop.rerollCost⟩,
          (c.shop.restock catalog g).2)

------------------------------------------------------------
-- Purchases That Pass The Checks
------------------------------------------------------------

/- On a full board, an offer that can be paid waits. -/
theorem buy_of_full
    {c : Counter}
    {offer : Nat}
    {a : Ability}
    (hOffer : c.shop.offers.get? offer = some a)
    (hMoney : a.cost ≤ c.money)
    (hFull : c.jokers.capacity ≤ c.jokers.size) :
    c.buy offer =
      (.ok (.needsReplacement offer),
        { c with shop := c.shop.withPending offer }) := by
  have hNotPoor := Int.not_lt.mpr hMoney
  have hIsFull := (Area.isFull_iff c.jokers).mpr hFull
  simp only [buy, hOffer, hNotPoor, hIsFull, if_false,
    if_true]
  rfl

/- With a slot left, an offer that can be paid moves in. -/
theorem buy_of_room
    {c : Counter}
    {offer : Nat}
    {a : Ability}
    (hOffer : c.shop.offers.get? offer = some a)
    (hMoney : a.cost ≤ c.money)
    (hRoom : c.jokers.size < c.jokers.capacity) :
    c.buy offer =
      (.ok (.bought c.jokers.size),
        c.afterBuying offer a) := by
  have hNotPoor := Int.not_lt.mpr hMoney
  have hNotFull : ¬ c.jokers.isFull = true := by
    rw [Area.isFull_iff]
    omega
  simp only [buy, hOffer, hNotPoor, hNotFull, if_false,
    Area.take_of_get? hOffer, Area.push_of_room hRoom]
  rfl

/- A waiting offer that is paid takes an occupied slot. -/
theorem replace_of_pending
    {c : Counter}
    {offer slot : Nat}
    {a old : Ability}
    (hPending : c.shop.pending = some offer)
    (hOffer : c.shop.offers.get? offer = some a)
    (hMoney : a.cost ≤ c.money)
    (hSlot : c.jokers.get? slot = some old) :
    c.replace slot =
      (.ok old, c.afterReplacing offer slot a) := by
  have hNotPoor := Int.not_lt.mpr hMoney
  unfold replace
  simp only [hPending, hOffer, hNotPoor, if_false, hSlot,
    Option.isNone_some, Bool.false_eq_true,
    Area.take_of_get? hOffer, Area.replace_of_get? hSlot]
  rfl

------------------------------------------------------------
-- Each Call Does So
------------------------------------------------------------

theorem buys_buy
    (c : Counter)
    (offer : Nat) :
    c.Buys offer (c.buy offer).1 (c.buy offer).2 := by
  cases hOffer : c.shop.offers.get? offer with
  | none =>
      simp only [buy, hOffer]
      exact Buys.noOffer hOffer
  | some a =>
      by_cases hPoor : c.money < a.cost
      · simp only [buy, hOffer, hPoor, if_true]
        exact Buys.tooDear hOffer hPoor
      · have hMoney : a.cost ≤ c.money := Int.not_lt.mp hPoor
        by_cases hRoom : c.jokers.size < c.jokers.capacity
        · rw [buy_of_room hOffer hMoney hRoom]
          exact Buys.bought hOffer hMoney hRoom
        · have hFull := Nat.not_lt.mp hRoom
          rw [buy_of_full hOffer hMoney hFull]
          exact Buys.waiting hOffer hMoney hFull

theorem replaces_replace
    (c : Counter)
    (slot : Nat) :
    c.Replaces slot (c.replace slot).1
      (c.replace slot).2 := by
  cases hPending : c.shop.pending with
  | none =>
      simp only [replace, hPending]
      exact Replaces.nothingWaits hPending
  | some offer =>
      cases hOffer : c.shop.offers.get? offer with
      | none =>
          simp only [replace, hPending, hOffer]
          exact Replaces.stale hPending hOffer
      | some a =>
          by_cases hPoor : c.money < a.cost
          · simp only [replace, hPending, hOffer, hPoor,
              if_true]
            exact Replaces.tooDear hPending hOffer hPoor
          · have hMoney := Int.not_lt.mp hPoor
            cases hSlot : c.jokers.get? slot with
            | none =>
                simp only [replace, hPending, hOffer, hPoor,
                  if_false, hSlot, Option.isNone_none,
                  if_true]
                exact Replaces.noJoker hPending hOffer
                  hMoney hSlot
            | some old =>
                rw [replace_of_pending hPending hOffer
                  hMoney hSlot]
                exact Replaces.replaced hPending hOffer
                  hMoney hSlot

theorem rerolls_reroll
    (c : Counter)
    (catalog : Catalog)
    (g : Generator) :
    c.Rerolls catalog g (c.reroll catalog g).1
      (c.reroll catalog g).2 := by
  unfold reroll
  by_cases hPoor : c.money < c.shop.rerollCost
  · simp only [hPoor, if_true]
    exact Rerolls.tooDear hPoor
  · simp only [hPoor, if_false]
    exact Rerolls.rerolled (Int.not_lt.mp hPoor)

/-
  Buying refuses and leaves all as it was, or lets the offer
  wait on a full board, or moves it into the next slot.
-/
theorem buy_cases
    (c : Counter)
    (offer : Nat) :
    (∃ e, c.buy offer = (.error e, c)) ∨
    (∃ a, c.shop.offers.get? offer = some a ∧
      a.cost ≤ c.money ∧
      c.jokers.capacity ≤ c.jokers.size ∧
      c.buy offer =
        (.ok (.needsReplacement offer),
          { c with shop := c.shop.withPending offer })) ∨
    (∃ a, c.shop.offers.get? offer = some a ∧
      a.cost ≤ c.money ∧
      c.jokers.size < c.jokers.capacity ∧
      c.buy offer =
        (.ok (.bought c.jokers.size),
          c.afterBuying offer a)) := by
  have hBuys := c.buys_buy offer
  generalize c.buy offer = result at hBuys
  rcases result with ⟨answer, after⟩
  dsimp only at hBuys
  cases hBuys with
  | noOffer | tooDear => exact Or.inl ⟨_, rfl⟩
  | waiting hOffer hMoney hFull =>
      exact Or.inr (Or.inl ⟨_, hOffer, hMoney, hFull, rfl⟩)
  | bought hOffer hMoney hRoom =>
      exact Or.inr (Or.inr ⟨_, hOffer, hMoney, hRoom, rfl⟩)

/-
  Replacing refuses and leaves all as it was, or puts the
  waiting offer in the place of a joker.
-/
theorem replace_cases
    (c : Counter)
    (slot : Nat) :
    (∃ e, c.replace slot = (.error e, c)) ∨
    (∃ offer a old, c.shop.pending = some offer ∧
      c.shop.offers.get? offer = some a ∧
      a.cost ≤ c.money ∧
      c.jokers.get? slot = some old ∧
      c.replace slot =
        (.ok old, c.afterReplacing offer slot a)) := by
  have hReplaces := c.replaces_replace slot
  generalize c.replace slot = result at hReplaces
  rcases result with ⟨answer, after⟩
  dsimp only at hReplaces
  cases hReplaces with
  | nothingWaits | stale | tooDear | noJoker =>
      exact Or.inl ⟨_, rfl⟩
  | replaced hPending hOffer hMoney hSlot =>
      exact Or.inr ⟨_, _, _, hPending, hOffer, hMoney,
        hSlot, rfl⟩

/- New offers are refused, or paid for and put out. -/
theorem reroll_cases
    (c : Counter)
    (catalog : Catalog)
    (g : Generator) :
    (∃ e, c.reroll catalog g = (.error e, c, g)) ∨
    (c.shop.rerollCost ≤ c.money ∧
      c.reroll catalog g =
        (.ok (c.shop.restock catalog g).1.offers.size,
          ⟨(c.shop.restock catalog g).1, c.jokers,
            c.money - c.shop.rerollCost⟩,
          (c.shop.restock catalog g).2)) := by
  have hRerolls := c.rerolls_reroll catalog g
  generalize c.reroll catalog g = result at hRerolls
  rcases result with ⟨answer, after⟩
  dsimp only at hRerolls
  cases hRerolls with
  | tooDear => exact Or.inl ⟨_, rfl⟩
  | rerolled hMoney => exact Or.inr ⟨hMoney, rfl⟩

end Counter

end JokerRun
