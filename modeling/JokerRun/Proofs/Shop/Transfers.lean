import JokerRun.Proofs.Shop

/-
  A purchase moves one joker whole, or moves nothing.

  A purchase touches offers, jokers and money, and between
  its moves stand calls that could still fail.  All its
  checks come first, so that none of these calls does:
  either the counter is as it was, or one offer has left its
  slot, has come to the board and is paid.

  Key definitions include:
    * `Counter.holdings`
    * `Counter.TransfersExactly`

  Key theorems include:
    * `Counter.Buys.conserves`
    * `Counter.Replaces.conserves`
    * `Counter.transfers_exactly`
-/

------------------------------------------------------------
-- Refused Calls
------------------------------------------------------------

namespace JokerRun

namespace Counter

section

variable {c after : Counter}
variable {offer slot : Nat}
variable {e : ShopError}

/- A refused purchase leaves the counter as it was. -/
theorem Buys.unchanged
    (hBuys : c.Buys offer (.error e) after) :
    after = c := by
  cases hBuys with
  | noOffer | tooDear => rfl

/- A refused exchange leaves the counter as it was. -/
theorem Replaces.unchanged
    (hReplaces : c.Replaces slot (.error e) after) :
    after = c := by
  cases hReplaces with
  | nothingWaits | stale | tooDear | noJoker => rfl

/- Refused new offers leave counter and generator alone. -/
theorem Rerolls.unchanged
    {catalog : Catalog}
    {g : Generator}
    {result : Counter × Generator}
    (hRerolls : c.Rerolls catalog g (.error e) result) :
    result = (c, g) := by
  cases hRerolls with
  | tooDear => rfl

/- No purchase is refused by an area. -/
theorem Buys.ne_area
    {x : AreaError}
    (hBuys : c.Buys offer (.error e) after) :
    e ≠ .area x := by
  cases hBuys with
  | noOffer | tooDear => exact ShopError.noConfusion

/- An area refuses an exchange for want of a joker only. -/
theorem Replaces.noJoker_of_area
    {x : AreaError}
    (hReplaces :
      c.Replaces slot (.error (.area x)) after) :
    x = .invalidIndex slot ∧
      c.jokers.get? slot = none := by
  cases hReplaces with
  | noJoker _ _ _ hNone => exact ⟨rfl, hNone⟩

------------------------------------------------------------
-- Jokers That Change Places
------------------------------------------------------------

/- The jokers on offer and those on the board. -/
def holdings
    (c : Counter) : List Ability :=
  c.shop.offers.items ++ c.jokers.items

/- Buying neither loses nor doubles a joker. -/
theorem Buys.conserves
    {answer : Except ShopError Purchase}
    (hBuys : c.Buys offer answer after) :
    after.holdings.Perm c.holdings := by
  cases hBuys with
  | noOffer | tooDear | waiting => exact List.Perm.refl _
  | @bought a hOffer =>
      let rest := c.shop.offers.items.eraseIdx offer
      calc
        (rest ++ (c.jokers.items ++ [a])).Perm
            (a :: (rest ++ c.jokers.items)) := by
          rw [← List.append_assoc]
          exact List.perm_append_singleton a _
        _ |>.Perm c.holdings :=
          (Area.perm_of_taken hOffer).append_right
            c.jokers.items

/- An exchange only takes the old joker off the board. -/
theorem Replaces.conserves
    {old : Ability}
    (hReplaces : c.Replaces slot (.ok old) after) :
    (old :: after.holdings).Perm c.holdings := by
  cases hReplaces with
  | @replaced offer a _ _ hOffer _ hSlot =>
      let rest := c.shop.offers.items.eraseIdx offer
      calc
        (old :: (rest ++ c.jokers.items.set slot a)).Perm
            (rest ++ old :: c.jokers.items.set slot a) :=
          List.perm_middle.symm
        _ |>.Perm (rest ++ a :: c.jokers.items) :=
          (Area.perm_of_replaced hSlot a).append_left rest
        _ |>.Perm (a :: rest ++ c.jokers.items) :=
          List.perm_middle
        _ |>.Perm c.holdings :=
          (Area.perm_of_taken hOffer).append_right
            c.jokers.items

end

------------------------------------------------------------
-- Exact Transfers
------------------------------------------------------------

/-
  What is asked of a counter.  Each call answers and acts as
  its own relation says; a refusal changes nothing and never
  comes from a call behind the checks, since these calls
  succeed; and no joker is lost or doubled.
-/
structure TransfersExactly
    (c : Counter) : Prop where
  buys :
    ∀ offer,
      c.Buys offer (c.buy offer).1 (c.buy offer).2
  replaces :
    ∀ slot,
      c.Replaces slot (c.replace slot).1 (c.replace slot).2
  rerolls :
    ∀ catalog g,
      c.Rerolls catalog g (c.reroll catalog g).1
        (c.reroll catalog g).2
  buyRefused :
    ∀ offer e, (c.buy offer).1 = .error e →
      (c.buy offer).2 = c ∧ ∀ x, e ≠ .area x
  replaceRefused :
    ∀ slot e, (c.replace slot).1 = .error e →
      (c.replace slot).2 = c ∧
        ∀ x, e = .area x →
          x = .invalidIndex slot ∧
            c.jokers.get? slot = none
  rerollRefused :
    ∀ catalog g e, (c.reroll catalog g).1 = .error e →
      (c.reroll catalog g).2 = (c, g)
  buyConserves :
    ∀ offer, (c.buy offer).2.holdings.Perm c.holdings
  replaceConserves :
    ∀ slot old, (c.replace slot).1 = .ok old →
      (old :: (c.replace slot).2.holdings).Perm c.holdings
  takes :
    ∀ offer a, c.shop.offers.get? offer = some a →
      ∃ rest, c.shop.offers.take offer = .ok (a, rest)
  pushes :
    ∀ a, c.jokers.isFull = false →
      ∃ board, c.jokers.push a = .ok (c.jokers.size, board)
  exchanges :
    ∀ slot old a, c.jokers.get? slot = some old →
      ∃ board, c.jokers.replace slot a = .ok (old, board)

/- Whatever waits or lies in the shop, transfers are exact. -/
theorem transfers_exactly
    (c : Counter) :
    c.TransfersExactly where
  buys := c.buys_buy
  replaces := c.replaces_replace
  rerolls := c.rerolls_reroll
  buyRefused := by
    intro offer e hRefused
    have hBuys := c.buys_buy offer
    rw [hRefused] at hBuys
    exact ⟨hBuys.unchanged, fun x => hBuys.ne_area⟩
  replaceRefused := by
    intro slot e hRefused
    have hReplaces := c.replaces_replace slot
    rw [hRefused] at hReplaces
    refine ⟨hReplaces.unchanged, ?_⟩
    rintro x rfl
    exact hReplaces.noJoker_of_area
  rerollRefused := by
    intro catalog g e hRefused
    have hRerolls := c.rerolls_reroll catalog g
    rw [hRefused] at hRerolls
    exact hRerolls.unchanged
  buyConserves offer := (c.buys_buy offer).conserves
  replaceConserves := by
    intro slot old hReplaced
    have hReplaces := c.replaces_replace slot
    rw [hReplaced] at hReplaces
    exact hReplaces.conserves
  takes _ _ hOffer := ⟨_, Area.take_of_get? hOffer⟩
  pushes := by
    intro a hNotFull
    have hRoom : c.jokers.size < c.jokers.capacity := by
      simpa [Area.isFull] using hNotFull
    exact ⟨_, Area.push_of_room hRoom a⟩
  exchanges _ _ a hSlot :=
    ⟨_, Area.replace_of_get? hSlot a⟩

end Counter

end JokerRun
