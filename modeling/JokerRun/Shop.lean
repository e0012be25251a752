import JokerRun.Ability.Catalog
import JokerRun.Area
import JokerRun.Notice
import JokerRun.Rules

/-
  The shop between rounds.

  A counter is the shop together with what a purchase moves:
  the player's jokers and money.  When every joker slot is
  taken, a chosen offer waits until the player names a joker
  to replace, or cancels.

  Key definitions include:
    * `Shop`
    * `Shop.restock`
    * `Counter`
    * `Counter.buy`
    * `Counter.replace`
    * `Counter.reroll`
-/

------------------------------------------------------------
-- Shops
------------------------------------------------------------

namespace JokerRun

/- Offers, the offer that waits, and the price of new ones. -/
structure Shop where
  offers : Area Ability
  pending : Option Nat
  rerollCost : Int
deriving DecidableEq, Repr

/- Why the shop refuses. -/
inductive ShopError where
  | notEnoughMoney (cost money : Int)
  | invalidOffer (index : Nat)
  | noPendingPurchase
  | area (e : AreaError)
deriving DecidableEq, Repr

/- The wording of a refusal. -/
def ShopError.message : ShopError → String
  | .notEnoughMoney cost money =>
      s!"not enough money: need {cost}, have {money}"
  | .invalidOffer i => s!"invalid shop offer index {i}"
  | .noPendingPurchase =>
      "no purchase waiting for a replacement"
  | .area e => s!"area error: {e.message}"

/- What became of a purchase. -/
inductive Purchase where
  /- The joker went into a free slot. -/
  | bought (slot : Nat)
  /- The offer waits for a slot. -/
  | needsReplacement (offer : Nat)
deriving DecidableEq, Repr

namespace Shop

/- A shop without offers. -/
def ofRules
    (rules : RunRules) : Shop :=
  ⟨Area.ofCapacity rules.shopSlots, none, rules.rerollCost⟩

/- The shop with no offer waiting. -/
def cancel
    (s : Shop) : Shop :=
  { s with pending := none }

------------------------------------------------------------
-- Restocking
------------------------------------------------------------

/- Random jokers pushed, as many as asked for. -/
def fill
    (catalog : Catalog) :
    Nat → Area Ability → Generator →
      Area Ability × Generator
  | 0, offers, g => (offers, g)
  | n + 1, offers, g =>
      match catalog.pick g with
      | (none, g) => (offers, g)
      | (some a, g) =>
          match offers.push a with
          | .error _ => (offers, g)
          | .ok (_, offers) => fill catalog n offers g

/- New offers in every slot, none of them waiting. -/
def restock
    (s : Shop)
    (catalog : Catalog)
    (g : Generator) : Shop × Generator :=
  let offers := s.offers.clear
  if catalog.isEmpty then
    ({ s with offers := offers, pending := none }, g)
  else
    let (offers, g) :=
      fill catalog offers.freeSlots offers g
    ({ s with offers := offers, pending := none }, g)

/- The notice that restocking leaves. -/
def restockNotices
    (catalog : Catalog) : List Notice :=
  if catalog.isEmpty then
    [Notice.warning
      "ability catalog is empty, shop left without offers"]
  else
    []

end Shop

------------------------------------------------------------
-- Purchases
------------------------------------------------------------

/- The shop with the player's jokers and money. -/
structure Counter where
  shop : Shop
  jokers : Area Ability
  money : Int
deriving DecidableEq, Repr

namespace Counter

/-
  An offer bought: it moves into the next joker slot, or
  waits when there is none.
-/
def buy
    (c : Counter)
    (offer : Nat) : Except ShopError Purchase × Counter :=
  match c.shop.offers.get? offer with
  | none => (.error (.invalidOffer offer), c)
  | some a =>
      if c.money < a.cost then
        (.error (.notEnoughMoney a.cost c.money), c)
      else if c.jokers.isFull then
        (.ok (.needsReplacement offer),
          { c with
            shop := { c.shop with pending := some offer } })
      else
        match c.shop.offers.take offer with
        | .error e => (.error (.area e), c)
        | .ok (bought, offers) =>
            let shop := { c.shop with offers := offers }
            match c.jokers.push bought with
            | .error e =>
                (.error (.area e), { c with shop := shop })
            | .ok (slot, jokers) =>
                (.ok (.bought slot),
                  ⟨shop.cancel, jokers, c.money - a.cost⟩)

/-
  The waiting offer bought in exchange for a joker, which
  leaves the board.
-/
def replace
    (c : Counter)
    (slot : Nat) : Except ShopError Ability × Counter :=
  match c.shop.pending with
  | none => (.error .noPendingPurchase, c)
  | some offer =>
      match c.shop.offers.get? offer with
      | none => (.error (.invalidOffer offer), c)
      | some a =>
          if c.money < a.cost then
            (.error (.notEnoughMoney a.cost c.money), c)
          else if (c.jokers.get? slot).isNone then
            (.error (.area (.invalidIndex slot)), c)
          else
            match c.shop.offers.take offer with
            | .error e => (.error (.area e), c)
            | .ok (bought, offers) =>
                let shop := { c.shop with offers := offers }
                match c.jokers.replace slot bought with
                | .error e =>
                    (.error (.area e), { c with shop := shop })
                | .ok (removed, jokers) =>
                    (.ok removed,
                      ⟨shop.cancel, jokers,
                        c.money - a.cost⟩)

/- New offers for a price, with their number. -/
def reroll
    (c : Counter)
    (catalog : Catalog)
    (g : Generator) :
    Except ShopError Nat × Counter × Generator :=
  if c.money < c.shop.rerollCost then
    (.error (.notEnoughMoney c.shop.rerollCost c.money), c, g)
  else
    let (shop, g) := c.shop.restock catalog g
    (.ok shop.offers.size,
      { c with
        shop := shop
        money := c.money - c.shop.rerollCost },
      g)

end Counter

end JokerRun
