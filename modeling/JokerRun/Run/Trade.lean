import JokerRun.Run.Basic

/-
  The actions that trade jokers.

  Key definitions include:
    * `Run.buy`
    * `Run.replace`
    * `Run.reroll`
    * `Run.sell`
    * `Run.addJoker`
-/

------------------------------------------------------------
-- The Counter Of A Run
------------------------------------------------------------

namespace JokerRun

namespace Run

/- What the run brings to the shop's counter. -/
def counter
    (r : Run) : Counter :=
  ⟨r.shop, r.jokers, r.progress.money⟩

/- The run with what it takes back from the counter. -/
def withCounter
    (r : Run)
    (c : Counter) : Run :=
  { r with
    shop := c.shop
    jokers := c.jokers
    progress := { r.progress with money := c.money } }

------------------------------------------------------------
-- Buying
------------------------------------------------------------

/- An offer bought, or kept until a slot is named. -/
def buy
    (r : Run)
    (offer : Nat) : Turn Purchase :=
  if r.phase ≠ .shop then
    .refuse r (.invalidPhase r.phase)
  else
    match r.counter.buy offer with
    | (.error e, c) => .refuse (r.withCounter c) (.shop e)
    | (.ok (.needsReplacement i), c) =>
        .quiet (r.withCounter c) (.needsReplacement i)
    | (.ok (.bought slot), c) =>
        let events :=
          match r.shop.offers.get? offer with
          | none => []
          | some a => [.jokerBought a.id a.cost c.money]
        ⟨.ok (.bought slot), r.withCounter c, events, []⟩

/- The offer that waits exchanged for a joker. -/
def replace
    (r : Run)
    (slot : Nat) : Turn Unit :=
  if r.phase ≠ .shop then
    .refuse r (.invalidPhase r.phase)
  else
    match r.counter.replace slot with
    | (.error e, c) => .refuse (r.withCounter c) (.shop e)
    | (.ok removed, c) =>
        let bought :=
          match c.jokers.get? slot with
          | none => ""
          | some a => a.id
        ⟨.ok (), r.withCounter c,
          [.jokerReplaced removed.id bought
            (r.progress.money - c.money) c.money],
          []⟩

/- New offers for a price, with their number. -/
def reroll
    (r : Run) : Turn Nat :=
  if r.phase ≠ .shop then
    .refuse r (.invalidPhase r.phase)
  else
    match r.counter.reroll r.catalog r.generator with
    | (.error e, c, g) =>
        .refuse { r.withCounter c with generator := g }
          (.shop e)
    | (.ok n, c, g) =>
        ⟨.ok n, { r.withCounter c with generator := g },
          [.shopRestocked n c.money],
          Shop.restockNotices r.catalog⟩

------------------------------------------------------------
-- Selling
------------------------------------------------------------

/- A joker sold, with what it brought. -/
def sell
    (r : Run)
    (slot : Nat) : Turn Int :=
  if r.phase = .gameOver then
    .refuse r (.invalidPhase r.phase)
  else
    match r.jokers.take slot with
    | .error _ => .refuse r (.invalidJokerIndex slot)
    | .ok (sold, jokers) =>
        let value := sold.sellValue
        let money := Amount.add r.progress.money value
        ⟨.ok value,
          { r with
            jokers := jokers
            shop := r.shop.cancel
            progress := { r.progress with money := money } },
          [.jokerSold sold.id value money], []⟩

------------------------------------------------------------
-- Gifts
------------------------------------------------------------

/- A joker of the catalog put on the board, with its slot. -/
def addJoker
    (r : Run)
    (id : String) : Option Nat × Run :=
  match r.catalog.get? id with
  | none => (none, r)
  | some a =>
      match r.jokers.push a with
      | .error _ => (none, r)
      | .ok (slot, jokers) =>
          (some slot, { r with jokers := jokers })

end Run

end JokerRun
