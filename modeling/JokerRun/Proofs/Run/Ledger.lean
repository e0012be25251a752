import JokerRun.Proofs.Catalog
import JokerRun.Proofs.Run.Replay
import Mathlib.Algebra.Order.Group.Multiset

/-
  The jokers of a run are those that its events account for.

  A joker moves by value: from the catalog to an offer, from
  an offer to a slot of the board, and off the board again,
  while the events name it by an identifier that is read
  beside the move.  The ledger says that both agree: every
  joker on the board and in the shop is the catalog's own
  entry, and the identifiers on the board are those of gifts
  and purchases, less those of exchanges and sales.

  Key definitions include:
    * `Ability.ids`
    * `Run.jokerIds`
    * `Run.idsIn`
    * `Run.idsOut`
    * `Run.giftIds`
    * `Run.BoardMove`
    * `Run.Catalogued`
    * `Run.KeepsLedger`

  Key theorems include:
    * `Run.BoardMove.balance`
    * `Run.boardMove_step`
    * `Run.catalogued_step`
    * `Run.balance_performAll`
    * `Run.keeps_ledger`
-/

------------------------------------------------------------
-- What Events Say About Jokers
------------------------------------------------------------

namespace JokerRun

namespace Event

/- The identifiers of jokers that come to the board. -/
def idsIn : Event → List String
  | .jokerBought id _ _ => [id]
  | .jokerReplaced _ bought _ _ => [bought]
  | _ => []

/- The identifiers of jokers that leave the board. -/
def idsOut : Event → List String
  | .jokerReplaced sold _ _ _ => [sold]
  | .jokerSold id _ _ => [id]
  | _ => []

/- Whether an event is about no joker of the board. -/
def IsSilent
    (e : Event) : Prop :=
  e.idsIn = [] ∧ e.idsOut = []

end Event

/- The identifiers of some jokers. -/
def Ability.ids
    (as : List Ability) : Multiset String :=
  (as.map Ability.id : List String)

section

variable {as bs : List Ability}

theorem Ability.ids_cons
    (a : Ability) :
    ids (a :: as) = ids as + {a.id} := by
  unfold ids
  rw [List.map_cons, ← Multiset.cons_coe,
    ← Multiset.singleton_add]
  exact add_comm _ _

/- The order of the jokers does not matter. -/
theorem Ability.ids_perm
    (hPerm : as.Perm bs) :
    ids as = ids bs :=
  Multiset.coe_eq_coe.mpr (hPerm.map Ability.id)

end

namespace Run

/- The identifiers of the jokers on the board. -/
def jokerIds
    (r : Run) : Multiset String :=
  Ability.ids r.jokers.items

/- The identifiers of jokers that events bring. -/
def idsIn
    (events : List Event) : Multiset String :=
  (events.flatMap Event.idsIn : List String)

/- The identifiers of jokers that events take away. -/
def idsOut
    (events : List Event) : Multiset String :=
  (events.flatMap Event.idsOut : List String)

/- The identifier of the joker that a call gives away. -/
def giftId : Action → Except RunError Reply → Multiset String
  | .addJoker id, .ok (.added (some _)) => {id}
  | _, _ => 0

/- The identifiers of all jokers that calls give away. -/
def giftIds
    (r : Run) : List Action → Multiset String
  | [] => 0
  | a :: as =>
      giftId a (r.perform a).answer +
        (r.perform a).run.giftIds as

section

variable (events more : List Event)

@[simp] theorem idsIn_append :
    idsIn (events ++ more) = idsIn events + idsIn more := by
  unfold idsIn
  rw [List.flatMap_append, Multiset.coe_add]

@[simp] theorem idsOut_append :
    idsOut (events ++ more) =
      idsOut events + idsOut more := by
  unfold idsOut
  rw [List.flatMap_append, Multiset.coe_add]

end

/- A refusal gives no joker away. -/
@[simp] theorem giftId_error
    (a : Action)
    (e : RunError) :
    giftId a (.error e) = 0 := by
  cases a <;> rfl

------------------------------------------------------------
-- Events About Cards And Rounds
------------------------------------------------------------

/- Events that are about no joker of the board. -/
def Silent
    (events : List Event) : Prop :=
  ∀ e ∈ events, e.IsSilent

theorem Silent.append
    {events more : List Event}
    (hEvents : Silent events)
    (hMore : Silent more) :
    Silent (events ++ more) := by
  intro e he
  rcases List.mem_append.mp he with he | he
  · exact hEvents e he
  · exact hMore e he

theorem Silent.cons
    {e : Event}
    {events : List Event}
    (hEvent : e.IsSilent)
    (hEvents : Silent events) :
    Silent (e :: events) :=
  List.forall_mem_cons.mpr ⟨hEvent, hEvents⟩

/- Events that name no joker bring none. -/
theorem Silent.idsIn_eq
    {events : List Event}
    (hSilent : Silent events) :
    idsIn events = 0 := by
  unfold idsIn
  rw [List.flatMap_eq_nil_iff.mpr fun e he =>
    (hSilent e he).1]
  rfl

theorem Silent.idsOut_eq
    {events : List Event}
    (hSilent : Silent events) :
    idsOut events = 0 := by
  unfold idsOut
  rw [List.flatMap_eq_nil_iff.mpr fun e he =>
    (hSilent e he).2]
  rfl

theorem silent_nil : Silent [] :=
  fun _ he => absurd he List.not_mem_nil

theorem silent_singleton
    {e : Event}
    (hEvent : e.IsSilent) :
    Silent [e] :=
  silent_nil.cons hEvent

theorem silent_dealt
    (n : Nat) :
    Silent (dealt n) := by
  unfold dealt
  split
  · exact silent_nil
  · exact silent_singleton ⟨rfl, rfl⟩

theorem silent_refill
    (r : Run) :
    Silent r.refill.events := by
  rw [refill_events]
  exact silent_dealt _

theorem silent_handEvents
    (r : Run) :
    Silent r.handEvents :=
  (silent_refill _).cons ⟨rfl, rfl⟩

theorem silent_clearRound
    (r : Run) :
    Silent r.clearRound.events := by
  unfold clearRound
  generalize r.shop.restock r.catalog r.generator = stocked
  exact (silent_singleton ⟨rfl, rfl⟩).cons ⟨rfl, rfl⟩

theorem silent_loseRun
    (r : Run) :
    Silent r.loseRun.events :=
  silent_singleton ⟨rfl, rfl⟩

------------------------------------------------------------
-- Moves Of The Board
------------------------------------------------------------

/-
  How the board may move, with the identifiers that come and
  the ones that leave.  What comes is always an entry of the
  catalog.
-/
inductive BoardMove
    (r r' : Run) :
    Multiset String → Multiset String → Prop where
  | kept
      (hBoard : r'.jokers = r.jokers) :
      BoardMove r r' 0 0
  | joined
      {a : Ability}
      (hEntry : r.catalog.get? a.id = some a)
      (hBoard :
        r'.jokers.items = r.jokers.items ++ [a]) :
      BoardMove r r' {a.id} 0
  | exchanged
      {slot : Nat}
      {old a : Ability}
      (hEntry : r.catalog.get? a.id = some a)
      (hSlot : r.jokers.get? slot = some old)
      (hBoard :
        r'.jokers.items = r.jokers.items.set slot a) :
      BoardMove r r' {a.id} {old.id}
  | left
      {slot : Nat}
      {old : Ability}
      (hSlot : r.jokers.get? slot = some old)
      (hBoard :
        r'.jokers.items = r.jokers.items.eraseIdx slot) :
      BoardMove r r' 0 {old.id}

section

variable {r r' : Run}
variable {gained lost : Multiset String}

/- The identifiers on the board move with the board. -/
theorem BoardMove.balance
    (hMove : BoardMove r r' gained lost) :
    r'.jokerIds + lost = r.jokerIds + gained := by
  unfold jokerIds
  cases hMove with
  | kept hBoard => rw [hBoard]
  | @joined a hEntry hBoard =>
      have hBehind :=
        List.perm_append_singleton a r.jokers.items
      rw [hBoard, Ability.ids_perm hBehind,
        Ability.ids_cons, add_zero]
  | @exchanged slot old a hEntry hSlot hBoard =>
      have hSwap := Area.perm_of_replaced hSlot a
      rw [hBoard, ← Ability.ids_cons,
        Ability.ids_perm hSwap, Ability.ids_cons]
  | left hSlot hBoard =>
      have hSplit := Area.perm_of_taken hSlot
      rw [hBoard, ← Ability.ids_cons,
        Ability.ids_perm hSplit, add_zero]

/- What comes is known, so a known board stays known. -/
theorem BoardMove.known
    (hMove : BoardMove r r' gained lost)
    (hKnown :
      ∀ a ∈ r.jokers.items,
        r.catalog.get? a.id = some a) :
    ∀ a ∈ r'.jokers.items,
      r.catalog.get? a.id = some a := by
  intro b hb
  cases hMove with
  | kept hBoard =>
      rw [hBoard] at hb
      exact hKnown b hb
  | joined hEntry hBoard =>
      rw [hBoard, List.mem_append, List.mem_singleton] at hb
      rcases hb with hOld | rfl
      · exact hKnown b hOld
      · exact hEntry
  | exchanged hEntry hSlot hBoard =>
      rw [hBoard] at hb
      rcases List.mem_or_eq_of_mem_set hb with hOld | rfl
      · exact hKnown b hOld
      · exact hEntry
  | left hSlot hBoard =>
      rw [hBoard] at hb
      exact hKnown b (List.mem_of_mem_eraseIdx hb)

end

------------------------------------------------------------
-- However An Action Ends
------------------------------------------------------------

/- A run whose jokers and offers are the catalog's own. -/
structure Catalogued (r : Run) : Prop where
  filed : r.catalog.Filed
  jokers :
    ∀ a ∈ r.jokers.items, r.catalog.get? a.id = some a
  offers :
    ∀ a ∈ r.shop.offers.items,
      r.catalog.get? a.id = some a

section

variable {r r' : Run}
variable {a : Action}
variable {answer : Except RunError Reply}
variable {events : List Event}

/-
  However an action ends, the board moves as its events and
  gifts say, and in no other way.
-/
theorem boardMove_step
    (hKnown : r.Catalogued)
    (hStep : Step r a answer r' events) :
    BoardMove r r' (giftId a answer + idsIn events)
      (idsOut events) := by
  have hKept
      (hBoard : r'.jokers = r.jokers)
      (hGift : giftId a answer = 0)
      (hSilent : Silent events) :
      BoardMove r r' (giftId a answer + idsIn events)
        (idsOut events) := by
    rw [hGift, hSilent.idsIn_eq, hSilent.idsOut_eq]
    exact BoardMove.kept hBoard
  cases hStep with
  | refused => exact hKept rfl (giftId_error _ _) silent_nil
  | unselected | selected | selectionCleared | waiting
  | purchaseCancelled | notAdded =>
      exact hKept rfl rfl silent_nil
  | started | nextStarted =>
      refine hKept ?_ rfl
        ((silent_refill r.deal).cons ⟨rfl, rfl⟩)
      rw [refill_jokers, deal_eq]
  | refilled => exact hKept rfl rfl (silent_refill r)
  | played => exact hKept rfl rfl (silent_handEvents r)
  | won =>
      refine hKept ?_ rfl
        ((silent_handEvents r).append (silent_clearRound _))
      rw [clearRound_run]
      rfl
  | lost =>
      exact hKept rfl rfl
        ((silent_handEvents r).append (silent_loseRun _))
  | discarded =>
      exact hKept rfl rfl
        ((silent_refill _).cons ⟨rfl, rfl⟩)
  | rerolled =>
      exact hKept rfl rfl (silent_singleton ⟨rfl, rfl⟩)
  | bought hPhase hOffer =>
      exact BoardMove.joined
        (hKnown.offers _ (List.mem_of_getElem? hOffer)) rfl
  | replaced hPhase hPending hOffer hMoney hSlot =>
      exact BoardMove.exchanged
        (hKnown.offers _ (List.mem_of_getElem? hOffer))
        hSlot rfl
  | sold hPhase hSlot => exact BoardMove.left hSlot rfl
  | @added id b hEntry hRoom =>
      have hId := hKnown.filed.id_of_get? hEntry
      rw [← hId] at hEntry ⊢
      exact BoardMove.joined hEntry rfl

/- New offers come from the catalog alone. -/
theorem offer_step
    (hStep : Step r a answer r' events)
    {b : Ability}
    (hOffer : b ∈ r'.shop.offers.items) :
    b ∈ r.shop.offers.items ∨ b ∈ r.catalog.toList := by
  have hRestocked
      (hNew :
        b ∈ (r.shop.restock r.catalog
          r.generator).1.offers.items) :
      b ∈ r.catalog.toList := by
    rw [Shop.restock_eq] at hNew
    exact Shop.mem_catalog_of_mem_stock hNew
  cases hStep with
  | refused | refilled | unselected | selected
  | selectionCleared | played | lost | discarded | waiting
  | purchaseCancelled | sold | added | notAdded =>
      exact Or.inl hOffer
  | started | nextStarted =>
      rw [refill_shop, deal_eq] at hOffer
      exact Or.inl hOffer
  | bought | replaced =>
      exact Or.inl (List.mem_of_mem_eraseIdx hOffer)
  | won =>
      rw [clearRound_run] at hOffer
      exact Or.inr (hRestocked hOffer)
  | rerolled => exact Or.inr (hRestocked hOffer)

/-
  However an action ends, jokers and offers stay the
  catalog's own.
-/
theorem catalogued_step
    (hKnown : r.Catalogued)
    (hStep : Step r a answer r' events) :
    r'.Catalogued := by
  have hCatalog := hStep.sameTable.catalog
  refine ⟨?_, ?_, ?_⟩
  · rw [hCatalog]
    exact hKnown.filed
  · rw [hCatalog]
    exact (boardMove_step hKnown hStep).known hKnown.jokers
  · intro b hb
    rw [hCatalog]
    rcases offer_step hStep hb with hOld | hNew
    · exact hKnown.offers b hOld
    · exact hKnown.filed.get?_id hNew

end

------------------------------------------------------------
-- Whatever Actions Are Taken
------------------------------------------------------------

/- At its beginning a run has no jokers and no offers. -/
theorem catalogued_begin
    (rules : Rules)
    (chips : RankChips)
    {catalog : Catalog}
    (hFiled : catalog.Filed)
    (seed : UInt64) :
    (Run.begin rules chips catalog seed).Catalogued where
  filed := hFiled
  jokers := fun _ ha => absurd ha List.not_mem_nil
  offers := fun _ ha => absurd ha List.not_mem_nil

theorem catalogued_performAll
    {r : Run}
    (hReachable : Reachable r)
    (hKnown : r.Catalogued)
    (as : List Action) :
    (r.performAll as).Catalogued := by
  induction as generalizing r with
  | nil => exact hKnown
  | cons a as ih =>
      exact ih (Reachable.perform a hReachable)
        (catalogued_step hKnown
          (step_of_reachable hReachable a))

/-
  Over any actions, what is on the board and what left it is
  what was there before, was given and was bought.
-/
theorem balance_performAll
    {r : Run}
    (hReachable : Reachable r)
    (hKnown : r.Catalogued)
    (as : List Action) :
    (r.performAll as).jokerIds + idsOut (r.announced as) =
      r.jokerIds +
        (r.giftIds as + idsIn (r.announced as)) := by
  induction as generalizing r with
  | nil => rfl
  | cons a as ih =>
      have hStep := step_of_reachable hReachable a
      have hFirst := (boardMove_step hKnown hStep).balance
      have hRest := ih (Reachable.perform a hReachable)
        (catalogued_step hKnown hStep)
      simp only [performAll, announced, giftIds,
        idsIn_append, idsOut_append]
      generalize (r.perform a).run = r' at *
      generalize (r.perform a).events = events at *
      generalize giftId a (r.perform a).answer = gift at *
      calc
        (r'.performAll as).jokerIds +
              (idsOut events + idsOut (r'.announced as))
          = (r'.performAll as).jokerIds +
                idsOut (r'.announced as) +
              idsOut events := by
            rw [add_comm (idsOut events), add_assoc]
        _ = r'.jokerIds +
                (r'.giftIds as + idsIn (r'.announced as)) +
              idsOut events := by rw [hRest]
        _ = r'.jokerIds + idsOut events +
              (r'.giftIds as + idsIn (r'.announced as)) :=
            add_right_comm _ _ _
        _ = r.jokerIds + (gift + idsIn events) +
              (r'.giftIds as + idsIn (r'.announced as)) := by
            rw [hFirst]
        _ = r.jokerIds +
              (gift + r'.giftIds as +
                (idsIn events + idsIn (r'.announced as))) := by
            rw [add_assoc, add_add_add_comm]

/-
  After any actions: jokers and offers are the catalog's own
  entries, the identifiers on the board are those given and
  bought less those exchanged and sold, and whatever action
  follows moves the board as it announces.
-/
structure KeepsLedger
    (start : Run)
    (as : List Action) : Prop where
  jokers :
    ∀ a ∈ (start.performAll as).jokers.items,
      start.catalog.get? a.id = some a
  offers :
    ∀ a ∈ (start.performAll as).shop.offers.items,
      start.catalog.get? a.id = some a
  balance :
    (start.performAll as).jokerIds +
        idsOut (start.announced as) =
      start.giftIds as + idsIn (start.announced as)
  action :
    ∀ a : Action,
      BoardMove (start.performAll as)
        ((start.performAll as).perform a).run
        (giftId a ((start.performAll as).perform a).answer +
          idsIn ((start.performAll as).perform a).events)
        (idsOut ((start.performAll as).perform a).events)

/- Every run of a catalog keeps the ledger of its jokers. -/
theorem keeps_ledger
    (rules : Rules)
    (chips : RankChips)
    (abilities : List Ability)
    (seed : UInt64)
    (as : List Action) :
    KeepsLedger
      (Run.begin rules chips (Catalog.ofList abilities) seed)
      as := by
  have hBegin :=
    Reachable.begin rules chips (Catalog.ofList abilities)
      seed
  have hKnown :=
    catalogued_begin rules chips
      (Catalog.filed_ofList abilities) seed
  have hLater := catalogued_performAll hBegin hKnown as
  have hCatalog := (sameTable_performAll hBegin as).catalog
  exact {
    jokers := hCatalog ▸ hLater.jokers
    offers := hCatalog ▸ hLater.offers
    balance :=
      (balance_performAll hBegin hKnown as).trans
        (zero_add _)
    action := fun a =>
      boardMove_step hLater
        (step_of_reachable (reachable_performAll hBegin as)
          a) }

end Run

end JokerRun
