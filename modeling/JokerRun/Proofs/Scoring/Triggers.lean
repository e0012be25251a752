import JokerRun.Proofs.Scoring.ClosedForm
import Mathlib.Data.List.Enum

/-
  The triggers of a played hand, one by one.

  A trigger is a joker in its slot doing something at one
  moment.  The tally of a played hand is the opening one
  after all its triggers, so whatever a joker contributes is
  found among the triggers of its slot.

  Key definitions include:
    * `Trigger`
    * `Tally.fire`
    * `Scoring.triggersAt`
    * `Scoring.triggers`

  Key theorems include:
    * `Scoring.tally_eq_foldl_fire`
    * `Scoring.filter_slot_triggersAt`
    * `Scoring.filter_slot_triggers_heldRank`
-/

------------------------------------------------------------
-- Triggers
------------------------------------------------------------

namespace JokerRun

/- A joker in its slot that does something at a moment. -/
structure Trigger where
  title : String
  slot : Nat
  owner : Ability
  card : Option Card
  outcome : Outcome
deriving DecidableEq, Repr

/- The tally after a trigger. -/
def Tally.fire
    (t : Tally)
    (x : Trigger) : Tally :=
  t.apply x.title x.owner x.outcome

namespace Scoring

/- The trigger of the joker in a slot, if there is one. -/
def triggerOf?
    (title : String)
    (m : Moment)
    (joker : Ability × Nat) : Option Trigger :=
  (joker.1.outcome? m).map fun o =>
    ⟨title, joker.2, joker.1, m.card, o⟩

/- The triggers of a board at one moment, slot by slot. -/
def triggersAt
    (title : String)
    (m : Moment)
    (board : List Ability) : List Trigger :=
  board.zipIdx.filterMap (triggerOf? title m)

/- The triggers of a board for some cards, card by card. -/
def cardTriggers
    (title : String)
    (phase : Phase)
    (board : List Ability)
    (cards : List Card) : List Trigger :=
  cards.flatMap fun c =>
    triggersAt title ⟨phase, some c, board.length⟩ board

/- All triggers of a hand, in the order of the passes. -/
def triggers
    (scoring idle : List Card)
    (board : List Ability) : List Trigger :=
  cardTriggers "Joker" .individual board scoring ++
    cardTriggers "Held" .heldInHand board idle ++
    triggersAt "Global" ⟨.global, none, board.length⟩ board

------------------------------------------------------------
-- Tallies From Triggers
------------------------------------------------------------

/- A pass over the board fires its triggers. -/
theorem pass_eq_foldl_fire
    (t : Tally)
    (title : String)
    (phase : Phase)
    (card : Option Card)
    (board : List Ability) :
    t.pass title phase card board =
      (triggersAt title ⟨phase, card, board.length⟩
        board).foldl Tally.fire t := by
  unfold Tally.pass triggersAt
  generalize board.length = jokers
  rw [List.foldl_filterMap]
  conv_lhs => rw [← List.zipIdx_map_fst 0 board]
  rw [List.foldl_map]
  congr
  funext t joker
  unfold Tally.trigger triggerOf?
  cases joker.1.outcome? ⟨phase, card, jokers⟩ with
  | none => rfl
  | some o => rfl

theorem passCards_eq_foldl_fire
    (title : String)
    (phase : Phase)
    (board : List Ability)
    (cards : List Card)
    (t : Tally) :
    passCards title phase board cards t =
      (cardTriggers title phase board cards).foldl
        Tally.fire t := by
  unfold passCards cardTriggers
  rw [List.foldl_flatMap]
  congr
  funext t c
  exact pass_eq_foldl_fire t title phase (some c) board

/- The tally of a played hand is that of its triggers. -/
theorem tally_eq_foldl_fire
    (hand : HandResult)
    (scoring held : List Card)
    (board : List Ability) :
    tally hand scoring held board =
      (triggers scoring (idleHeld scoring held) board).foldl
        Tally.fire (opening hand scoring) := by
  unfold triggers
  rw [List.foldl_append, List.foldl_append,
    ← passCards_eq_foldl_fire, ← passCards_eq_foldl_fire,
    ← pass_eq_foldl_fire]
  rfl

------------------------------------------------------------
-- The Triggers Of One Slot
------------------------------------------------------------

section

variable {board : List Ability}
variable {slot : Nat}
variable {a : Ability}

/- A trigger bears the slot of its joker. -/
theorem slot_of_triggerOf?
    {title : String}
    {m : Moment}
    {joker : Ability × Nat}
    {x : Trigger}
    (hOf : triggerOf? title m joker = some x) :
    x.slot = joker.2 := by
  rcases Option.map_eq_some_iff.mp hOf with ⟨o, -, rfl⟩
  rfl

theorem le_slot_of_mem
    {title : String}
    {m : Moment}
    {first : Nat}
    {x : Trigger}
    (hMem :
      x ∈ (board.zipIdx first).filterMap
        (triggerOf? title m)) :
    first ≤ x.slot := by
  rcases List.mem_filterMap.mp hMem with ⟨joker, hAt, hOf⟩
  rw [slot_of_triggerOf? hOf]
  exact List.le_snd_of_mem_zipIdx hAt

/- At one moment a slot has the trigger of its joker alone. -/
theorem filter_slot_zipIdx
    (title : String)
    (m : Moment)
    (hJoker : board[slot]? = some a)
    (first : Nat) :
    ((board.zipIdx first).filterMap
        (triggerOf? title m)).filter
          (fun x => x.slot = first + slot) =
      (triggerOf? title m (a, first + slot)).toList := by
  induction board generalizing slot first with
  | nil => cases hJoker
  | cons b board ih =>
      rw [List.zipIdx_cons, List.filterMap_cons]
      cases slot with
      | zero =>
          cases hJoker
          -- The slots that follow are later ones.
          have hLater :
              ((board.zipIdx (first + 1)).filterMap
                  (triggerOf? title m)).filter
                    (fun x => x.slot = first + 0) = [] := by
            apply List.filter_eq_nil_iff.mpr
            intro x hx
            have hSlot := le_slot_of_mem hx
            simp only [decide_eq_true_eq]
            omega
          cases hOf : triggerOf? title m (a, first) with
          | none => exact hLater
          | some x =>
              have hOwn : x.slot = first :=
                slot_of_triggerOf? hOf
              rw [List.filter_cons_of_pos (by simp [hOwn]),
                hLater]
              rfl
      | succ slot =>
          have hRest := ih hJoker (first + 1)
          have hSum :
              first + 1 + slot = first + (slot + 1) := by
            omega
          rw [hSum] at hRest
          cases hOf : triggerOf? title m (b, first) with
          | none => exact hRest
          | some x =>
              have hOther : x.slot = first :=
                slot_of_triggerOf? hOf
              rw [List.filter_cons_of_neg (by simp [hOther])]
              exact hRest

theorem filter_slot_triggersAt
    (title : String)
    (m : Moment)
    (hJoker : board[slot]? = some a) :
    (triggersAt title m board).filter
        (fun x => x.slot = slot) =
      (triggerOf? title m (a, slot)).toList := by
  have hFirst := filter_slot_zipIdx title m hJoker 0
  rw [Nat.zero_add] at hFirst
  exact hFirst

/-
  For some cards, a slot has the triggers of its joker, card
  by card.
-/
theorem filter_slot_cardTriggers
    (title : String)
    (phase : Phase)
    (hJoker : board[slot]? = some a)
    (cards : List Card) :
    (cardTriggers title phase board cards).filter
        (fun x => x.slot = slot) =
      cards.filterMap fun c =>
        triggerOf? title ⟨phase, some c, board.length⟩
          (a, slot) := by
  unfold cardTriggers
  rw [List.filter_flatMap, List.filterMap_eq_flatMap_toList]
  congr
  funext c
  exact filter_slot_triggersAt title _ hJoker

------------------------------------------------------------
-- Jokers For Held Cards
------------------------------------------------------------

/- What a joker for a held rank does, for one card. -/
def heldRankTrigger
    (slot : Nat)
    (a : Ability)
    (n : Int)
    (rank : Rank)
    (c : Card) : Trigger :=
  ⟨"Held", slot, a, some c,
    .ofMult n s!"+{n} Mult ({rank.name} held)"⟩

/-
  A joker for a held rank triggers for each idle card of its
  rank, once, in the order of the cards, and at no other
  moment of the hand.
-/
theorem filter_slot_triggers_heldRank
    {n : Int}
    {rank : Rank}
    (hJoker : board[slot]? = some a)
    (hEffect : a.effect = some (.heldRankMult n rank))
    (scoring idle : List Card) :
    (triggers scoring idle board).filter
        (fun x => x.slot = slot) =
      (idle.filter fun c => c.rank = rank).map
        (heldRankTrigger slot a n rank) := by
  have hSilent
      (title : String)
      (m : Moment)
      (hPhase : m.phase ≠ .heldInHand) :
      triggerOf? title m (a, slot) = none := by
    unfold triggerOf?
    rw [outcome?_of_phase_ne hEffect hPhase]
    rfl
  have hScoring :
      (scoring.filterMap fun c =>
          triggerOf? "Joker"
            ⟨.individual, some c, board.length⟩
            (a, slot)) = [] := by
    apply List.filterMap_eq_nil_iff.mpr
    intro c _
    exact hSilent "Joker" _ Phase.noConfusion
  have hHeld
      (c : Card) :
      triggerOf? "Held"
          ⟨.heldInHand, some c, board.length⟩ (a, slot) =
        if c.rank = rank then
          some (heldRankTrigger slot a n rank c)
        else
          none := by
    unfold triggerOf?
    rw [outcome?_of_phase_eq hEffect rfl]
    unfold Effect.yield? Effect.onCard?
    by_cases hRank : c.rank = rank
    · simp only [hRank, beq_self_eq_true, if_true]
      rfl
    · simp only [hRank, beq_iff_eq, if_false]
      rfl
  have hIdle :
      (idle.filterMap fun c =>
          triggerOf? "Held"
            ⟨.heldInHand, some c, board.length⟩
            (a, slot)) =
        (idle.filter fun c => c.rank = rank).map
          (heldRankTrigger slot a n rank) := by
    rw [← List.filterMap_eq_map, List.filterMap_filter]
    congr
    funext c
    rw [hHeld]
    simp only [decide_eq_true_eq]
    rfl
  unfold triggers
  rw [List.filter_append, List.filter_append,
    filter_slot_cardTriggers _ _ hJoker,
    filter_slot_cardTriggers _ _ hJoker,
    filter_slot_triggersAt _ _ hJoker, hScoring, hIdle,
    hSilent "Global" _ Phase.noConfusion, List.nil_append,
    Option.toList_none, List.append_nil]

end

end Scoring

end JokerRun
