import JokerRun.Proofs.Area
import JokerRun.Proofs.Scoring.ClosedForm
import Mathlib.Data.List.Enum
import Mathlib.Data.List.Forall2

/-
  What a played hand does not see.

  A hand is a row of passes over the board.  Two boards give
  related tallies when each pass keeps the relation.  A pass
  skips the jokers that idle during a play, it only sees the
  name and the effect of the others, and the name only goes
  into the log.

  Key definitions include:
    * `Ability.idlesInPlay`
    * `Ability.countsJokers`
    * `Ability.ActsAs`
    * `PlaySummary.SameButLog`
    * `Scoring.PassesAlike`

  Key theorems include:
    * `Scoring.tally_of_passesAlike`
    * `Scoring.pass_eq_foldl_acting`
    * `Scoring.passesAlike_of_acting`
    * `Scoring.passesAlike_of_actsAs`
    * `Scoring.idle_jokers_unseen`
-/

------------------------------------------------------------
-- Jokers And What Is Seen Of Them
------------------------------------------------------------

namespace JokerRun

namespace Ability

/- Whether a joker does nothing while a hand is played. -/
def idlesInPlay
    (a : Ability) : Bool :=
  match a.effect with
  | none => true
  | some (.discardRankRebate _ _) => true
  | _ => false

/- Whether a joker looks at the number of jokers. -/
def countsJokers
    (a : Ability) : Bool :=
  match a.effect with
  | some (.countScaledMult _) => true
  | _ => false

/- A joker with the name and the effect of another. -/
structure ActsAs (a b : Ability) : Prop where
  name : b.name = a.name
  effect : b.effect = a.effect

section

variable {a b : Ability}
variable {m : Moment}

/- Idle jokers are silent until cards are discarded. -/
theorem outcome?_of_idlesInPlay
    (hIdle : a.idlesInPlay = true)
    (hPhase : m.phase ≠ .discard) :
    a.outcome? m = none := by
  cases hEffect : a.effect with
  | none => exact Scoring.outcome?_of_inert hEffect m
  | some e =>
      cases e with
      | discardRankRebate d rank =>
          exact Scoring.outcome?_of_phase_ne hEffect hPhase
      | flatMult | suitConditionalMult | countScaledMult
      | flatChips | multFactor | heldRankMult =>
          simp [idlesInPlay, hEffect] at hIdle

/- Most jokers do not see how many jokers there are. -/
theorem outcome?_of_not_countsJokers
    (hPlain : a.countsJokers = false)
    (phase : Phase)
    (card : Option Card)
    (j k : Nat) :
    a.outcome? ⟨phase, card, j⟩ =
      a.outcome? ⟨phase, card, k⟩ := by
  unfold outcome?
  cases hEffect : a.effect with
  | none => rfl
  | some e =>
      cases e with
      | countScaledMult n =>
          simp [countsJokers, hEffect] at hPlain
      | flatMult | suitConditionalMult | discardRankRebate
      | flatChips | multFactor | heldRankMult => rfl

/- What a joker yields is up to its effect. -/
theorem outcome?_of_effect_eq
    (hEffect : b.effect = a.effect)
    (m : Moment) :
    b.outcome? m = a.outcome? m := by
  unfold outcome?
  rw [hEffect]

end

end Ability

------------------------------------------------------------
-- Boards That Pass Alike
------------------------------------------------------------

namespace Scoring

/- Each pass of two boards keeps a relation of tallies. -/
def PassesAlike
    (P : Tally → Tally → Prop)
    (board other : List Ability) : Prop :=
  ∀ (title : String) (phase : Phase) (card : Option Card),
    phase ≠ .discard →
      ∀ t u : Tally, P t u →
        P (t.pass title phase card board)
          (u.pass title phase card other)

section

variable {P : Tally → Tally → Prop}
variable {board other : List Ability}

/- Passes for the same cards keep it as well. -/
theorem passCards_of_passesAlike
    (hPasses : PassesAlike P board other)
    (title : String)
    {phase : Phase}
    (hPhase : phase ≠ .discard)
    (cards : List Card)
    {t u : Tally}
    (hStart : P t u) :
    P (passCards title phase board cards t)
      (passCards title phase other cards u) := by
  unfold passCards
  apply List.foldl_rel hStart
  intro c _ t u hBefore
  exact hPasses title phase (some c) hPhase t u hBefore

/- So a hand ends with related tallies. -/
theorem tally_of_passesAlike
    (hPasses : PassesAlike P board other)
    {hand : HandResult}
    {scoring : List Card}
    (hOpening :
      P (opening hand scoring) (opening hand scoring))
    (held : List Card) :
    P (tally hand scoring held board)
      (tally hand scoring held other) := by
  unfold tally
  dsimp only
  apply hPasses "Global" .global none Phase.noConfusion
  apply passCards_of_passesAlike hPasses "Held"
    Phase.noConfusion
  exact passCards_of_passesAlike hPasses "Joker"
    Phase.noConfusion scoring hOpening

/- Boards with the same passes give the same result. -/
theorem play_of_passesAlike
    (hPasses : PassesAlike Eq board other)
    (rules : List HandRule)
    (selected held : List Card) :
    play rules selected held board =
      play rules selected held other := by
  unfold play
  dsimp only
  rw [tally_of_passesAlike hPasses rfl held]

------------------------------------------------------------
-- Deleted Jokers
------------------------------------------------------------

/-
  Where no joker counts jokers, a pass is one over the
  jokers that act, however many there are.
-/
theorem pass_eq_foldl_acting
    (hPlain : ∀ a ∈ board, a.countsJokers = false)
    (title : String)
    {phase : Phase}
    (hPhase : phase ≠ .discard)
    (card : Option Card)
    (t : Tally) :
    t.pass title phase card board =
      (board.filter fun a => !a.idlesInPlay).foldl
        (fun t a => t.trigger title ⟨phase, card, 0⟩ a)
        t := by
  unfold Tally.pass
  rw [List.foldl_filter]
  apply List.foldl_ext
  intro t a ha
  cases hIdle : a.idlesInPlay with
  | true =>
      exact trigger_of_silence
        (a.outcome?_of_idlesInPlay hIdle hPhase)
  | false =>
      unfold Tally.trigger
      rw [a.outcome?_of_not_countsJokers (hPlain a ha)
        phase card board.length 0]
      rfl

theorem passesAlike_of_acting
    (hBoard : ∀ a ∈ board, a.countsJokers = false)
    (hOther : ∀ a ∈ other, a.countsJokers = false)
    (hActing :
      (board.filter fun a => !a.idlesInPlay) =
        other.filter fun a => !a.idlesInPlay) :
    PassesAlike Eq board other := by
  rintro title phase card hPhase t _ rfl
  rw [pass_eq_foldl_acting hBoard title hPhase,
    pass_eq_foldl_acting hOther title hPhase, hActing]

/- Deleting idle jokers leaves the jokers that act. -/
theorem filter_others_of_idle
    {slots : List Nat}
    (hIdle :
      ∀ slot ∈ slots, ∀ a : Ability,
        board[slot]? = some a → a.idlesInPlay = true) :
    ((Area.others slots board).filter fun a =>
        !a.idlesInPlay) =
      board.filter fun a => !a.idlesInPlay := by
  have hSame :
      ∀ p ∈ board.zipIdx,
        (!p.1.idlesInPlay && !slots.contains p.2) =
          !p.1.idlesInPlay := by
    rintro ⟨a, slot⟩ hMem
    have hAt : board[slot]? = some a :=
      List.mem_zipIdx_iff_getElem?.mp hMem
    by_cases hSlot : slot ∈ slots
    · simp [hIdle slot hSlot a hAt]
    · simp [hSlot]
  calc
    ((Area.others slots board).filter fun a =>
          !a.idlesInPlay) =
        (board.zipIdx.filter fun p =>
          !p.1.idlesInPlay && !slots.contains p.2).map
            Prod.fst := by
      unfold Area.others
      rw [List.filter_map, List.filter_filter]
      rfl
    _ = (board.zipIdx.filter fun p =>
          !p.1.idlesInPlay).map Prod.fst := by
      rw [List.filter_congr hSame]
    _ = (board.zipIdx.map Prod.fst).filter fun a =>
          !a.idlesInPlay := by
      rw [List.filter_map]
      rfl
    _ = board.filter fun a => !a.idlesInPlay := by
      rw [List.zipIdx_map_fst]

/- So idle jokers can be deleted. -/
theorem passesAlike_others
    (hPlain : ∀ a ∈ board, a.countsJokers = false)
    {slots : List Nat}
    (hIdle :
      ∀ slot ∈ slots, ∀ a : Ability,
        board[slot]? = some a → a.idlesInPlay = true) :
    PassesAlike Eq (Area.others slots board) board := by
  apply passesAlike_of_acting
  · intro a ha
    have hParts := Area.chosen_append_others_perm slots board
    exact hPlain a
      (hParts.subset (List.mem_append_right _ ha))
  · exact hPlain
  · exact filter_others_of_idle hIdle

------------------------------------------------------------
-- Jokers In Another Guise
------------------------------------------------------------

/- What each joker keeps, passes over the board keep. -/
theorem passesAlike_of_forall₂
    {R : Ability → Ability → Prop}
    (hTrigger :
      ∀ (title : String) (m : Moment) (t u : Tally)
        (a b : Ability), P t u → R a b →
          P (t.trigger title m a) (u.trigger title m b))
    (hBoards : List.Forall₂ R board other) :
    PassesAlike P board other := by
  intro title phase card _ t u hBefore
  unfold Tally.pass
  rw [← hBoards.length_eq]
  apply List.rel_foldl _ hBefore hBoards
  intro t u hTallies a b hJokers
  exact hTrigger title _ t u a b hTallies hJokers

/- Only the name and the effect of a joker are seen. -/
theorem passesAlike_of_actsAs
    (hBoards : List.Forall₂ Ability.ActsAs board other) :
    PassesAlike Eq board other := by
  refine passesAlike_of_forall₂ ?_ hBoards
  rintro title m t _ a b rfl hJokers
  unfold Tally.trigger Tally.apply
  rw [Ability.outcome?_of_effect_eq hJokers.effect,
    hJokers.name]

/- Chips and mult depend on the effects alone. -/
theorem passesAlike_of_effects
    (hBoards :
      List.Forall₂ (fun a b => b.effect = a.effect) board
        other) :
    PassesAlike
      (fun t u => t.chips = u.chips ∧ t.mult = u.mult)
      board other := by
  refine passesAlike_of_forall₂ ?_ hBoards
  rintro title m t u a b ⟨hChips, hMult⟩ hEffect
  unfold Tally.trigger
  rw [Ability.outcome?_of_effect_eq hEffect]
  cases a.outcome? m with
  | none => exact ⟨hChips, hMult⟩
  | some o =>
      unfold Tally.apply
      simp only [hChips, hMult]
      split_ifs
      · exact ⟨rfl, rfl⟩
      · exact ⟨rfl, rfl⟩

end

end Scoring

------------------------------------------------------------
-- Played Hands
------------------------------------------------------------

/- A result that another differs from in the log at most. -/
def PlaySummary.SameButLog
    (s t : PlaySummary) : Prop :=
  { s with log := t.log } = t

namespace Scoring

theorem play_sameButLog_of_effects
    {board other : List Ability}
    (hBoards :
      List.Forall₂ (fun a b => b.effect = a.effect) board
        other)
    (rules : List HandRule)
    (selected held : List Card) :
    (play rules selected held board).SameButLog
      (play rules selected held other) := by
  let hand := Hand.classify rules selected
  let scoring := hand.scoringCards selected
  have hTally :
      (tally hand scoring held board).chips =
          (tally hand scoring held other).chips ∧
        (tally hand scoring held board).mult =
          (tally hand scoring held other).mult :=
    tally_of_passesAlike (passesAlike_of_effects hBoards)
      ⟨rfl, rfl⟩ held
  unfold PlaySummary.SameButLog play
  dsimp only
  rw [hTally.1, hTally.2]

/-
  A played hand does not see idle jokers, unless some joker
  counts them.  Of a joker it sees the effect, and its name
  in the log.
-/
theorem idle_jokers_unseen
    (rules : List HandRule)
    (selected held : List Card)
    (board : List Ability) :
    ((∀ a ∈ board, a.countsJokers = false) →
      ∀ slots : List Nat,
        (∀ slot ∈ slots, ∀ a : Ability,
          board[slot]? = some a → a.idlesInPlay = true) →
        play rules selected held
            (Area.others slots board) =
          play rules selected held board) ∧
    (∀ other : List Ability,
      List.Forall₂ Ability.ActsAs board other →
        play rules selected held other =
          play rules selected held board) ∧
    (∀ other : List Ability,
      List.Forall₂ (fun a b => b.effect = a.effect) board
          other →
        (play rules selected held other).SameButLog
          (play rules selected held board)) := by
  refine ⟨?_, ?_, ?_⟩
  · intro hPlain slots hIdle
    exact play_of_passesAlike
      (passesAlike_others hPlain hIdle) rules selected held
  · intro other hBoards
    exact (play_of_passesAlike
      (passesAlike_of_actsAs hBoards) rules selected
      held).symm
  · intro other hBoards
    have hTurned :
        List.Forall₂ (fun a b => b.effect = a.effect) other
          board :=
      (hBoards.imp fun _ _ hEffect => hEffect.symm).flip
    exact play_sameButLog_of_effects hTurned rules selected
      held

/- A joker under other words. -/
def disguised
    (a : Ability) : Ability :=
  { a with
    id := "mask"
    description := "Who is it?"
    cost := a.cost + 1
    atlasIndex := 7 }

/- A board with two jokers that idle and two that act. -/
def halfIdleBoard : List Ability :=
  [jokerOf (.discardRankRebate 3 .ace),
    jokerOf (.suitConditionalMult 4 .hearts),
    { jokerOf (.flatMult 0) with effect := none },
    jokerOf (.multFactor (Binary64.ofInt 2))]

/-
  Without its idle jokers, in disguise and under other names
  the board scores the same two kings the same.
-/
theorem idle_jokers_unseen_twoKings :
    play [pairRule] twoKings oneQueen
        (Area.others [0, 2] halfIdleBoard) =
      play [pairRule] twoKings oneQueen halfIdleBoard ∧
    play [pairRule] twoKings oneQueen
        (halfIdleBoard.map disguised) =
      play [pairRule] twoKings oneQueen halfIdleBoard ∧
    (play [pairRule] twoKings oneQueen
        (halfIdleBoard.map fun a =>
          { a with name := "Nobody" })).SameButLog
      (play [pairRule] twoKings oneQueen
        halfIdleBoard) := by
  rcases idle_jokers_unseen [pairRule] twoKings oneQueen
      halfIdleBoard with ⟨hDeleted, hDisguised, hRenamed⟩
  refine ⟨?_, ?_, ?_⟩
  · apply hDeleted (by decide) [0, 2]
    intro slot hSlot a hAt
    rcases List.mem_pair.mp hSlot with rfl | rfl
    · cases hAt
      rfl
    · cases hAt
      rfl
  · apply hDisguised
    rw [List.forall₂_map_right_iff]
    exact List.forall₂_same.mpr fun a _ => ⟨rfl, rfl⟩
  · apply hRenamed
    rw [List.forall₂_map_right_iff]
    exact List.forall₂_same.mpr fun a _ => rfl

end Scoring

end JokerRun
