import JokerRun.Proofs.Scoring.ClosedForm
import Mathlib.Data.List.Perm.Basic

/-
  When the order of the jokers matters.

  Chips and mult of a whole hand never look at each other.
  Chips only gain, so they end at a sum that has no order.
  Mult gains and is multiplied, so it follows the jokers
  that move it, in board order; where no joker multiplies,
  mult ends at a sum as well.

  Key definitions include:
    * `Ability.movesMult`
    * `Ability.multiplies`
    * `PlaySummary.SameNumbers`

  Key theorems include:
    * `Scoring.chips_foldl_globalStep`
    * `Scoring.mult_foldl_globalStep`
    * `Scoring.mult_foldl_of_not_multiplies`
    * `Scoring.cardStanding_perm`
    * `Scoring.play_sameNumbers_of_reordered`
-/

------------------------------------------------------------
-- Jokers That Move Mult
------------------------------------------------------------

namespace JokerRun

namespace Ability

/- Whether a joker acts on the mult of the whole hand. -/
def movesMult
    (a : Ability) : Bool :=
  match a.effect with
  | some (.flatMult _) => true
  | some (.countScaledMult _) => true
  | some (.multFactor _) => true
  | _ => false

/- Whether a joker multiplies by more than one. -/
def multiplies
    (a : Ability) : Bool :=
  match a.effect with
  | some (.multFactor f) => f.exceedsOne
  | _ => false

end Ability

namespace Scoring

/- Chips that a joker offers for the whole hand. -/
def chipsOffer
    (a : Ability) : Int :=
  match a.effect with
  | some (.flatChips n) => n
  | _ => 0

/- Mult that a joker offers to add for the whole hand. -/
def multOffer
    (jokers : Nat)
    (a : Ability) : Int :=
  match a.effect with
  | some (.flatMult n) => n
  | some (.countScaledMult n) => Amount.clamp (n * jokers)
  | _ => 0

------------------------------------------------------------
-- One Joker
------------------------------------------------------------

section

variable {v w : Standing}

/- Of a joker, chips only see what it offers in chips. -/
theorem chips_globalStep
    (hRange : v.InRange)
    (j : Nat)
    (a : Ability) :
    (globalStep j v a).chips =
      Tally.gain v.chips (chipsOffer a) := by
  cases hEffect : a.effect with
  | none =>
      simp only [globalStep, chipsOffer, hEffect]
      rfl
  | some e =>
      cases e with
      | flatChips n =>
          simp only [globalStep, chipsOffer, hEffect]
          rw [Tally.gain_eq_add hRange.chips]
      | multFactor f =>
          simp only [globalStep, chipsOffer, hEffect]
          split_ifs <;> rfl
      | flatMult | countScaledMult | suitConditionalMult
      | discardRankRebate | heldRankMult =>
          simp only [globalStep, chipsOffer, hEffect]
          rfl

/- A joker that does not multiply adds what it offers. -/
theorem mult_globalStep_of_not_multiplies
    (hRange : v.InRange)
    (j : Nat)
    {a : Ability}
    (hPlain : a.multiplies = false) :
    (globalStep j v a).mult =
      Tally.gain v.mult (multOffer j a) := by
  cases hEffect : a.effect with
  | none =>
      simp only [globalStep, multOffer, hEffect]
      rfl
  | some e =>
      cases e with
      | flatMult n | countScaledMult n =>
          simp only [globalStep, multOffer, hEffect]
          rw [Tally.gain_eq_add hRange.mult]
      | multFactor f =>
          have hSmall : f.exceedsOne = false := by
            simpa only [Ability.multiplies, hEffect]
              using hPlain
          simp only [globalStep, multOffer, hEffect, hSmall]
          rfl
      | flatChips | suitConditionalMult
      | discardRankRebate | heldRankMult =>
          simp only [globalStep, multOffer, hEffect]
          rfl

/- Mult does not see the other jokers. -/
theorem mult_globalStep_of_not_movesMult
    (j : Nat)
    {a : Ability}
    (hStill : a.movesMult = false) :
    (globalStep j v a).mult = v.mult := by
  cases hEffect : a.effect with
  | none => simp only [globalStep, hEffect]
  | some e =>
      cases e with
      | flatMult | countScaledMult | multFactor =>
          simp [Ability.movesMult, hEffect] at hStill
      | flatChips | suitConditionalMult
      | discardRankRebate | heldRankMult =>
          simp only [globalStep, hEffect]

/- Mult after a joker depends on the mult before it alone. -/
theorem mult_globalStep_congr
    (j : Nat)
    (hMult : v.mult = w.mult)
    (a : Ability) :
    (globalStep j v a).mult = (globalStep j w a).mult := by
  unfold globalStep
  split
  · exact hMult
  · simp only [hMult]
  · simp only [hMult]
  · split_ifs
    · simp only [hMult]
    · exact hMult
  · exact hMult

------------------------------------------------------------
-- The Whole Board
------------------------------------------------------------

/-
  A part of a standing that every joker of a board lets gain
  ends at the sum of what the jokers offer to it.
-/
theorem foldl_globalStep_of_gains
    (part : Standing → Int)
    {offer : Ability → Int}
    {j : Nat}
    {board : List Ability}
    (hPart :
      ∀ v : Standing, v.InRange → Amount.InRange (part v))
    (hGains :
      ∀ v : Standing, v.InRange → ∀ a ∈ board,
        part (globalStep j v a) =
          Tally.gain (part v) (offer a))
    (hRange : v.InRange) :
    part (board.foldl (globalStep j) v) =
      min Amount.highest
        (part v +
          (board.map fun a => max (offer a) 0).sum) := by
  have hFold :
      part (board.foldl (globalStep j) v) =
        (board.map offer).foldl Tally.gain (part v) := by
    induction board generalizing v with
    | nil => rfl
    | cons a board ih =>
        have hHead :=
          hGains v hRange a List.mem_cons_self
        have hTail :
            ∀ w : Standing, w.InRange → ∀ b ∈ board,
              part (globalStep j w b) =
                Tally.gain (part w) (offer b) := by
          intro w hW b hb
          exact hGains w hW b (List.mem_cons_of_mem a hb)
        rw [List.foldl_cons,
          ih hTail (inRange_globalStep hRange j a), hHead,
          List.map_cons, List.foldl_cons]
  rw [hFold, Tally.foldl_gain _ (hPart v hRange),
    List.map_map]
  rfl

/- Chips end at the sum of what is offered in chips. -/
theorem chips_foldl_globalStep
    (hRange : v.InRange)
    (j : Nat)
    (board : List Ability) :
    (board.foldl (globalStep j) v).chips =
      min Amount.highest
        (v.chips +
          (board.map fun a =>
            max (chipsOffer a) 0).sum) := by
  apply foldl_globalStep_of_gains Standing.chips
  · intro v hV
    exact hV.chips
  · intro v hV a _
    exact chips_globalStep hV j a
  · exact hRange

/- Without a multiplying joker mult ends at a sum, too. -/
theorem mult_foldl_of_not_multiplies
    (hRange : v.InRange)
    (j : Nat)
    {board : List Ability}
    (hPlain : ∀ a ∈ board, a.multiplies = false) :
    (board.foldl (globalStep j) v).mult =
      min Amount.highest
        (v.mult +
          (board.map fun a =>
            max (multOffer j a) 0).sum) := by
  apply foldl_globalStep_of_gains Standing.mult
  · intro v hV
    exact hV.mult
  · intro v hV a ha
    exact mult_globalStep_of_not_multiplies hV j
      (hPlain a ha)
  · exact hRange

/- Mult only follows the jokers that move it. -/
theorem mult_foldl_globalStep
    (j : Nat)
    (hMult : v.mult = w.mult)
    (board : List Ability) :
    (board.foldl (globalStep j) v).mult =
      ((board.filter Ability.movesMult).foldl
        (globalStep j) w).mult := by
  induction board generalizing v w with
  | nil => exact hMult
  | cons a board ih =>
      cases hMoves : a.movesMult with
      | true =>
          rw [List.filter_cons_of_pos hMoves,
            List.foldl_cons, List.foldl_cons]
          exact ih (mult_globalStep_congr j hMult a)
      | false =>
          have hSkip :
              ¬ a.movesMult = true := by
            rw [hMoves]
            exact Bool.false_ne_true
          rw [List.filter_cons_of_neg hSkip,
            List.foldl_cons]
          apply ih
          rw [mult_globalStep_of_not_movesMult j hMoves]
          exact hMult

end

------------------------------------------------------------
-- Cards And Boards In Another Order
------------------------------------------------------------

section

variable {board other : List Ability}
variable {cards others : List Card}

/- What is offered for cards has no order. -/
theorem total_bonuses_perm
    (hBoard : board.Perm other)
    (hCards : cards.Perm others)
    (bonus? : Card → Ability → Option Bonus) :
    total (bonuses bonus? board cards) =
      total (bonuses bonus? other others) := by
  have hOffers :
      (bonuses bonus? board cards).Perm
        (bonuses bonus? other others) := by
    apply List.Perm.flatMap hCards
    intro c _
    exact hBoard.filterMap _
  exact (hOffers.map _).sum_eq

/- Nor has what the cards leave to the last pass. -/
theorem cardStanding_perm
    (hBoard : board.Perm other)
    (hCards : cards.Perm others)
    (hand : HandResult)
    (scoring : List Card) :
    cardStanding hand scoring cards board =
      cardStanding hand scoring others other := by
  unfold cardStanding
  rw [total_bonuses_perm hBoard
      (List.Perm.refl scoring) suitBonus?,
    total_bonuses_perm hBoard hCards rankBonus?]

/- Chips after the last pass have no order. -/
theorem chips_foldl_perm
    {v : Standing}
    (hRange : v.InRange)
    (j : Nat)
    (hBoard : board.Perm other) :
    (board.foldl (globalStep j) v).chips =
      (other.foldl (globalStep j) v).chips := by
  rw [chips_foldl_globalStep hRange,
    chips_foldl_globalStep hRange,
    (hBoard.map fun a => max (chipsOffer a) 0).sum_eq]

/- Without a multiplying joker mult has none, either. -/
theorem mult_foldl_perm
    {v : Standing}
    (hRange : v.InRange)
    (j : Nat)
    (hBoard : board.Perm other)
    (hPlain : ∀ a ∈ board, a.multiplies = false) :
    (board.foldl (globalStep j) v).mult =
      (other.foldl (globalStep j) v).mult := by
  have hOther : ∀ a ∈ other, a.multiplies = false := by
    intro a ha
    exact hPlain a (hBoard.mem_iff.mpr ha)
  rw [mult_foldl_of_not_multiplies hRange j hPlain,
    mult_foldl_of_not_multiplies hRange j hOther,
    (hBoard.map fun a => max (multOffer j a) 0).sum_eq]

/- With the same jokers moving it, mult ends the same. -/
theorem mult_foldl_of_filter_eq
    (v : Standing)
    (j : Nat)
    (hMoves :
      board.filter Ability.movesMult =
        other.filter Ability.movesMult) :
    (board.foldl (globalStep j) v).mult =
      (other.foldl (globalStep j) v).mult := by
  calc
    (board.foldl (globalStep j) v).mult =
        ((board.filter Ability.movesMult).foldl
          (globalStep j) v).mult :=
      mult_foldl_globalStep j rfl board
    _ = ((other.filter Ability.movesMult).foldl
          (globalStep j) v).mult := by
      rw [hMoves]
    _ = (other.foldl (globalStep j) v).mult :=
      (mult_foldl_globalStep j rfl other).symm

end

end Scoring

------------------------------------------------------------
-- Played Hands
------------------------------------------------------------

/- Equal final chips, mult and score. -/
structure PlaySummary.SameNumbers
    (s t : PlaySummary) : Prop where
  chips : s.chips = t.chips
  mult : s.mult = t.mult
  score : s.score = t.score

namespace Scoring

section

variable {rules : List HandRule}
variable {held others : List Card}
variable {board other : List Ability}

/-
  Reordered boards give the same numbers when the last pass
  leaves them the same mult.
-/
theorem sameNumbers_of_mult
    (hRules :
      ∀ rule ∈ rules,
        Amount.InRange rule.chips ∧
          Amount.InRange rule.mult)
    (selected : List Card)
    (hHeld : held.Perm others)
    (hBoard : board.Perm other)
    (hMult :
      ∀ v : Standing, v.InRange →
        (board.foldl (globalStep board.length) v).mult =
          (other.foldl (globalStep board.length) v).mult) :
    (play rules selected held board).SameNumbers
      (play rules selected others other) := by
  have hBase := Hand.inRange_classify hRules selected
  unfold play
  dsimp only
  rw [tally_eq hBase.1 hBase.2, tally_eq hBase.1 hBase.2]
  generalize Hand.classify rules selected = hand at *
  generalize hand.scoringCards selected = scoring
  have hIdle :
      (idleHeld scoring held).Perm
        (idleHeld scoring others) :=
    hHeld.filter _
  have hRange :=
    inRange_cardStanding hBase.1 hBase.2 scoring
      (idleHeld scoring held) board
  rw [← hBoard.length_eq,
    ← cardStanding_perm hBoard hIdle hand scoring]
  have hSameChips :=
    chips_foldl_perm hRange board.length hBoard
  have hSameMult := hMult _ hRange
  unfold Standing.tally
  exact {
    chips := hSameChips
    mult := hSameMult
    score := congrArg₂ Amount.mul hSameChips hSameMult }

/-
  Held cards score the same in any order, and so do jokers
  as long as those that move the mult of the whole hand keep
  theirs.  Where none of these multiplies, even they may
  change places.
-/
theorem play_sameNumbers_of_reordered
    (hRules :
      ∀ rule ∈ rules,
        Amount.InRange rule.chips ∧
          Amount.InRange rule.mult)
    (selected : List Card)
    (hHeld : held.Perm others)
    (hBoard : board.Perm other) :
    (board.filter Ability.movesMult =
        other.filter Ability.movesMult →
      (play rules selected held board).SameNumbers
        (play rules selected others other)) ∧
    ((∀ a ∈ board, a.multiplies = false) →
      (play rules selected held board).SameNumbers
        (play rules selected others other)) := by
  constructor
  · intro hMoves
    apply sameNumbers_of_mult hRules selected hHeld hBoard
    intro v _
    exact mult_foldl_of_filter_eq v board.length hMoves
  · intro hPlain
    apply sameNumbers_of_mult hRules selected hHeld hBoard
    intro v hRange
    exact mult_foldl_perm hRange board.length hBoard hPlain

end

/- Two queens that are held. -/
def twoQueens : List Card :=
  [⟨3, .clubs, .queen, 10⟩, ⟨4, .spades, .queen, -7⟩]

/- Jokers that do not all multiply. -/
def mixedBoard : List Ability :=
  [jokerOf (.flatMult 3), jokerOf (.flatChips 30),
    jokerOf (.multFactor (Binary64.ofInt 2)),
    jokerOf (.suitConditionalMult 4 .hearts)]

/- Jokers that only add. -/
def addingBoard : List Ability :=
  [jokerOf (.flatMult 3), jokerOf (.countScaledMult 2),
    jokerOf (.heldRankMult 5 .queen)]

/-
  The jokers of the first board keep three before two times;
  those of the second are turned around.
-/
theorem play_sameNumbers_of_reordered_twoKings :
    (play [pairRule] twoKings twoQueens
        mixedBoard).SameNumbers
      (play [pairRule] twoKings twoQueens.reverse
        [jokerOf (.suitConditionalMult 4 .hearts),
          jokerOf (.flatMult 3),
          jokerOf (.multFactor (Binary64.ofInt 2)),
          jokerOf (.flatChips 30)]) ∧
      (play [pairRule] twoKings twoQueens
          addingBoard).SameNumbers
        (play [pairRule] twoKings twoQueens.reverse
          addingBoard.reverse) := by
  have hRules :
      ∀ rule ∈ [pairRule],
        Amount.InRange rule.chips ∧
          Amount.InRange rule.mult := by
    decide
  have hHeld : twoQueens.Perm twoQueens.reverse :=
    (List.reverse_perm twoQueens).symm
  constructor
  · apply (play_sameNumbers_of_reordered hRules twoKings
      hHeld ?_).1
    · decide +kernel
    · decide +kernel
  · apply (play_sameNumbers_of_reordered hRules twoKings
      hHeld (List.reverse_perm addingBoard).symm).2
    decide

/- A joker that adds does not pass one that multiplies. -/
example :
    (play [pairRule] twoKings []
        [jokerOf (.flatMult 4),
          jokerOf (.multFactor (Binary64.ofInt 2))]).mult =
      14 ∧
    (play [pairRule] twoKings []
        [jokerOf (.multFactor (Binary64.ofInt 2)),
          jokerOf (.flatMult 4)]).mult = 10 := by
  decide +kernel

end Scoring

end JokerRun
