import JokerRun.Proofs.Binary64.Rounding
import JokerRun.Proofs.Scoring.ClosedForm
import Mathlib.Data.List.Flatten

/-
  One more joker never hurts.

  What no joker can do is take away: each gains, multiplies
  by more than one or does nothing.  Each keeps the order of
  the standings it meets, and a larger board only adds to
  what the jokers count.  So the score of a larger board
  stays ahead from the first joker to the last.

  Key definitions include:
    * `Scoring.Standing.AtMost`
    * `PlaySummary.AtMost`

  Key theorems include:
    * `Scoring.atMost_globalStep`
    * `Scoring.globalStep_mono`
    * `Scoring.foldl_globalStep_mono`
    * `Scoring.play_mono`
    * `Scoring.play_atMost_insert`
-/

------------------------------------------------------------
-- The Order Of Standings
------------------------------------------------------------

namespace JokerRun

namespace Scoring

namespace Standing

/- Neither chips nor mult are ahead. -/
structure AtMost (v w : Standing) : Prop where
  chips : v.chips ≤ w.chips
  mult : v.mult ≤ w.mult

/- Chips and mult that are amounts and no loss. -/
structure NoLoss (v : Standing) : Prop where
  inRange : v.InRange
  chips : 0 ≤ v.chips
  mult : 0 ≤ v.mult

theorem AtMost.refl
    (v : Standing) :
    v.AtMost v :=
  ⟨Int.le_refl _, Int.le_refl _⟩

theorem AtMost.trans
    {u v w : Standing}
    (hFirst : u.AtMost v)
    (hSecond : v.AtMost w) :
    u.AtMost w :=
  ⟨Int.le_trans hFirst.chips hSecond.chips,
    Int.le_trans hFirst.mult hSecond.mult⟩

/- What is ahead of no loss is no loss. -/
theorem NoLoss.of_atMost
    {v w : Standing}
    (hV : v.NoLoss)
    (hLe : v.AtMost w)
    (hW : w.InRange) :
    w.NoLoss :=
  ⟨hW, Int.le_trans hV.chips hLe.chips,
    Int.le_trans hV.mult hLe.mult⟩

end Standing

------------------------------------------------------------
-- One Joker
------------------------------------------------------------

section

variable {v w : Standing}
variable {j k : Nat}

/- No joker takes anything away. -/
theorem atMost_globalStep
    (hV : v.NoLoss)
    (j : Nat)
    (a : Ability) :
    v.AtMost (globalStep j v a) := by
  have hChips := hV.inRange.chips.2
  have hMult := hV.inRange.mult.2
  unfold globalStep
  split
  · exact ⟨Amount.le_add hChips (Int.le_max_right _ _),
      Int.le_refl _⟩
  · exact ⟨Int.le_refl _,
      Amount.le_add hMult (Int.le_max_right _ _)⟩
  · exact ⟨Int.le_refl _,
      Amount.le_add hMult (Int.le_max_right _ _)⟩
  · split_ifs with hFactor
    · refine ⟨Int.le_refl _, ?_⟩
      dsimp only
      exact Binary64.le_scale hFactor hV.mult hMult
    · exact Standing.AtMost.refl v
  · exact Standing.AtMost.refl v

theorem noLoss_globalStep
    (hV : v.NoLoss)
    (j : Nat)
    (a : Ability) :
    (globalStep j v a).NoLoss :=
  hV.of_atMost (atMost_globalStep hV j a)
    (inRange_globalStep hV.inRange j a)

/- What counts jokers gains no less from more of them. -/
theorem countGain_mono
    (n : Int)
    (hJokers : j ≤ k) :
    max (Amount.clamp (n * j)) 0 ≤
      max (Amount.clamp (n * k)) 0 := by
  rcases Int.le_total 0 n with hGain | hLoss
  · have hMul : n * j ≤ n * k :=
      Int.mul_le_mul_of_nonneg_left (by omega) hGain
    have hClamp := Amount.clamp_mono hMul
    omega
  · have hNone : n * j ≤ 0 :=
      Int.mul_nonpos_of_nonpos_of_nonneg hLoss
        (Int.natCast_nonneg j)
    have hClamp := Amount.clamp_mono hNone
    have hZero : Amount.clamp 0 = 0 := by decide
    omega

/- A joker keeps the order, counting as many or more. -/
theorem globalStep_mono
    (hV : v.NoLoss)
    (hW : w.InRange)
    (hLe : v.AtMost w)
    (hJokers : j ≤ k)
    (a : Ability) :
    (globalStep j v a).AtMost (globalStep k w a) := by
  have hChips := hLe.chips
  have hMult := hLe.mult
  unfold globalStep
  split
  · exact ⟨Amount.add_mono hChips (Int.le_refl _), hMult⟩
  · exact ⟨hChips, Amount.add_mono hMult (Int.le_refl _)⟩
  · rename_i n hEffect
    exact ⟨hChips,
      Amount.add_mono hMult (countGain_mono n hJokers)⟩
  · split_ifs with hFactor
    · refine ⟨hChips, ?_⟩
      dsimp only
      exact Binary64.scale_mono hFactor hV.mult hMult
        hW.mult.2
    · exact hLe
  · exact hLe

------------------------------------------------------------
-- The Whole Board
------------------------------------------------------------

variable {board larger : List Ability}

theorem noLoss_foldl
    (hV : v.NoLoss)
    (j : Nat)
    (board : List Ability) :
    (board.foldl (globalStep j) v).NoLoss := by
  induction board generalizing v with
  | nil => exact hV
  | cons a board ih => exact ih (noLoss_globalStep hV j a)

/-
  A larger board stays ahead: where it has a joker more it
  gains, and where both have the same one the order stays.
-/
theorem foldl_globalStep_mono
    (hBoard : board.Sublist larger)
    (hV : v.NoLoss)
    (hW : w.InRange)
    (hLe : v.AtMost w)
    (hJokers : j ≤ k) :
    (board.foldl (globalStep j) v).AtMost
      (larger.foldl (globalStep k) w) := by
  induction hBoard generalizing v w with
  | slnil => exact hLe
  | cons a hBoard ih =>
      have hGain :=
        atMost_globalStep (hV.of_atMost hLe hW) k a
      exact ih hV (inRange_globalStep hW k a)
        (hLe.trans hGain)
  | cons_cons a hBoard ih =>
      exact ih (noLoss_globalStep hV j a)
        (inRange_globalStep hW k a)
        (globalStep_mono hV hW hLe hJokers a)

/- More jokers offer no less for the cards. -/
theorem total_bonuses_mono
    (hBoard : board.Sublist larger)
    (bonus? : Card → Ability → Option Bonus)
    (cards : List Card) :
    total (bonuses bonus? board cards) ≤
      total (bonuses bonus? larger cards) := by
  have hOffers :
      (bonuses bonus? board cards).Sublist
        (bonuses bonus? larger cards) :=
    List.Sublist.flatMap_right cards fun c _ =>
      hBoard.filterMap _
  apply (hOffers.map _).sum_le_sum
  intro n hn
  rcases List.mem_map.mp hn with ⟨b, -, rfl⟩
  exact Int.le_max_right _ _

theorem cardStanding_mono
    (hBoard : board.Sublist larger)
    (hand : HandResult)
    (scoring idle : List Card) :
    (cardStanding hand scoring idle board).AtMost
      (cardStanding hand scoring idle larger) := by
  have hSuits :=
    total_bonuses_mono hBoard suitBonus? scoring
  have hRanks := total_bonuses_mono hBoard rankBonus? idle
  refine ⟨Int.le_refl _, ?_⟩
  unfold cardStanding
  dsimp only
  omega

/- What starts without a loss has none after the cards. -/
theorem noLoss_cardStanding
    {hand : HandResult}
    (hRange :
      Amount.InRange hand.chips ∧ Amount.InRange hand.mult)
    (hNonneg : 0 ≤ hand.chips ∧ 0 ≤ hand.mult)
    {scoring : List Card}
    (hScoring : ∀ c ∈ scoring, 0 ≤ c.chips)
    (idle : List Card)
    (board : List Ability) :
    (cardStanding hand scoring idle board).NoLoss where
  inRange :=
    inRange_cardStanding hRange.1 hRange.2 scoring idle
      board
  chips := Amount.foldl_add_nonneg hScoring hNonneg.1
  mult := by
    have hSuits :=
      total_nonneg (bonuses suitBonus? board scoring)
    have hRanks :=
      total_nonneg (bonuses rankBonus? board idle)
    have hMult := hNonneg.2
    unfold cardStanding Amount.highest
    dsimp only
    omega

end

------------------------------------------------------------
-- Played Hands
------------------------------------------------------------

/- Scoring cards are among the cards. -/
theorem mem_of_mem_scoringCards
    {hand : HandResult}
    {cards : List Card}
    {c : Card}
    (hMem : c ∈ hand.scoringCards cards) :
    c ∈ cards := by
  rcases List.mem_filterMap.mp hMem with ⟨i, -, hItem⟩
  exact List.mem_of_getElem? hItem

end Scoring

/- No final chips, mult or score is ahead. -/
structure PlaySummary.AtMost
    (s t : PlaySummary) : Prop where
  chips : s.chips ≤ t.chips
  mult : s.mult ≤ t.mult
  score : s.score ≤ t.score

namespace Scoring

section

variable {rules : List HandRule}
variable {selected : List Card}

/- A hand scores no less with more jokers. -/
theorem play_mono
    (hRules :
      ∀ rule ∈ rules,
        Amount.InRange rule.chips ∧
          Amount.InRange rule.mult)
    (hBases :
      ∀ c : Category,
        0 ≤ (c.baseUnder rules).chips ∧
          0 ≤ (c.baseUnder rules).mult)
    (hSelected : ∀ c ∈ selected, 0 ≤ c.chips)
    (held : List Card)
    {board larger : List Ability}
    (hBoard : board.Sublist larger) :
    (play rules selected held board).AtMost
      (play rules selected held larger) := by
  have hRange := Hand.inRange_classify hRules selected
  have hNonneg := Hand.classify_nonneg hBases selected
  have hScoring :
      ∀ c ∈ (Hand.classify rules selected).scoringCards
          selected,
        0 ≤ c.chips :=
    fun c hc => hSelected c (mem_of_mem_scoringCards hc)
  unfold play
  dsimp only
  rw [tally_eq hRange.1 hRange.2,
    tally_eq hRange.1 hRange.2]
  generalize Hand.classify rules selected = hand at *
  generalize hand.scoringCards selected = scoring at *
  generalize idleHeld scoring held = idle
  have hStart :=
    noLoss_cardStanding hRange hNonneg hScoring idle board
  have hFinal :=
    foldl_globalStep_mono hBoard hStart
      (inRange_cardStanding hRange.1 hRange.2 scoring idle
        larger)
      (cardStanding_mono hBoard hand scoring idle)
      hBoard.length_le
  have hNoLoss := noLoss_foldl hStart board.length board
  exact {
    chips := hFinal.chips
    mult := hFinal.mult
    score :=
      Amount.mul_mono hNoLoss.chips hNoLoss.mult
        hFinal.chips hFinal.mult }

end

/- One more joker, wherever it stands, never hurts. -/
theorem play_atMost_insert
    (rules : List HandRule)
    (selected held : List Card)
    (front back : List Ability)
    (a : Ability)
    (hRules :
      ∀ rule ∈ rules,
        Amount.InRange rule.chips ∧
          Amount.InRange rule.mult)
    (hBases :
      ∀ c : Category,
        0 ≤ (c.baseUnder rules).chips ∧
          0 ≤ (c.baseUnder rules).mult)
    (hSelected : ∀ c ∈ selected, 0 ≤ c.chips) :
    (play rules selected held (front ++ back)).AtMost
      (play rules selected held (front ++ a :: back)) := by
  have hBoard : (front ++ back).Sublist (front ++ a :: back) :=
    (List.sublist_cons_self a back).append_left front
  exact play_mono hRules hBases hSelected held hBoard

/- A joker that only loses still lets another count more. -/
theorem play_atMost_insert_twoKings :
    (play [pairRule] twoKings oneQueen
        ([jokerOf (.countScaledMult 2)] ++
          [jokerOf (.multFactor (Binary64.ofInt 2))])).AtMost
      (play [pairRule] twoKings oneQueen
        ([jokerOf (.countScaledMult 2)] ++
          jokerOf (.flatMult (-6)) ::
            [jokerOf (.multFactor (Binary64.ofInt 2))])) := by
  have hRules :
      ∀ rule ∈ [pairRule],
        Amount.InRange rule.chips ∧
          Amount.InRange rule.mult := by
    decide
  have hBases :
      ∀ c : Category,
        0 ≤ (c.baseUnder [pairRule]).chips ∧
          0 ≤ (c.baseUnder [pairRule]).mult := by
    intro c
    cases c <;> decide
  have hSelected : ∀ c ∈ twoKings, 0 ≤ c.chips := by
    decide
  exact play_atMost_insert [pairRule] twoKings oneQueen _ _
    _ hRules hBases hSelected

end Scoring

end JokerRun
