import JokerRun.Proofs.Hand.Reference
import Mathlib.Algebra.BigOperators.Group.Finset.Basic

/-
  Cards in groups of equal rank.

  The cards whose ranks occur a number of times are as many
  as that number times the ranks that do.  With that a group
  of a hand bounds what else the hand can hold, and so do
  faces that do not repeat.

  Key definitions include:
    * `Card.face`
    * `Hand.grouped`

  Key theorems include:
    * `Hand.length_grouped`
    * `Hand.length_grouped_add_le`
    * `Hand.rank_of_groups_eq_one`
    * `Hand.ranks_of_groups_eq_two`
    * `Hand.count_ranks_le_four`
    * `Hand.nodup_ranks_of_highCard`
-/

------------------------------------------------------------
-- Cards Of Ranks That Occur Equally Often
------------------------------------------------------------

namespace JokerRun

/- The suit and the rank of a card. -/
def Card.face
    (c : Card) : Suit × Rank :=
  (c.suit, c.rank)

namespace Hand

/- The cards whose ranks occur a number of times. -/
def grouped
    (cards : List Card)
    (n : Nat) : List Card :=
  cards.filter fun c => rankCount cards c.rank == n

section

variable (cards : List Card)

/- The ranks of cards that are picked by their ranks. -/
theorem ranks_filter
    (q : Rank → Bool) :
    ranks (cards.filter fun c => q c.rank) =
      (ranks cards).filter fun r => q r = true := by
  unfold ranks
  rw [Multiset.filter_coe, List.filter_map]
  simp only [Bool.decide_eq_true]
  rfl

theorem ranks_grouped
    (n : Nat) :
    ranks (grouped cards n) =
      (ranks cards).filter fun r =>
        (ranks cards).count r = n := by
  have hRanks :=
    ranks_filter cards fun r => rankCount cards r == n
  simp only [beq_iff_eq, rankCount_eq_count] at hRanks
  rw [← hRanks]
  simp only [grouped, rankCount_eq_count]

/- Ranks that occur n times have n cards each. -/
theorem length_grouped
    (n : Nat) :
    (grouped cards n).length = n * groups cards n := by
  have hGroups :
      groups cards n =
        (Rank.all.toFinset.filter fun r =>
          (ranks cards).count r = n).card := by
    unfold groups
    rw [countP_eq_card Rank.nodup_all, List.toFinset_filter]
    simp only [rankCount_eq_count, beq_iff_eq]
  calc
    (grouped cards n).length =
        (ranks (grouped cards n)).card :=
      (List.length_map Card.rank).symm
    _ = ∑ r ∈ Rank.all.toFinset,
          (ranks (grouped cards n)).count r := by
      refine (Multiset.sum_count_eq_card ?_).symm
      intro r _
      exact List.mem_toFinset.mpr (Rank.mem_all r)
    _ = ∑ r ∈ Rank.all.toFinset,
          if (ranks cards).count r = n then n else 0 := by
      refine Finset.sum_congr rfl fun r _ => ?_
      rw [ranks_grouped, Multiset.count_filter]
      split
      · assumption
      · rfl
    _ = n * groups cards n := by
      rw [← Finset.sum_filter,
        Finset.sum_const_nat fun _ _ => rfl, hGroups,
        Nat.mul_comm]

theorem mul_groups_le
    (n : Nat) :
    n * groups cards n ≤ cards.length := by
  rw [← length_grouped]
  exact List.length_filter_le _ cards

/- No card has a rank that occurs in two numbers. -/
theorem length_grouped_add_le
    {m n : Nat}
    (hNe : m ≠ n) :
    (grouped cards m).length + (grouped cards n).length ≤
      cards.length := by
  have hApart :
      grouped cards n =
        (cards.filter fun c =>
          !(rankCount cards c.rank == m)).filter
            fun c => rankCount cards c.rank == n := by
    unfold grouped
    rw [List.filter_filter]
    apply List.filter_congr
    intro c _
    by_cases hCount : rankCount cards c.rank = n
    · simp [hCount, hNe.symm]
    · simp [hCount]
  have hLength :=
    List.length_eq_length_filter_add
      (l := cards) fun c => rankCount cards c.rank == m
  rw [hLength, hApart]
  exact Nat.add_le_add_left (List.length_filter_le _ _) _

end

section

variable {cards : List Card}

/- Where one rank occurs so often, its cards share it. -/
theorem rank_of_groups_eq_one
    {n : Nat}
    (hOne : groups cards n = 1) :
    ∃ r, ∀ c ∈ grouped cards n, c.rank = r := by
  rcases (groups_eq_one_iff cards n).mp hOne with
    ⟨r, -, hUnique⟩
  refine ⟨r, ?_⟩
  intro c hMem
  have hCount := (List.mem_filter.mp hMem).2
  rw [beq_iff_eq, rankCount_eq_count] at hCount
  exact hUnique c.rank hCount

/- Two ranks that occur n times have all of its cards. -/
theorem ranks_of_groups_eq_two
    {n : Nat}
    (hTwo : groups cards n = 2) :
    ∃ r s, r ≠ s ∧
      ranks (grouped cards n) =
        Multiset.replicate n r + Multiset.replicate n s := by
  rcases (two_le_groups_iff cards n).mp hTwo.ge with
    ⟨r, s, hNe, hFirst, hSecond⟩
  refine ⟨r, s, hNe, Eq.symm ?_⟩
  apply Multiset.eq_of_le_of_card_le
  · rw [Multiset.le_iff_count]
    intro t
    rw [ranks_grouped, Multiset.count_filter,
      Multiset.count_add, Multiset.count_replicate,
      Multiset.count_replicate]
    by_cases hR : r = t
    · subst hR
      simp [hFirst, hNe.symm]
    · by_cases hS : s = t
      · subst hS
        simp [hSecond, hNe]
      · simp [hR, hS]
  · have hLength : (grouped cards n).length = n * 2 := by
      rw [length_grouped, hTwo]
    have hCard : (ranks (grouped cards n)).card = n * 2 := by
      rw [← hLength]
      exact List.length_map Card.rank
    rw [hCard, Multiset.card_add, Multiset.card_replicate,
      Multiset.card_replicate]
    omega

------------------------------------------------------------
-- Hands Of Five Cards
------------------------------------------------------------

theorem length_of_isStraight
    (hStraight : isStraight cards = true) :
    cards.length = 5 := by
  unfold isStraight at hStraight
  rw [Bool.and_eq_true, beq_iff_eq] at hStraight
  exact hStraight.1

theorem length_of_isFlush
    (hFlush : isFlush cards = true) :
    cards.length = 5 := by
  unfold isFlush at hFlush
  rw [Bool.and_eq_true, beq_iff_eq] at hFlush
  exact hFlush.1

------------------------------------------------------------
-- Cards With Different Faces
------------------------------------------------------------

/- Of each rank there are no more faces than suits. -/
theorem count_ranks_le_four
    (hFaces : (cards.map Card.face).Nodup)
    (r : Rank) :
    (ranks cards).count r ≤ 4 := by
  let same := cards.filter fun c => c.rank == r
  have hSame :
      same.map Card.face =
        (same.map Card.suit).map fun s => (s, r) := by
    rw [List.map_map]
    apply List.map_congr_left
    intro c hMem
    have hRank := (List.mem_filter.mp hMem).2
    rw [beq_iff_eq] at hRank
    exact congrArg (Prod.mk c.suit) hRank
  have hSuits : (same.map Card.suit).Nodup := by
    apply List.Nodup.of_map fun s => (s, r)
    rw [← hSame]
    exact hFaces.sublist
      (List.filter_sublist.map Card.face)
  have hLe : (same.map Card.suit).length ≤ 4 :=
    (hSuits.subperm fun s _ => Suit.mem_all s).length_le
  rw [List.length_map] at hLe
  rw [← rankCount_eq_count]
  unfold rankCount
  rw [List.countP_eq_length_filter]
  exact hLe

/- A high card is no pair, and none of the groups. -/
theorem groups_eq_zero_of_highCard
    (hHigh : category cards = .highCard) :
    groups cards 2 = 0 ∧ groups cards 3 = 0 ∧
      groups cards 4 = 0 := by
  have hHigher := (test_category cards).2
  rw [hHigh] at hHigher
  have hPair : ¬ groups cards 2 = 1 :=
    hHigher .pair (by decide)
  have hTwoPair : ¬ 2 ≤ groups cards 2 :=
    hHigher .twoPair (by decide)
  have hThree : ¬ 0 < groups cards 3 :=
    hHigher .threeOfAKind (by decide)
  have hFour : ¬ 0 < groups cards 4 :=
    hHigher .fourOfAKind (by decide)
  omega

/- Different faces that make nothing have different ranks. -/
theorem nodup_ranks_of_highCard
    (hHigh : category cards = .highCard)
    (hFaces : (cards.map Card.face).Nodup) :
    (cards.map Card.rank).Nodup := by
  rcases groups_eq_zero_of_highCard hHigh with
    ⟨hTwo, hThree, hFour⟩
  have hNever
      {n : Nat}
      (hZero : groups cards n = 0)
      (r : Rank) :
      (ranks cards).count r ≠ n := by
    intro hCount
    have hSome := (groups_pos_iff cards n).mpr ⟨r, hCount⟩
    omega
  have hNodup : (ranks cards).Nodup := by
    rw [Multiset.nodup_iff_count_le_one]
    intro r
    have hFew := count_ranks_le_four hFaces r
    have hNotTwo := hNever hTwo r
    have hNotThree := hNever hThree r
    have hNotFour := hNever hFour r
    omega
  exact hNodup

end

end Hand

end JokerRun
