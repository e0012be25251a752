import JokerRun.Proofs.Hand.Scoring

/-
  More cards never make less of a hand.

  Ranks are counted exactly, and a flush or a straight takes
  exactly five cards, so that another card can take a group
  away as well as make one.  What it takes away it replaces
  by more: a rank that occurs once more makes a larger
  group, as long as no face repeats and there is no rank of
  five cards.

  Key definitions include:
    * `Category.Reaches`

  Key theorems include:
    * `Hand.reaches_of_applies`
    * `Hand.reaches_pair`
    * `Hand.reaches_twoPair`
    * `Hand.reaches_threeOfAKind`
    * `Hand.reaches_of_sublist`
-/

------------------------------------------------------------
-- Categories That Are Reached
------------------------------------------------------------

namespace JokerRun

namespace Category

/- A category stands at least as high as another. -/
def Reaches
    (d c : Category) : Prop :=
  all.idxOf c ≤ all.idxOf d

instance
    (d c : Category) :
    Decidable (d.Reaches c) :=
  inferInstanceAs (Decidable (_ ≤ _))

theorem Reaches.trans
    {b c d : Category}
    (hUpper : d.Reaches c)
    (hLower : c.Reaches b) :
    d.Reaches b :=
  Nat.le_trans hLower hUpper

/- What a category does not reach stands above it. -/
theorem reaches_iff_not_above
    {c d : Category} :
    d.Reaches c ↔ ¬ c.Above d :=
  Nat.not_lt.symm

end Category

namespace Hand

section

variable {cards : List Card}

/- A hand reaches all that its ranks and suits make. -/
theorem reaches_of_applies
    {k : Category}
    (hApplies : k.Applies (ranks cards) (suits cards)) :
    (category cards).Reaches k := by
  rw [Category.reaches_iff_not_above]
  intro hAbove
  exact (isHighest_category cards).highest k hAbove hApplies

------------------------------------------------------------
-- Ranks That Occur At Least So Often
------------------------------------------------------------

/- A rank of four cards makes four of a kind. -/
theorem reaches_fourOfAKind
    {r : Rank}
    (hCount : (ranks cards).count r = 4) :
    (category cards).Reaches .fourOfAKind :=
  reaches_of_applies ⟨r, hCount⟩

/- A rank of three cards or more makes three of a kind. -/
theorem reaches_threeOfAKind
    {r : Rank}
    (hLeast : 3 ≤ (ranks cards).count r)
    (hMost : (ranks cards).count r ≤ 4) :
    (category cards).Reaches .threeOfAKind := by
  rcases Nat.lt_or_eq_of_le hMost with hThree | hFour
  · exact reaches_of_applies ⟨r, by omega⟩
  · exact (reaches_fourOfAKind hFour).trans (by decide)

/- A rank of two cards or more makes a pair. -/
theorem reaches_pair
    {r : Rank}
    (hLeast : 2 ≤ (ranks cards).count r)
    (hMost : (ranks cards).count r ≤ 4) :
    (category cards).Reaches .pair := by
  rcases Nat.lt_or_eq_of_le hLeast with hThree | hTwo
  · exact (reaches_threeOfAKind hThree hMost).trans
      (by decide)
  · have hSome : 0 < groups cards 2 :=
      (groups_pos_iff cards 2).mpr ⟨r, hTwo.symm⟩
    -- Of several pairs none is the only one.
    rcases Nat.lt_or_eq_of_le hSome with hMore | hOne
    · have hTwoPair : (category cards).Reaches .twoPair :=
        reaches_of_applies ((two_le_groups_iff cards 2).mp
          hMore)
      exact hTwoPair.trans (by decide)
    · exact reaches_of_applies
        ((groups_eq_one_iff cards 2).mp hOne.symm)

/- Two ranks of two cards or more make two pairs. -/
theorem reaches_twoPair
    {r s : Rank}
    (hNe : r ≠ s)
    (hFirst : 2 ≤ (ranks cards).count r)
    (hSecond : 2 ≤ (ranks cards).count s)
    (hMost : ∀ t, (ranks cards).count t ≤ 4) :
    (category cards).Reaches .twoPair := by
  have hLarger
      {t : Rank}
      (hThree : 3 ≤ (ranks cards).count t) :
      (category cards).Reaches .twoPair :=
    (reaches_threeOfAKind hThree (hMost t)).trans
      (by decide)
  rcases Nat.lt_or_eq_of_le hFirst with hThree | hTwo
  · exact hLarger hThree
  · rcases Nat.lt_or_eq_of_le hSecond with hThree | hAlso
    · exact hLarger hThree
    · exact reaches_of_applies
        ⟨r, s, hNe, hTwo.symm, hAlso.symm⟩

------------------------------------------------------------
-- Fewer Cards
------------------------------------------------------------

variable {fewer : List Card}

theorem count_ranks_le
    (hFewer : fewer.Sublist cards)
    (r : Rank) :
    (ranks fewer).count r ≤ (ranks cards).count r := by
  apply Multiset.count_le_of_le
  exact Multiset.coe_le.mpr
    (hFewer.map Card.rank).subperm

/-
  At most five cards with different faces make at least what
  some of them make, under any rules.
-/
theorem reaches_of_sublist
    (rules : List HandRule)
    (hFew : cards.length ≤ 5)
    (hFaces : (cards.map Card.face).Nodup)
    (hFewer : fewer.Sublist cards) :
    (classify rules cards).category.Reaches
      (classify rules fewer).category := by
  have hLength := hFewer.length_le
  have hMost := count_ranks_le_four hFaces
  have hMore := count_ranks_le hFewer
  have hApplies := (isHighest_category fewer).applies
  have hSize :=
    scoringSize_of_few (Nat.le_trans hLength hFew)
      (test_category fewer).1
  rw [category_classify, category_classify]
  cases hCategory : category fewer with
  | highCard => exact Nat.zero_le _
  | pair =>
      rw [hCategory] at hApplies
      rcases hApplies with ⟨r, hTwo, -⟩
      have hLeast := hMore r
      exact reaches_pair (by omega) (hMost r)
  | twoPair =>
      rw [hCategory] at hApplies
      rcases hApplies with ⟨r, s, hNe, hFirst, hSecond⟩
      have hLeastFirst := hMore r
      have hLeastSecond := hMore s
      exact reaches_twoPair hNe (by omega) (by omega) hMost
  | threeOfAKind =>
      rw [hCategory] at hApplies
      rcases hApplies with ⟨r, hThree⟩
      have hLeast := hMore r
      exact reaches_threeOfAKind (by omega) (hMost r)
  | fourOfAKind =>
      rw [hCategory] at hApplies
      rcases hApplies with ⟨r, hFour⟩
      have hLeast := hMore r
      have hAtMost := hMost r
      have hSame : (ranks cards).count r = 4 := by omega
      exact reaches_fourOfAKind hSame
  | straight | flush | fullHouse | straightFlush
  | royalFlush =>
      -- Five cards make these, so that none is missing.
      rw [hCategory] at hSize
      have hFive : fewer.length = 5 := hSize
      have hAll : fewer = cards :=
        hFewer.eq_of_length_le (by omega)
      rw [← hAll, hCategory]
      exact Nat.le_refl _

end

/- Three kings with a pair of fours. -/
def kingsFullOfFours : List Card :=
  [⟨1, .spades, .king, 10⟩, ⟨2, .hearts, .four, 4⟩,
    ⟨3, .clubs, .king, 10⟩, ⟨4, .diamonds, .king, 10⟩,
    ⟨5, .clubs, .four, 4⟩]

theorem reaches_of_sublist_kingsFullOfFours :
    kingsFullOfFours.length ≤ 5 ∧
      (kingsFullOfFours.map Card.face).Nodup ∧
      (kingsFullOfFours.eraseIdx 3).Sublist
        kingsFullOfFours ∧
      (classify [] kingsFullOfFours).category.Reaches
        (classify []
          (kingsFullOfFours.eraseIdx 3)).category := by
  have hFew : kingsFullOfFours.length ≤ 5 := by decide
  have hFaces : (kingsFullOfFours.map Card.face).Nodup := by
    decide
  have hFewer := List.eraseIdx_sublist kingsFullOfFours 3
  exact ⟨hFew, hFaces, hFewer,
    reaches_of_sublist [] hFew hFaces hFewer⟩

/- A fifth king, whose face repeats, makes less of four. -/
example :
    ¬ (category (List.replicate 5
        ⟨1, .spades, .king, 10⟩)).Reaches
      (category (List.replicate 4
        ⟨1, .spades, .king, 10⟩)) := by
  decide

end Hand

end JokerRun
