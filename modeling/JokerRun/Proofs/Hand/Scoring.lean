import JokerRun.Proofs.Area
import JokerRun.Proofs.Hand.Groups
import Mathlib.Data.Finset.Max

/-
  The cards that score in a hand.

  A category is told from the cards as a whole, and the
  cards that score are picked by a second pass over their
  positions.  Both agree: as many cards are picked as the
  category is named for, no position is picked that has no
  card, and of several highest cards the first is picked.

  Key definitions include:
    * `Hand.scores`
    * `Hand.IsFirstHighest`
    * `Category.scoringCount`
    * `Hand.PicksPositions`
    * `Hand.PicksFew`

  Key theorems include:
    * `Hand.filterMap_scoringIndices`
    * `Hand.scoringIndices_highCard`
    * `Hand.length_scoringIndices`
    * `Hand.scoringSize_of_few`
    * `Hand.scoring_positions_fit`
-/

------------------------------------------------------------
-- Positions Of Cards
------------------------------------------------------------

namespace JokerRun

namespace Hand

section

variable {cards : List Card}
variable {p : Card → Bool}

theorem mem_indicesWhere_iff
    {i : Nat} :
    i ∈ indicesWhere p cards ↔
      ∃ c, cards[i]? = some c ∧ p c = true := by
  unfold indicesWhere
  rw [List.mem_map]
  constructor
  · rintro ⟨⟨c, j⟩, hMem, rfl⟩
    rw [List.mem_filter, List.mem_zipIdx_iff_getElem?] at hMem
    exact ⟨c, hMem⟩
  · rintro ⟨c, hItem, hTest⟩
    refine ⟨(c, i), ?_, rfl⟩
    rw [List.mem_filter, List.mem_zipIdx_iff_getElem?]
    exact ⟨hItem, hTest⟩

/- Positions are met in their order. -/
theorem ascending_indicesWhere :
    Positions.Ascending (indicesWhere p cards) := by
  unfold indicesWhere Positions.Ascending
  rw [List.pairwise_map]
  exact (Positions.pairwise_snd_zipIdx cards).filter _

/- The first position of a card that passes a test. -/
theorem exists_first_indicesWhere
    (hSome : ∃ c ∈ cards, p c = true) :
    ∃ i c, (indicesWhere p cards).take 1 = [i] ∧
      cards[i]? = some c ∧ p c = true ∧
      ∀ j d, j < i → cards[j]? = some d → p d = false := by
  rcases hSome with ⟨top, hTop, hPasses⟩
  rcases List.mem_iff_getElem?.mp hTop with ⟨k, hItem⟩
  have hListed : k ∈ indicesWhere p cards :=
    mem_indicesWhere_iff.mpr ⟨top, hItem, hPasses⟩
  have hAsc : Positions.Ascending (indicesWhere p cards) :=
    ascending_indicesWhere
  cases hIndices : indicesWhere p cards with
  | nil =>
      rw [hIndices] at hListed
      exact absurd hListed List.not_mem_nil
  | cons i is =>
      have hFirst : i ∈ indicesWhere p cards := by
        rw [hIndices]
        exact List.mem_cons_self
      rcases mem_indicesWhere_iff.mp hFirst with
        ⟨c, hCard, hTest⟩
      refine ⟨i, c, rfl, hCard, hTest, ?_⟩
      intro j d hBefore hOther
      rw [← Bool.not_eq_true]
      intro hAlso
      -- It would be listed too, and then before the first.
      have hMem : j ∈ indicesWhere p cards :=
        mem_indicesWhere_iff.mpr ⟨d, hOther, hAlso⟩
      rw [hIndices] at hMem hAsc
      rcases List.mem_cons.mp hMem with hEq | hRest
      · omega
      · have hLater := List.rel_of_pairwise_cons hAsc hRest
        omega

/- The cards at the listed positions. -/
theorem map_fst_filter_zipIdx :
    (cards.zipIdx.filter fun x => p x.1).map Prod.fst =
      cards.filter p := by
  conv_rhs =>
    rw [← List.zipIdx_map_fst 0 cards, List.filter_map]
  rfl

theorem length_indicesWhere :
    (indicesWhere p cards).length =
      (cards.filter p).length := by
  unfold indicesWhere
  rw [← map_fst_filter_zipIdx, List.length_map,
    List.length_map]

/- The first positions have the first of the cards. -/
theorem filterMap_take_indicesWhere
    (n : Nat) :
    ((indicesWhere p cards).take n).filterMap
        (fun i => cards[i]?) =
      (cards.filter p).take n := by
  let found := cards.zipIdx.filter fun x => p x.1
  have hFound :
      ∀ x ∈ found.take n, cards[x.2]? = some x.1 := by
    intro x hx
    have hMem := List.mem_of_mem_filter
      (List.mem_of_mem_take hx)
    exact List.mem_zipIdx_iff_getElem?.mp hMem
  calc
    ((indicesWhere p cards).take n).filterMap
        (fun i => cards[i]?) =
        (found.take n).filterMap fun x => cards[x.2]? := by
      unfold indicesWhere
      rw [← List.map_take, List.filterMap_map]
      rfl
    _ = (found.take n).filterMap fun x => some x.1 :=
      List.filterMap_congr hFound
    _ = (found.take n).map Prod.fst :=
      congrFun List.filterMap_eq_map (found.take n)
    _ = (cards.filter p).take n := by
      rw [List.map_take, map_fst_filter_zipIdx]

end

------------------------------------------------------------
-- Cards That May Score
------------------------------------------------------------

/- Whether a card is of the kind that scores in a category. -/
def scores
    (cards : List Card) : Category → Card → Bool
  | .fourOfAKind => fun c => rankCount cards c.rank == 4
  | .threeOfAKind => fun c => rankCount cards c.rank == 3
  | .twoPair => fun c => rankCount cards c.rank == 2
  | .pair => fun c => rankCount cards c.rank == 2
  | .highCard => isHighest cards
  | .straight => fun _ => true
  | .flush => fun _ => true
  | .fullHouse => fun _ => true
  | .straightFlush => fun _ => true
  | .royalFlush => fun _ => true

/- How many of the cards that may score do so. -/
def quota
    (cards : List Card) : Category → Nat
  | .highCard => 1
  | _ => cards.length

section

variable (cards : List Card)

theorem indicesWhere_all :
    indicesWhere (fun _ => true) cards =
      List.range cards.length := by
  unfold indicesWhere
  rw [List.filter_true, List.zipIdx_map_snd,
    ← List.range_eq_range']

/- The positions that score, for all categories alike. -/
theorem scoringIndices_eq_take
    (k : Category) :
    scoringIndices cards k =
      (indicesWhere (scores cards k) cards).take
        (quota cards k) := by
  have hAll
      (p : Card → Bool) :
      (indicesWhere p cards).take cards.length =
        indicesWhere p cards := by
    apply List.take_of_length_le
    rw [length_indicesWhere]
    exact List.length_filter_le p cards
  cases k with
  | highCard => rfl
  | fourOfAKind | threeOfAKind | twoPair | pair =>
      change _ = (indicesWhere _ cards).take cards.length
      rw [hAll]
      rfl
  | straight | flush | fullHouse | straightFlush
  | royalFlush =>
      change _ = (indicesWhere _ cards).take cards.length
      rw [hAll]
      exact (indicesWhere_all cards).symm

/- The cards that score, for all categories alike. -/
theorem filterMap_scoringIndices
    (k : Category) :
    ((scoringIndices cards k).filterMap
        fun i => cards[i]?) =
      (cards.filter (scores cards k)).take
        (quota cards k) := by
  rw [scoringIndices_eq_take]
  exact filterMap_take_indicesWhere (quota cards k)

/- But for the highest card, all that may score do so. -/
theorem filterMap_scoringIndices_of_ne
    {k : Category}
    (hNotHigh : k ≠ .highCard) :
    ((scoringIndices cards k).filterMap
        fun i => cards[i]?) =
      cards.filter (scores cards k) := by
  have hQuota : quota cards k = cards.length := by
    cases k with
    | highCard => exact absurd rfl hNotHigh
    | pair | twoPair | threeOfAKind | straight | flush
    | fullHouse | fourOfAKind | straightFlush
    | royalFlush => rfl
  rw [filterMap_scoringIndices, hQuota]
  exact List.take_of_length_le
    (List.length_filter_le _ cards)

/- Positions that score ascend. -/
theorem ascending_scoringIndices
    (k : Category) :
    Positions.Ascending (scoringIndices cards k) := by
  rw [scoringIndices_eq_take]
  exact ascending_indicesWhere.sublist
    (List.take_sublist _ _)

/- Positions that score are positions of cards. -/
theorem exists_card_of_mem_scoringIndices
    {k : Category}
    {i : Nat}
    (hMem : i ∈ scoringIndices cards k) :
    ∃ c, cards[i]? = some c ∧ scores cards k c = true := by
  rw [scoringIndices_eq_take] at hMem
  exact mem_indicesWhere_iff.mp (List.mem_of_mem_take hMem)

/- No position that scores lacks a card. -/
theorem length_filterMap_scoringIndices
    (k : Category) :
    ((scoringIndices cards k).filterMap
        fun i => cards[i]?).length =
      (scoringIndices cards k).length := by
  let a : Area Card := ⟨cards.length, cards⟩
  apply Area.length_filterMap_get? (a := a)
  intro i hi
  rcases exists_card_of_mem_scoringIndices cards hi with
    ⟨c, hItem, -⟩
  exact (List.getElem?_eq_some_iff.mp hItem).1

end

------------------------------------------------------------
-- The Highest Card
------------------------------------------------------------

/- The first position of the highest rank, with its card. -/
structure IsFirstHighest
    (cards : List Card)
    (i : Nat)
    (c : Card) : Prop where
  card : cards[i]? = some c
  highest : ∀ d ∈ cards, d.rank.value ≤ c.rank.value
  first :
    ∀ j d, j < i → cards[j]? = some d →
      d.rank.value < c.rank.value

section

variable {cards : List Card}

theorem isHighest_iff
    {c : Card} :
    isHighest cards c = true ↔
      ∀ d ∈ cards, d.rank.value ≤ c.rank.value := by
  unfold isHighest
  rw [List.all_eq_true]
  simp only [decide_eq_true_eq]

/- Only the ranks of the other cards count. -/
theorem isHighest_iff_ranks
    {c : Card} :
    isHighest cards c = true ↔
      ∀ r ∈ ranks cards, r.value ≤ c.rank.value := by
  rw [isHighest_iff]
  unfold ranks
  simp only [Multiset.mem_coe, List.forall_mem_map]

theorem exists_isHighest
    (hSome : cards ≠ []) :
    ∃ c ∈ cards, isHighest cards c = true := by
  have hNonempty : cards.toFinset.Nonempty :=
    (List.toFinset_nonempty_iff cards).mpr hSome
  rcases cards.toFinset.exists_max_image
      (fun c => c.rank.value) hNonempty with
    ⟨c, hMem, hMax⟩
  refine ⟨c, List.mem_toFinset.mp hMem, ?_⟩
  rw [isHighest_iff]
  intro d hd
  exact hMax d (List.mem_toFinset.mpr hd)

/- The first of the highest cards scores alone. -/
theorem scoringIndices_highCard
    (hSome : cards ≠ []) :
    ∃ i c, scoringIndices cards .highCard = [i] ∧
      IsFirstHighest cards i c := by
  rcases exists_first_indicesWhere
      (exists_isHighest hSome) with
    ⟨i, c, hOne, hCard, hHighest, hNoneBefore⟩
  have hMax := isHighest_iff.mp hHighest
  refine ⟨i, c, hOne, hCard, hMax, ?_⟩
  intro j d hBefore hOther
  have hLe := hMax d (List.mem_of_getElem? hOther)
  refine Nat.lt_of_le_of_ne hLe ?_
  intro hSame
  -- A card of the same rank would be as high.
  have hAlso : isHighest cards d = true := by
    rw [isHighest_iff, hSame]
    exact hMax
  rw [hNoneBefore j d hBefore hOther] at hAlso
  exact Bool.noConfusion hAlso

end

end Hand

------------------------------------------------------------
-- How Many Cards Score
------------------------------------------------------------

/- How many of at most five cards score in a category. -/
def Category.scoringCount : Category → Nat
  | .highCard => 1
  | .pair => 2
  | .twoPair => 4
  | .threeOfAKind => 3
  | .straight => 5
  | .flush => 5
  | .fullHouse => 5
  | .fourOfAKind => 4
  | .straightFlush => 5
  | .royalFlush => 5

namespace Hand

/- How many cards score in a category, of any number. -/
def scoringSize
    (cards : List Card) : Category → Nat
  | .highCard => 1
  | .pair => 2 * groups cards 2
  | .twoPair => 2 * groups cards 2
  | .threeOfAKind => 3 * groups cards 3
  | .fourOfAKind => 4 * groups cards 4
  | .straight => cards.length
  | .flush => cards.length
  | .fullHouse => cards.length
  | .straightFlush => cards.length
  | .royalFlush => cards.length

section

variable {cards : List Card}

theorem length_scoringIndices
    (hSome : cards ≠ [])
    (k : Category) :
    (scoringIndices cards k).length =
      scoringSize cards k := by
  have hGrouped
      (n : Nat) :
      (indicesOfGroups cards n).length =
        n * groups cards n := by
    rw [← length_grouped]
    exact length_indicesWhere
  cases k with
  | highCard =>
      rcases scoringIndices_highCard hSome with
        ⟨i, c, hOne, -⟩
      rw [hOne]
      rfl
  | fourOfAKind | threeOfAKind | twoPair | pair =>
      exact hGrouped _
  | straight | flush | fullHouse | straightFlush
  | royalFlush =>
      exact List.length_range

/- In a category that the cards make, some cards score. -/
theorem scoringSize_pos
    {k : Category}
    (hSome : cards ≠ [])
    (hTest : Test cards k) :
    0 < scoringSize cards k := by
  have hLength := List.length_pos_iff.mpr hSome
  cases k with
  | highCard => exact Nat.one_pos
  | straight | flush | fullHouse | straightFlush
  | royalFlush => exact hLength
  | pair =>
      have hOne : groups cards 2 = 1 := hTest
      change 0 < 2 * groups cards 2
      omega
  | twoPair =>
      have hTwo : 2 ≤ groups cards 2 := hTest
      change 0 < 2 * groups cards 2
      omega
  | threeOfAKind => exact Nat.mul_pos (by decide) hTest
  | fourOfAKind => exact Nat.mul_pos (by decide) hTest

/- Of at most five cards the category tells how many score. -/
theorem scoringSize_of_few
    {k : Category}
    (hFew : cards.length ≤ 5)
    (hTest : Test cards k) :
    scoringSize cards k = k.scoringCount := by
  unfold scoringSize Category.scoringCount
  cases k with
  | highCard => rfl
  | pair =>
      have hOne : groups cards 2 = 1 := hTest
      simp only [hOne]
  | twoPair =>
      have hTwo : 2 ≤ groups cards 2 := hTest
      have hLe := mul_groups_le cards 2
      dsimp only
      omega
  | threeOfAKind =>
      have hThree : 0 < groups cards 3 := hTest
      have hLe := mul_groups_le cards 3
      dsimp only
      omega
  | fourOfAKind =>
      have hFour : 0 < groups cards 4 := hTest
      have hLe := mul_groups_le cards 4
      dsimp only
      omega
  | fullHouse =>
      rcases hTest with ⟨hThree, hTwo⟩
      have hBoth :=
        length_grouped_add_le cards
          (show (3 : Nat) ≠ 2 by decide)
      rw [length_grouped, length_grouped] at hBoth
      dsimp only
      omega
  | straight => exact length_of_isStraight hTest
  | flush => exact length_of_isFlush hTest
  | straightFlush =>
      exact length_of_isFlush (Bool.and_eq_true_iff.mp hTest).2
  | royalFlush =>
      exact length_of_isFlush
        (Bool.and_eq_true_iff.mp hTest.1).2

/- Among different ranks only one position is the highest. -/
theorem IsFirstHighest.lt_of_nodup
    {i j : Nat}
    {c d : Card}
    (hFirst : IsFirstHighest cards i c)
    (hRanks : (cards.map Card.rank).Nodup)
    (hNe : j ≠ i)
    (hOther : cards[j]? = some d) :
    d.rank.value < c.rank.value := by
  have hLe := hFirst.highest d (List.mem_of_getElem? hOther)
  refine Nat.lt_of_le_of_ne hLe ?_
  intro hValue
  have hRank := Rank.value_injective hValue
  have hInside : j < (cards.map Card.rank).length := by
    rw [List.length_map]
    exact (List.getElem?_eq_some_iff.mp hOther).1
  apply hNe
  rw [← List.getElem?_inj hInside hRanks]
  rw [List.getElem?_map, List.getElem?_map, hOther,
    hFirst.card]
  exact congrArg some hRank

end

------------------------------------------------------------
-- Scoring Positions
------------------------------------------------------------

/-
  Positions that score: in order, all with a card, at least
  one; in a hand that makes nothing it is the first one of
  the highest rank, and the only one if no face repeats.
-/
structure PicksPositions
    (cards : List Card)
    (h : HandResult) : Prop where
  ascending : Positions.Ascending h.scoringIndices
  inside : ∀ i ∈ h.scoringIndices, i < cards.length
  nonempty : h.scoringIndices ≠ []
  complete :
    (h.scoringCards cards).length =
      h.scoringIndices.length
  highest :
    h.category = .highCard →
      ∃ i c, h.scoringIndices = [i] ∧
        IsFirstHighest cards i c
  distinct :
    h.category = .highCard →
      (cards.map Card.face).Nodup →
        (cards.map Card.rank).Nodup ∧
          ∀ i c, IsFirstHighest cards i c →
            ∀ j d, j ≠ i → cards[j]? = some d →
              d.rank.value < c.rank.value

/-
  What scores of at most five cards: as many cards as the
  category says, of one rank in three or four of a kind, of
  two ranks twice each in two pairs.
-/
structure PicksFew
    (cards : List Card)
    (h : HandResult) : Prop where
  count : h.scoringIndices.length = h.category.scoringCount
  oneRank :
    h.category = .threeOfAKind ∨
        h.category = .fourOfAKind →
      ∃ r, ∀ c ∈ h.scoringCards cards, c.rank = r
  twoRanks :
    h.category = .twoPair →
      ∃ r s, r ≠ s ∧
        ranks (h.scoringCards cards) = {r, r, s, s}

section

variable (rules : List HandRule)
variable {cards : List Card}

theorem scoringIndices_classify
    (hSome : cards ≠ []) :
    (classify rules cards).scoringIndices =
      scoringIndices cards (category cards) := by
  cases cards with
  | nil => exact absurd rfl hSome
  | cons c cs => rfl

theorem picksPositions_classify
    (hSome : cards ≠ []) :
    PicksPositions cards (classify rules cards) where
  ascending := by
    rw [scoringIndices_classify rules hSome]
    exact ascending_scoringIndices cards _
  inside := by
    intro i hi
    rw [scoringIndices_classify rules hSome] at hi
    rcases exists_card_of_mem_scoringIndices cards hi with
      ⟨c, hItem, -⟩
    exact (List.getElem?_eq_some_iff.mp hItem).1
  nonempty := by
    rw [scoringIndices_classify rules hSome,
      ← List.length_pos_iff, length_scoringIndices hSome]
    exact scoringSize_pos hSome (test_category cards).1
  complete := by
    unfold HandResult.scoringCards
    rw [scoringIndices_classify rules hSome]
    exact length_filterMap_scoringIndices cards _
  highest := by
    intro hHigh
    rw [category_classify] at hHigh
    rw [scoringIndices_classify rules hSome, hHigh]
    exact scoringIndices_highCard hSome
  distinct := by
    intro hHigh hFaces
    rw [category_classify] at hHigh
    have hRanks := nodup_ranks_of_highCard hHigh hFaces
    refine ⟨hRanks, ?_⟩
    intro i c hFirst j d hNe hOther
    exact hFirst.lt_of_nodup hRanks hNe hOther

/- But for the highest card, all that may score do so. -/
theorem scoringCards_of_category
    {k : Category}
    (hSome : cards ≠ [])
    (hCategory : category cards = k)
    (hNotHigh : k ≠ .highCard) :
    (classify rules cards).scoringCards cards =
      cards.filter (scores cards k) := by
  unfold HandResult.scoringCards
  rw [scoringIndices_classify rules hSome, hCategory]
  exact filterMap_scoringIndices_of_ne cards hNotHigh

theorem picksFew_classify
    (hSome : cards ≠ [])
    (hFew : cards.length ≤ 5) :
    PicksFew cards (classify rules cards) where
  count := by
    rw [scoringIndices_classify rules hSome,
      category_classify, length_scoringIndices hSome]
    exact scoringSize_of_few hFew (test_category cards).1
  oneRank := by
    have hTest := (test_category cards).1
    intro hKind
    rw [category_classify] at hKind
    rcases hKind with hThree | hFour
    · rw [hThree] at hTest
      have hSize : 3 * groups cards 3 = 3 :=
        scoringSize_of_few hFew hTest
      rw [scoringCards_of_category rules hSome hThree
        (by decide)]
      exact rank_of_groups_eq_one (by omega)
    · rw [hFour] at hTest
      have hSize : 4 * groups cards 4 = 4 :=
        scoringSize_of_few hFew hTest
      rw [scoringCards_of_category rules hSome hFour
        (by decide)]
      exact rank_of_groups_eq_one (by omega)
  twoRanks := by
    have hTest := (test_category cards).1
    intro hTwo
    rw [category_classify] at hTwo
    rw [hTwo] at hTest
    have hSize : 2 * groups cards 2 = 4 :=
      scoringSize_of_few hFew hTest
    rw [scoringCards_of_category rules hSome hTwo
      (by decide)]
    exact ranks_of_groups_eq_two (n := 2) (by omega)

/-
  Of any cards some score, each at a position of its own,
  and of at most five cards the category tells how many.
-/
theorem scoring_positions_fit
    (hSome : cards ≠ []) :
    PicksPositions cards (classify rules cards) ∧
      (cards.length ≤ 5 →
        PicksFew cards (classify rules cards)) :=
  ⟨picksPositions_classify rules hSome,
    picksFew_classify rules hSome⟩

end

/- Kings and fours, with a nine between them. -/
def twoPairs : List Card :=
  [⟨1, .spades, .king, 10⟩, ⟨2, .hearts, .four, 4⟩,
    ⟨3, .clubs, .king, 10⟩, ⟨4, .diamonds, .nine, 9⟩,
    ⟨5, .clubs, .four, 4⟩]

theorem scoring_positions_fit_twoPairs :
    twoPairs ≠ [] ∧ twoPairs.length ≤ 5 ∧
      (classify [] twoPairs).category = .twoPair ∧
      (classify [] twoPairs).scoringIndices =
        [0, 1, 2, 4] ∧
      PicksPositions twoPairs (classify [] twoPairs) ∧
      PicksFew twoPairs (classify [] twoPairs) := by
  have hSome : twoPairs ≠ [] := by decide
  have hFew : twoPairs.length ≤ 5 := by decide
  rcases scoring_positions_fit [] hSome with
    ⟨hPositions, hOfFew⟩
  exact ⟨hSome, hFew, by decide, by decide, hPositions,
    hOfFew hFew⟩

end Hand

end JokerRun
