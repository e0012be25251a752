import JokerRun.Proofs.Hand.Scoring
import Mathlib.Logic.Equiv.Basic

/-
  A hand counts the same in any order and in any suits.

  The category is read off sorted cards, the scoring
  positions off the cards as they lie.  Both depend only on
  the ranks, without their order, and on whether there is
  one suit, so that neither another order nor other names
  for the suits can change what a hand counts for.  Which of
  several highest cards comes first is the one exception.

  Key definitions include:
    * `Card.inSuit`
    * `Hand.CountsAlike`

  Key theorems include:
    * `Hand.ranks_of_renamed`
    * `Hand.category_of_renamed`
    * `Hand.filter_scores_of_renamed`
    * `Hand.counts_alike_of_renamed`
-/

------------------------------------------------------------
-- Suits With Other Names
------------------------------------------------------------

namespace JokerRun

/- A card whose suit has another name. -/
def Card.inSuit
    (σ : Equiv.Perm Suit)
    (c : Card) : Card :=
  { c with suit := σ c.suit }

namespace Category

/- Renaming keeps five cards of one suit, and makes none. -/
theorem oneSuit_map_iff
    (σ : Equiv.Perm Suit)
    (suits : Multiset Suit) :
    OneSuit (suits.map σ) ↔ OneSuit suits := by
  constructor
  · rintro ⟨s, hSuits⟩
    refine ⟨σ.symm s, ?_⟩
    rw [← Multiset.map_replicate, ← hSuits,
      Multiset.map_map]
    simp
  · rintro ⟨s, rfl⟩
    exact ⟨σ s, Multiset.map_replicate σ 5 s⟩

theorem applies_map_iff
    (σ : Equiv.Perm Suit)
    (ranks : Multiset Rank)
    (suits : Multiset Suit)
    (k : Category) :
    k.Applies ranks (suits.map σ) ↔
      k.Applies ranks suits := by
  cases k with
  | royalFlush | straightFlush | flush =>
      simp only [Applies, oneSuit_map_iff]
  | fourOfAKind | fullHouse | straight | threeOfAKind
  | twoPair | pair | highCard => exact Iff.rfl

/- What is highest under other names is so under these. -/
theorem IsHighest.of_map
    {σ : Equiv.Perm Suit}
    {ranks : Multiset Rank}
    {suits : Multiset Suit}
    {k : Category}
    (hHighest : k.IsHighest ranks (suits.map σ)) :
    k.IsHighest ranks suits where
  applies :=
    (applies_map_iff σ ranks suits k).mp hHighest.applies
  highest := by
    intro d hAbove hApplies
    exact hHighest.highest d hAbove
      ((applies_map_iff σ ranks suits d).mpr hApplies)

end Category

------------------------------------------------------------
-- What Another Order And Other Suits Keep
------------------------------------------------------------

namespace Hand

section

variable {σ : Equiv.Perm Suit}
variable {cards others : List Card}
variable (hPerm : others.Perm (cards.map (Card.inSuit σ)))

include hPerm

theorem ranks_of_renamed :
    ranks others = ranks cards := by
  have hRanks := hPerm.map Card.rank
  rw [List.map_map] at hRanks
  exact Multiset.coe_eq_coe.mpr hRanks

theorem suits_of_renamed :
    suits others = (suits cards).map σ := by
  have hSuits := hPerm.map Card.suit
  rw [List.map_map] at hSuits
  unfold suits
  rw [Multiset.map_coe, List.map_map]
  exact Multiset.coe_eq_coe.mpr hSuits

theorem category_of_renamed :
    category others = category cards := by
  have hHighest := isHighest_category others
  rw [ranks_of_renamed hPerm,
    suits_of_renamed hPerm] at hHighest
  exact hHighest.of_map.unique (isHighest_category cards)

theorem isEmpty_of_renamed :
    others.isEmpty = cards.isEmpty := by
  rw [hPerm.isEmpty_eq, List.isEmpty_map]

theorem ne_nil_of_renamed
    (hSome : cards ≠ []) :
    others ≠ [] := by
  rw [ne_eq, ← List.isEmpty_iff] at hSome ⊢
  rwa [isEmpty_of_renamed hPerm]

/- A card may score under both names of its suit, or none. -/
theorem scores_of_renamed
    (k : Category)
    (c : Card) :
    scores others k (c.inSuit σ) = scores cards k c := by
  have hCount
      (n : Nat) :
      (rankCount others c.rank == n) =
        (rankCount cards c.rank == n) := by
    rw [rankCount_eq_count, rankCount_eq_count,
      ranks_of_renamed hPerm]
  cases k with
  | pair | twoPair | threeOfAKind | fourOfAKind =>
      exact hCount _
  | straight | flush | fullHouse | straightFlush
  | royalFlush => rfl
  | highCard =>
      apply Bool.eq_iff_iff.mpr
      change isHighest others (c.inSuit σ) = true ↔
        isHighest cards c = true
      rw [isHighest_iff_ranks, isHighest_iff_ranks,
        ranks_of_renamed hPerm]
      rfl

/- The cards that may score are the same but for suits. -/
theorem filter_scores_of_renamed
    (k : Category) :
    (others.filter (scores others k)).Perm
      ((cards.filter (scores cards k)).map
        (Card.inSuit σ)) := by
  calc
    (others.filter (scores others k)).Perm
        ((cards.map (Card.inSuit σ)).filter
          (scores others k)) :=
      hPerm.filter (scores others k)
    _ = (cards.filter
          (scores others k ∘ Card.inSuit σ)).map
            (Card.inSuit σ) :=
      List.filter_map
    _ = (cards.filter (scores cards k)).map
          (Card.inSuit σ) := by
      congr 2
      funext c
      exact scores_of_renamed hPerm k c

end

------------------------------------------------------------
-- Hands That Count Alike
------------------------------------------------------------

/-
  Two hands that count alike: for the same, with the same
  cards but for the names of suits.  Of several highest
  cards either may be the one that scores.
-/
structure CountsAlike
    (σ : Equiv.Perm Suit)
    (cards others : List Card)
    (h other : HandResult) : Prop where
  category : other.category = h.category
  chips : other.chips = h.chips
  mult : other.mult = h.mult
  scoring :
    h.category ≠ .highCard ∨ cards = [] →
      (other.scoringCards others).Perm
        ((h.scoringCards cards).map (Card.inSuit σ))
  highest :
    h.category = .highCard → cards ≠ [] →
      ∃ c d, h.scoringCards cards = [c] ∧
        other.scoringCards others = [d] ∧
        d.rank = c.rank

/- The base values of cards, which are none for no cards. -/
theorem base_classify
    (rules : List HandRule)
    (cards : List Card) :
    (⟨(classify rules cards).chips,
        (classify rules cards).mult⟩ : Category.Base) =
      if cards.isEmpty then ⟨0, 0⟩
      else (category cards).baseUnder rules := by
  cases cards with
  | nil => rfl
  | cons c cs => rfl

theorem base_of_renamed
    (rules : List HandRule)
    {σ : Equiv.Perm Suit}
    {cards others : List Card}
    (hPerm : others.Perm (cards.map (Card.inSuit σ))) :
    (⟨(classify rules others).chips,
        (classify rules others).mult⟩ : Category.Base) =
      ⟨(classify rules cards).chips,
        (classify rules cards).mult⟩ := by
  rw [base_classify, base_classify,
    isEmpty_of_renamed hPerm, category_of_renamed hPerm]

/- A hand that makes nothing scores its first highest card. -/
theorem scoringCards_of_highCard
    (rules : List HandRule)
    {cards : List Card}
    (hSome : cards ≠ [])
    (hHigh : category cards = .highCard) :
    ∃ c, (classify rules cards).scoringCards cards = [c] ∧
      c.rank ∈ ranks cards ∧
      ∀ r ∈ ranks cards, r.value ≤ c.rank.value := by
  rcases scoringIndices_highCard hSome with
    ⟨i, c, hOne, hFirst⟩
  refine ⟨c, ?_, ?_, ?_⟩
  · unfold HandResult.scoringCards
    rw [scoringIndices_classify rules hSome, hHigh, hOne,
      List.filterMap_cons_some hFirst.card]
    rfl
  · exact List.mem_map_of_mem
      (List.mem_of_getElem? hFirst.card)
  · exact isHighest_iff_ranks.mp
      (isHighest_iff.mpr hFirst.highest)

/-
  Cards in another order, with their suits renamed, count
  like the cards.
-/
theorem counts_alike_of_renamed
    (rules : List HandRule)
    {σ : Equiv.Perm Suit}
    {cards others : List Card}
    (hPerm : others.Perm (cards.map (Card.inSuit σ))) :
    CountsAlike σ cards others (classify rules cards)
      (classify rules others) where
  category := by
    rw [category_classify, category_classify,
      category_of_renamed hPerm]
  chips :=
    congrArg Category.Base.chips (base_of_renamed rules hPerm)
  mult :=
    congrArg Category.Base.mult (base_of_renamed rules hPerm)
  scoring := by
    rintro (hNotHigh | rfl)
    · rw [category_classify] at hNotHigh
      have hSome : cards ≠ [] := by
        rintro rfl
        exact hNotHigh rfl
      have hOthers := ne_nil_of_renamed hPerm hSome
      rw [scoringCards_of_category rules hSome rfl hNotHigh,
        scoringCards_of_category rules hOthers
          (category_of_renamed hPerm) hNotHigh]
      exact filter_scores_of_renamed hPerm (category cards)
    · obtain rfl : others = [] := hPerm.eq_nil
      exact List.Perm.refl _
  highest := by
    intro hHigh hSome
    rw [category_classify] at hHigh
    have hOthers := ne_nil_of_renamed hPerm hSome
    have hOtherHigh := category_of_renamed hPerm
    rw [hHigh] at hOtherHigh
    rcases scoringCards_of_highCard rules hSome hHigh with
      ⟨c, hCard, hRank, hMax⟩
    rcases scoringCards_of_highCard rules hOthers
        hOtherHigh with
      ⟨d, hOther, hOtherRank, hOtherMax⟩
    rw [ranks_of_renamed hPerm] at hOtherRank hOtherMax
    refine ⟨c, d, hCard, hOther, ?_⟩
    apply Rank.value_injective
    exact Nat.le_antisymm (hMax d.rank hOtherRank)
      (hOtherMax c.rank hRank)

/- The names of hearts and spades exchanged. -/
def heartsForSpades : Equiv.Perm Suit :=
  Equiv.swap .hearts .spades

/- The cards of two pairs, turned around and renamed. -/
def twoPairsRenamed : List Card :=
  (twoPairs.map (Card.inSuit heartsForSpades)).reverse

theorem counts_alike_of_renamed_twoPairs :
    twoPairsRenamed.Perm
        (twoPairs.map (Card.inSuit heartsForSpades)) ∧
      (classify [] twoPairs).category ≠ .highCard ∧
      CountsAlike heartsForSpades twoPairs twoPairsRenamed
        (classify [] twoPairs)
        (classify [] twoPairsRenamed) := by
  have hPerm :
      twoPairsRenamed.Perm
        (twoPairs.map (Card.inSuit heartsForSpades)) :=
    List.reverse_perm _
  exact ⟨hPerm, by decide,
    counts_alike_of_renamed [] hPerm⟩

/- Of five kings another one scores in another order. -/
example :
    let kings : List Card :=
      [⟨1, .spades, .king, 10⟩, ⟨2, .hearts, .king, 10⟩,
        ⟨3, .clubs, .king, 10⟩, ⟨4, .diamonds, .king, 10⟩,
        ⟨5, .spades, .king, 10⟩]
    (classify [] kings).scoringCards kings =
        [⟨1, .spades, .king, 10⟩] ∧
      (classify [] kings.reverse).scoringCards
          kings.reverse =
        [⟨5, .spades, .king, 10⟩] := by
  decide

end Hand

end JokerRun
