import JokerRun.Hand.Classify
import JokerRun.Proofs.Positions
import Mathlib.Data.Finset.Card
import Mathlib.Data.Multiset.MapFold
import Mathlib.Data.Multiset.Replicate

/-
  The category of a hand, told by its ranks and suits alone.

  The reference speaks of multisets: it knows how often each
  rank and each suit occurs and nothing of the order of the
  cards.  A hand counts as the highest category that its
  ranks and suits make.

  Key definitions include:
    * `Category.Applies`
    * `Category.IsHighest`
    * `Hand.FollowsReference`

  Key theorems include:
    * `Hand.places_eq_iff`
    * `Hand.applies_iff_test`
    * `Hand.isHighest_category`
    * `Hand.classify_followsReference`
-/

------------------------------------------------------------
-- All Ranks, Suits And Categories
------------------------------------------------------------

namespace JokerRun

namespace Rank

theorem mem_all
    (r : Rank) :
    r ∈ all := by
  cases r <;> decide

theorem nodup_all :
    all.Nodup := by
  decide

/- The place of a rank tells the rank. -/
theorem ofValue?_value
    (r : Rank) :
    ofValue? r.value = some r := by
  cases r <;> rfl

theorem value_injective :
    Function.Injective value := by
  intro r s hEq
  have hSome : some r = some s := by
    rw [← ofValue?_value r, ← ofValue?_value s, hEq]
  exact Option.some.inj hSome

end Rank

namespace Suit

theorem mem_all
    (s : Suit) :
    s ∈ all := by
  cases s <;> decide

theorem nodup_all :
    all.Nodup := by
  decide

end Suit

namespace Category

theorem mem_all
    (c : Category) :
    c ∈ all := by
  cases c <;> decide

/- A category stands higher than another. -/
def Above
    (d c : Category) : Prop :=
  all.idxOf c < all.idxOf d

instance
    (d c : Category) :
    Decidable (d.Above c) :=
  inferInstanceAs (Decidable (_ < _))

/- Of two categories one stands higher. -/
theorem above_or_above
    {c d : Category}
    (hNe : c ≠ d) :
    c.Above d ∨ d.Above c := by
  have hIndex : all.idxOf c ≠ all.idxOf d := by
    intro hEq
    exact hNe ((List.idxOf_inj (mem_all c)).mp hEq)
  exact (Nat.lt_or_gt_of_ne hIndex).symm

------------------------------------------------------------
-- The Reference
------------------------------------------------------------

/- Five cards of one suit. -/
def OneSuit
    (suits : Multiset Suit) : Prop :=
  ∃ s, suits = Multiset.replicate 5 s

/- Five ranks in a row; the ace may stand below the two. -/
def InRow
    (ranks : Multiset Rank) : Prop :=
  (∃ v,
    ranks.map Rank.value = {v, v + 1, v + 2, v + 3, v + 4}) ∨
  ranks.map Rank.value = {2, 3, 4, 5, 14}

/- What ranks and suits must be to make a category. -/
def Applies
    (ranks : Multiset Rank)
    (suits : Multiset Suit) : Category → Prop
  | .royalFlush =>
      InRow ranks ∧ OneSuit suits ∧
        ranks = {.ten, .jack, .queen, .king, .ace}
  | .straightFlush => InRow ranks ∧ OneSuit suits
  | .fourOfAKind => ∃ r, ranks.count r = 4
  | .fullHouse =>
      (∃ r, ranks.count r = 3) ∧ ∃ r, ranks.count r = 2
  | .flush => OneSuit suits
  | .straight => InRow ranks
  | .threeOfAKind => ∃ r, ranks.count r = 3
  | .twoPair =>
      ∃ r s, r ≠ s ∧ ranks.count r = 2 ∧ ranks.count s = 2
  | .pair => ∃! r, ranks.count r = 2
  | .highCard => True

/- The highest category that ranks and suits make. -/
structure IsHighest
    (ranks : Multiset Rank)
    (suits : Multiset Suit)
    (c : Category) : Prop where
  applies : c.Applies ranks suits
  highest : ∀ d : Category, d.Above c → ¬ d.Applies ranks suits

/- Only one category is the highest. -/
theorem IsHighest.unique
    {ranks : Multiset Rank}
    {suits : Multiset Suit}
    {c d : Category}
    (hC : c.IsHighest ranks suits)
    (hD : d.IsHighest ranks suits) :
    c = d := by
  by_contra hNe
  rcases above_or_above hNe with hAbove | hAbove
  · exact hD.highest c hAbove hC.applies
  · exact hC.highest d hAbove hD.applies

------------------------------------------------------------
-- Base Values Under Rules
------------------------------------------------------------

/- The last rule of a category sets its base values. -/
theorem baseUnder_of_last
    {rule : HandRule}
    {after : List HandRule}
    (before : List HandRule)
    (hLast :
      ∀ later ∈ after, later.category ≠ rule.category) :
    rule.category.baseUnder (before ++ rule :: after) =
      ⟨rule.chips, rule.mult⟩ := by
  have hFound :
      (before ++ rule :: after).reverse.find?
          (fun r => r.category == rule.category) =
        some rule := by
    have hNone :
        after.reverse.find?
            (fun r => r.category == rule.category) =
          none := by
      simpa using hLast
    rw [List.reverse_append, List.reverse_cons,
      List.append_assoc, List.find?_append, hNone]
    simp
  unfold baseUnder
  rw [hFound]

/- Without a rule a category has its own base values. -/
theorem baseUnder_of_none
    {rules : List HandRule}
    {c : Category}
    (hNone : ∀ rule ∈ rules, rule.category ≠ c) :
    c.baseUnder rules = c.base := by
  have hMissing :
      rules.reverse.find? (fun r => r.category == c) =
        none := by
    simpa using hNone
  unfold baseUnder
  rw [hMissing]

end Category

------------------------------------------------------------
-- Counting Over All Values
------------------------------------------------------------

namespace Hand

section

variable {α : Type}
variable {all : List α}

theorem countP_all_pos_iff
    (hAll : ∀ a, a ∈ all)
    (p : α → Bool) :
    0 < all.countP p ↔ ∃ a, p a = true := by
  rw [List.countP_pos_iff]
  constructor
  · rintro ⟨a, -, ha⟩
    exact ⟨a, ha⟩
  · rintro ⟨a, ha⟩
    exact ⟨a, hAll a, ha⟩

variable [DecidableEq α]

/- A count over different values is a cardinality. -/
theorem countP_eq_card
    (hNodup : all.Nodup)
    (p : α → Bool) :
    all.countP p = (all.filter p).toFinset.card := by
  rw [List.countP_eq_length_filter,
    List.toFinset_card_of_nodup (hNodup.filter p)]

theorem two_le_countP_all_iff
    (hAll : ∀ a, a ∈ all)
    (hNodup : all.Nodup)
    (p : α → Bool) :
    2 ≤ all.countP p ↔
      ∃ a b, a ≠ b ∧ p a = true ∧ p b = true := by
  rw [countP_eq_card hNodup, Nat.succ_le_iff,
    Finset.one_lt_card]
  constructor
  · rintro ⟨a, ha, b, hb, hNe⟩
    rw [List.mem_toFinset, List.mem_filter] at ha hb
    exact ⟨a, b, hNe, ha.2, hb.2⟩
  · rintro ⟨a, b, hNe, ha, hb⟩
    refine ⟨a, ?_, b, ?_, hNe⟩
    · rw [List.mem_toFinset, List.mem_filter]
      exact ⟨hAll a, ha⟩
    · rw [List.mem_toFinset, List.mem_filter]
      exact ⟨hAll b, hb⟩

theorem countP_all_eq_one_iff
    (hAll : ∀ a, a ∈ all)
    (hNodup : all.Nodup)
    (p : α → Bool) :
    all.countP p = 1 ↔ ∃! a, p a = true := by
  rw [countP_eq_card hNodup, Finset.card_eq_one]
  have hMem
      (a : α) :
      a ∈ (all.filter p).toFinset ↔ p a = true := by
    rw [List.mem_toFinset, List.mem_filter]
    exact and_iff_right (hAll a)
  constructor
  · rintro ⟨a, hOnly⟩
    simp only [hOnly, Finset.mem_singleton] at hMem
    exact ⟨a, (hMem a).mp rfl, fun b hb => (hMem b).mpr hb⟩
  · rintro ⟨a, ha, hUnique⟩
    refine ⟨a, ?_⟩
    ext b
    rw [hMem, Finset.mem_singleton]
    constructor
    · exact hUnique b
    · rintro rfl
      exact ha

end

------------------------------------------------------------
-- What The Cards Tell
------------------------------------------------------------

/- The ranks of cards, without their order. -/
def ranks
    (cards : List Card) : Multiset Rank :=
  (cards.map Card.rank : List Rank)

/- The suits of cards, without their order. -/
def suits
    (cards : List Card) : Multiset Suit :=
  (cards.map Card.suit : List Suit)

section

variable (cards : List Card)

theorem card_suits :
    (suits cards).card = cards.length :=
  List.length_map Card.suit

theorem rankCount_eq_count
    (r : Rank) :
    rankCount cards r = (ranks cards).count r := by
  unfold rankCount ranks
  rw [Multiset.coe_count, List.count_eq_countP,
    List.countP_map]
  rfl

/- Some rank occurs a number of times. -/
theorem groups_pos_iff
    (n : Nat) :
    0 < groups cards n ↔
      ∃ r, (ranks cards).count r = n := by
  unfold groups
  rw [countP_all_pos_iff Rank.mem_all]
  simp only [rankCount_eq_count, beq_iff_eq]

/- Two ranks occur a number of times. -/
theorem two_le_groups_iff
    (n : Nat) :
    2 ≤ groups cards n ↔
      ∃ r s, r ≠ s ∧ (ranks cards).count r = n ∧
        (ranks cards).count s = n := by
  unfold groups
  rw [two_le_countP_all_iff Rank.mem_all Rank.nodup_all]
  simp only [rankCount_eq_count, beq_iff_eq]

/- Exactly one rank occurs a number of times. -/
theorem groups_eq_one_iff
    (n : Nat) :
    groups cards n = 1 ↔
      ∃! r, (ranks cards).count r = n := by
  unfold groups
  rw [countP_all_eq_one_iff Rank.mem_all Rank.nodup_all]
  simp only [rankCount_eq_count, beq_iff_eq]

/- Exactly one suit occurs. -/
theorem suitCount_eq_one_iff :
    suitCount cards = 1 ↔ ∃! s, s ∈ suits cards := by
  unfold suitCount suits
  rw [countP_all_eq_one_iff Suit.mem_all Suit.nodup_all]
  simp only [List.any_eq_true, beq_iff_eq,
    Multiset.mem_coe, List.mem_map]

theorem isFlush_iff :
    isFlush cards = true ↔
      Category.OneSuit (suits cards) := by
  unfold isFlush Category.OneSuit
  rw [Bool.and_eq_true, beq_iff_eq, beq_iff_eq,
    suitCount_eq_one_iff, ← card_suits]
  constructor
  · rintro ⟨hFive, s, -, hUnique⟩
    exact ⟨s, Multiset.eq_replicate.mpr ⟨hFive, hUnique⟩⟩
  · rintro ⟨s, hSuits⟩
    rw [hSuits]
    refine ⟨Multiset.card_replicate 5 s, s, ?_, ?_⟩
    · exact Multiset.mem_replicate.mpr ⟨by decide, rfl⟩
    · intro t ht
      exact Multiset.eq_of_mem_replicate ht

------------------------------------------------------------
-- Ranks In A Row
------------------------------------------------------------

/- The places are the values of the ranks, sorted. -/
theorem coe_places :
    (places cards : Multiset Nat) =
      (ranks cards).map Rank.value := by
  unfold places ranks
  rw [Multiset.map_coe, List.map_map, Multiset.coe_eq_coe]
  exact Positions.sort_perm _

/- A list in order is the places if the values are its own. -/
theorem places_eq_iff
    {vs : List Nat}
    (hSorted : vs.Pairwise (· ≤ ·)) :
    places cards = vs ↔
      (ranks cards).map Rank.value = vs := by
  rw [← coe_places, Multiset.coe_eq_coe]
  constructor
  · exact List.Perm.of_eq
  · intro hPerm
    exact hPerm.eq_of_pairwise'
      (Positions.pairwise_le_sort _) hSorted

/- Numbers that go up by one count on from the first. -/
theorem ascendsByOne_iff
    (vs : List Nat) :
    ascendsByOne vs = true ↔
      ∃ v, vs = List.range' v vs.length := by
  fun_induction ascendsByOne vs with
  | case1 => exact ⟨fun _ => ⟨0, rfl⟩, fun _ => rfl⟩
  | case2 a => exact ⟨fun _ => ⟨a, rfl⟩, fun _ => rfl⟩
  | case3 a b rest ih =>
      rw [Bool.and_eq_true, beq_iff_eq, ih]
      simp only [List.length_cons, List.range'_succ,
        List.cons.injEq]
      constructor
      · rintro ⟨rfl, v, rfl, hRest⟩
        exact ⟨a, rfl, rfl, hRest⟩
      · rintro ⟨v, rfl, rfl, hRest⟩
        exact ⟨rfl, a + 1, rfl, hRest⟩

theorem length_places :
    (places cards).length = cards.length := by
  unfold places
  rw [(Positions.sort_perm _).length_eq, List.length_map]

/- Five cards that go up by one. -/
theorem ascending_places_iff :
    (cards.length = 5 ∧
        ascendsByOne (places cards) = true) ↔
      ∃ v,
        places cards = [v, v + 1, v + 2, v + 3, v + 4] := by
  rw [ascendsByOne_iff, ← length_places]
  constructor
  · rintro ⟨hFive, v, hRange⟩
    rw [hFive] at hRange
    exact ⟨v, hRange⟩
  · rintro ⟨v, hPlaces⟩
    rw [hPlaces]
    exact ⟨rfl, v, rfl⟩

theorem isStraight_iff_places :
    isStraight cards = true ↔
      (∃ v,
        places cards = [v, v + 1, v + 2, v + 3, v + 4]) ∨
      places cards = [2, 3, 4, 5, 14] := by
  have hFive
      (hPlaces : places cards = [2, 3, 4, 5, 14]) :
      cards.length = 5 := by
    rw [← length_places, hPlaces]
    rfl
  unfold isStraight
  rw [Bool.and_eq_true, Bool.or_eq_true, beq_iff_eq,
    beq_iff_eq, ← ascending_places_iff]
  constructor
  · rintro ⟨hLength, hPlaces | hAscends⟩
    · exact Or.inr hPlaces
    · exact Or.inl ⟨hLength, hAscends⟩
  · rintro (⟨hLength, hAscends⟩ | hPlaces)
    · exact ⟨hLength, Or.inr hAscends⟩
    · exact ⟨hFive hPlaces, Or.inl hPlaces⟩

theorem isStraight_iff :
    isStraight cards = true ↔
      Category.InRow (ranks cards) := by
  have hRow
      (v : Nat) :
      places cards = [v, v + 1, v + 2, v + 3, v + 4] ↔
        (ranks cards).map Rank.value =
          {v, v + 1, v + 2, v + 3, v + 4} :=
    places_eq_iff cards (by simp)
  have hWheel :
      places cards = [2, 3, 4, 5, 14] ↔
        (ranks cards).map Rank.value = {2, 3, 4, 5, 14} :=
    places_eq_iff cards (by decide)
  rw [isStraight_iff_places, hWheel]
  simp only [hRow]
  rfl

/- The ranks from the ten to the ace, by their places. -/
theorem ranks_eq_royal_iff :
    ranks cards = {.ten, .jack, .queen, .king, .ace} ↔
      places cards = [10, 11, 12, 13, 14] := by
  rw [places_eq_iff cards (by decide),
    ← (Multiset.map_injective Rank.value_injective).eq_iff]
  rfl

/- Of the straights only the one up to the ace is royal. -/
theorem isRoyal_iff
    (hStraight : isStraight cards = true) :
    isRoyal cards = true ↔
      ranks cards = {.ten, .jack, .queen, .king, .ace} := by
  rw [ranks_eq_royal_iff]
  unfold isRoyal
  rw [Bool.and_eq_true, beq_iff_eq, beq_iff_eq]
  rcases (isStraight_iff_places cards).mp hStraight with
    ⟨v, hPlaces⟩ | hPlaces
  · rw [hPlaces]
    constructor
    · rintro ⟨hTen, -⟩
      have hFirst : v = 10 := Option.some.inj hTen
      rw [hFirst]
    · intro hEq
      rw [hEq]
      exact ⟨rfl, rfl⟩
  · rw [hPlaces]
    decide

------------------------------------------------------------
-- The Reference And The Tests On Cards
------------------------------------------------------------

/- What the classification tests for a category. -/
def Test : Category → Prop
  | .royalFlush =>
      (isStraight cards && isFlush cards) = true ∧
        isRoyal cards = true
  | .straightFlush =>
      (isStraight cards && isFlush cards) = true
  | .fourOfAKind => 0 < groups cards 4
  | .fullHouse => 0 < groups cards 3 ∧ 0 < groups cards 2
  | .flush => isFlush cards = true
  | .straight => isStraight cards = true
  | .threeOfAKind => 0 < groups cards 3
  | .twoPair => 2 ≤ groups cards 2
  | .pair => groups cards 2 = 1
  | .highCard => True

/- The tests decide what ranks and suits make. -/
theorem applies_iff_test
    (c : Category) :
    c.Applies (ranks cards) (suits cards) ↔
      Test cards c := by
  cases c with
  | royalFlush =>
      unfold Category.Applies Test
      rw [← isStraight_iff, ← isFlush_iff, Bool.and_eq_true,
        and_assoc]
      refine and_congr_right fun hStraight => ?_
      rw [isRoyal_iff cards hStraight]
  | straightFlush =>
      unfold Category.Applies Test
      rw [← isStraight_iff, ← isFlush_iff, Bool.and_eq_true]
  | fourOfAKind => exact (groups_pos_iff cards 4).symm
  | fullHouse =>
      exact and_congr (groups_pos_iff cards 3).symm
        (groups_pos_iff cards 2).symm
  | flush => exact (isFlush_iff cards).symm
  | straight => exact (isStraight_iff cards).symm
  | threeOfAKind => exact (groups_pos_iff cards 3).symm
  | twoPair => exact (two_le_groups_iff cards 2).symm
  | pair => exact (groups_eq_one_iff cards 2).symm
  | highCard => exact Iff.rfl

/- The tests are made from the highest category down. -/
theorem test_category :
    Test cards (category cards) ∧
      ∀ d : Category, d.Above (category cards) →
        ¬ Test cards d := by
  unfold category
  dsimp only
  split_ifs with hBoth hRoyal hFour hFull hFlush hStraight
    hThree hTwo hOne
  -- One case for each way down, from the royal flush on.
  · refine ⟨⟨hBoth, hRoyal⟩, ?_⟩
    intro d hAbove
    cases d <;> exact absurd hAbove (by decide)
  · refine ⟨hBoth, ?_⟩
    intro d hAbove
    cases d
    case royalFlush => exact fun hTest => hRoyal hTest.2
    all_goals exact absurd hAbove (by decide)
  · refine ⟨hFour, ?_⟩
    intro d hAbove
    cases d
    case royalFlush => exact fun hTest => hBoth hTest.1
    case straightFlush => exact hBoth
    all_goals exact absurd hAbove (by decide)
  all_goals
    refine ⟨by first | assumption | trivial, ?_⟩
    intro d hAbove
    cases d
    case royalFlush => exact fun hTest => hBoth hTest.1
    all_goals
      first
      | assumption
      | exact absurd hAbove (by decide)

theorem isHighest_category :
    (category cards).IsHighest (ranks cards)
      (suits cards) := by
  rcases test_category cards with ⟨hTest, hHigher⟩
  refine ⟨(applies_iff_test cards _).mpr hTest, ?_⟩
  intro d hAbove hApplies
  exact hHigher d hAbove
    ((applies_iff_test cards d).mp hApplies)

------------------------------------------------------------
-- Classification
------------------------------------------------------------

/-
  What the reference calls for: the highest category; of
  the rules for it the last one's base values, or its own
  ones; nothing for no cards.
-/
structure FollowsReference
    (rules : List HandRule)
    (cards : List Card)
    (result : HandResult) : Prop where
  category :
    ∀ c : Category,
      result.category = c ↔
        c.IsHighest (ranks cards) (suits cards)
  ruled :
    cards ≠ [] →
      ∀ before rule after,
        rules = before ++ rule :: after →
          rule.category = result.category →
            (∀ later ∈ after,
              later.category ≠ rule.category) →
              result.chips = rule.chips ∧
                result.mult = rule.mult
  unruled :
    cards ≠ [] →
      (∀ rule ∈ rules, rule.category ≠ result.category) →
        result.chips = result.category.base.chips ∧
          result.mult = result.category.base.mult
  noCards :
    cards = [] →
      result.category = .highCard ∧ result.chips = 0 ∧
        result.mult = 0

end

theorem category_classify
    (rules : List HandRule)
    (cards : List Card) :
    (classify rules cards).category = category cards := by
  cases cards with
  | nil => rfl
  | cons c cs => rfl

/- Every hand is classified as the reference calls for. -/
theorem classify_followsReference
    (rules : List HandRule)
    (cards : List Card) :
    FollowsReference rules cards (classify rules cards) where
  category c := by
    have hHighest := isHighest_category cards
    rw [category_classify]
    constructor
    · rintro rfl
      exact hHighest
    · exact hHighest.unique
  ruled := by
    intro hCards before rule after hRules hSame hLast
    rcases List.exists_cons_of_ne_nil hCards with
      ⟨first, rest, rfl⟩
    have hBase := Category.baseUnder_of_last before hLast
    rw [← hRules, hSame] at hBase
    exact ⟨congrArg Category.Base.chips hBase,
      congrArg Category.Base.mult hBase⟩
  unruled := by
    intro hCards hNone
    rcases List.exists_cons_of_ne_nil hCards with
      ⟨first, rest, rfl⟩
    have hBase := Category.baseUnder_of_none hNone
    exact ⟨congrArg Category.Base.chips hBase,
      congrArg Category.Base.mult hBase⟩
  noCards := by
    rintro rfl
    exact ⟨rfl, rfl, rfl⟩

end Hand

end JokerRun
