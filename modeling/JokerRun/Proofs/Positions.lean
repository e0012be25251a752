import JokerRun.Positions
import Mathlib.Data.List.Dedup
import Mathlib.Data.List.Sort
import Mathlib.Order.Bounds.Basic

/-
  Laws of positions in ascending order.

  Key definitions include:
    * `Positions.Ascending`
    * `Positions.distinct`

  Key theorems include:
    * `Positions.sort_perm`
    * `Positions.sort_of_ascending`
    * `Positions.ascending_sort_append`
    * `Positions.Ascending.ext`
    * `Positions.distinct_eq_of_mem_iff`
    * `Positions.sort_distinct_append`
    * `Positions.firstRepeat?_eq_none_iff`
    * `Positions.isLeast_of_firstRepeat?_sort`
    * `Positions.isLeast_of_find?_sort`
-/

------------------------------------------------------------
-- Sorting
------------------------------------------------------------

namespace JokerRun

namespace Positions

/- Positions ascend strictly. -/
def Ascending
    (is : List Nat) : Prop :=
  is.Pairwise (· < ·)

/- Ascending positions are pairwise different. -/
theorem Ascending.nodup
    {is : List Nat}
    (hAsc : Ascending is) :
    is.Nodup :=
  hAsc.imp Nat.ne_of_lt

/- Paired with their positions, items come in their order. -/
theorem pairwise_snd_zipIdx
    {α : Type}
    (xs : List α) :
    xs.zipIdx.Pairwise fun p q => p.2 < q.2 := by
  rw [← List.pairwise_map, List.zipIdx_map_snd]
  exact List.pairwise_lt_range'

/- Putting a position in is the library's ordered insertion. -/
theorem insert_eq_orderedInsert
    (i : Nat)
    (is : List Nat) :
    insert i is = is.orderedInsert (· ≤ ·) i := by
  induction is with
  | nil => rfl
  | cons j js ih =>
      simp only [insert, List.orderedInsert, ih]

/- Sorting is the library's insertion sort. -/
theorem sort_eq_insertionSort
    (is : List Nat) :
    sort is = is.insertionSort (· ≤ ·) := by
  induction is with
  | nil => rfl
  | cons i is ih =>
      rw [List.insertionSort_cons, ← ih,
        ← insert_eq_orderedInsert]
      rfl

/- Sorting only reorders. -/
theorem sort_perm
    (is : List Nat) :
    (sort is).Perm is := by
  rw [sort_eq_insertionSort]
  exact List.perm_insertionSort _ is

@[simp] theorem mem_sort_iff
    {is : List Nat}
    {i : Nat} :
    i ∈ sort is ↔ i ∈ is :=
  (sort_perm is).mem_iff

/- A sorted list does not descend. -/
theorem pairwise_le_sort
    (is : List Nat) :
    (sort is).Pairwise (· ≤ ·) := by
  rw [sort_eq_insertionSort]
  exact List.pairwise_insertionSort _ is

/- Ascending positions are sorted already. -/
theorem sort_of_ascending
    {is : List Nat}
    (hAsc : Ascending is) :
    sort is = is := by
  rw [sort_eq_insertionSort]
  exact List.Pairwise.insertionSort_eq
    (hAsc.imp Nat.le_of_lt)

/- Different positions ascend strictly once sorted. -/
theorem ascending_sort
    {is : List Nat}
    (hNodup : is.Nodup) :
    Ascending (sort is) := by
  have hSortedNodup : (sort is).Nodup :=
    (sort_perm is).nodup_iff.mpr hNodup
  have hBoth :=
    (pairwise_le_sort is).and hSortedNodup
  exact hBoth.imp fun ⟨hLe, hNe⟩ =>
    Nat.lt_of_le_of_ne hLe hNe

/- A new position sorted into ascending ones. -/
theorem ascending_sort_append
    {is : List Nat}
    (hAsc : Ascending is)
    {i : Nat}
    (hNew : i ∉ is) :
    Ascending (sort (is ++ [i])) := by
  apply ascending_sort
  rw [List.nodup_append]
  refine ⟨hAsc.nodup, List.nodup_singleton i, ?_⟩
  intro j hj k hk hEq
  rw [List.mem_singleton] at hk
  exact hNew (hk ▸ hEq ▸ hj)

------------------------------------------------------------
-- Different Positions
------------------------------------------------------------

/- Ascending positions are told by their members. -/
theorem Ascending.ext
    {is js : List Nat}
    (hFirst : Ascending is)
    (hSecond : Ascending js)
    (hMembers : ∀ i, i ∈ is ↔ i ∈ js) :
    is = js :=
  List.Pairwise.eq_of_mem_iff hFirst hSecond hMembers

/- The different ones of some positions, ascending. -/
def distinct
    (is : List Nat) : List Nat :=
  sort is.dedup

@[simp] theorem mem_distinct_iff
    {is : List Nat}
    {i : Nat} :
    i ∈ distinct is ↔ i ∈ is := by
  rw [distinct, mem_sort_iff, List.mem_dedup]

theorem ascending_distinct
    (is : List Nat) :
    Ascending (distinct is) :=
  ascending_sort (List.nodup_dedup is)

/- Neither order nor repetition is left. -/
theorem distinct_eq_of_mem_iff
    {is js : List Nat}
    (hMembers : ∀ i, i ∈ is ↔ i ∈ js) :
    distinct is = distinct js := by
  apply (ascending_distinct is).ext (ascending_distinct js)
  intro i
  rw [mem_distinct_iff, mem_distinct_iff]
  exact hMembers i

/- A position listed again adds nothing. -/
theorem distinct_append_of_mem
    {is : List Nat}
    {i : Nat}
    (hListed : i ∈ is) :
    distinct (is ++ [i]) = distinct is := by
  apply distinct_eq_of_mem_iff
  intro j
  rw [List.mem_append, List.mem_singleton]
  constructor
  · rintro (hEarlier | rfl)
    · exact hEarlier
    · exact hListed
  · exact Or.inl

/- A new one is sorted into the different ones. -/
theorem sort_distinct_append
    {is : List Nat}
    {i : Nat}
    (hNew : i ∉ is) :
    sort (distinct is ++ [i]) = distinct (is ++ [i]) := by
  have hNotDistinct : i ∉ distinct is := by
    rw [mem_distinct_iff]
    exact hNew
  apply (ascending_sort_append (ascending_distinct is)
    hNotDistinct).ext (ascending_distinct (is ++ [i]))
  intro j
  simp

/- Then there is one more of them. -/
theorem length_distinct_append
    {is : List Nat}
    {i : Nat}
    (hNew : i ∉ is) :
    (distinct (is ++ [i])).length =
      (distinct is).length + 1 := by
  rw [← sort_distinct_append hNew, (sort_perm _).length_eq,
    List.length_append, List.length_singleton]

/- Of fewer positions no more are different. -/
theorem length_distinct_le_of_subset
    {is js : List Nat}
    (hSubset : is ⊆ js) :
    (distinct is).length ≤ (distinct js).length := by
  have hMembers : distinct is ⊆ distinct js := fun i hi =>
    mem_distinct_iff.mpr (hSubset (mem_distinct_iff.mp hi))
  exact (List.subperm_of_subset (ascending_distinct is).nodup
    hMembers).length_le

------------------------------------------------------------
-- Repeats
------------------------------------------------------------

/-
  A list that does not descend has no repeat next to itself
  exactly when it ascends strictly.
-/
theorem firstRepeat?_eq_none_iff
    {is : List Nat}
    (hSorted : is.Pairwise (· ≤ ·)) :
    firstRepeat? is = none ↔ Ascending is := by
  fun_induction firstRepeat? is with
  | case1 => simp [Ascending]
  | case2 => simp [Ascending]
  | case3 i js =>
      constructor
      · intro h
        simp at h
      · intro hAsc
        have hLt := List.rel_of_pairwise_cons hAsc
          (List.mem_cons_self (a := i) (l := js))
        exact absurd hLt (Nat.lt_irrefl i)
  | case4 i j js hNe ih =>
      rcases List.pairwise_cons.mp hSorted with
        ⟨hHead, hTail⟩
      rw [ih hTail]
      constructor
      · intro hAsc
        refine List.pairwise_cons.mpr ⟨?_, hAsc⟩
        intro k hk
        have hij : i < j :=
          Nat.lt_of_le_of_ne
            (hHead j List.mem_cons_self) hNe
        rcases List.mem_cons.mp hk with rfl | hTailMem
        · exact hij
        · exact Nat.lt_trans hij
            (List.rel_of_pairwise_cons hAsc hTailMem)
      · intro hAsc
        exact (List.pairwise_cons.mp hAsc).2

/- A repeat next to itself is the least position repeated. -/
theorem isLeast_of_firstRepeat?
    {is : List Nat}
    {i : Nat}
    (hSorted : is.Pairwise (· ≤ ·))
    (hRepeat : firstRepeat? is = some i) :
    IsLeast {j | 2 ≤ is.count j} i := by
  fun_induction firstRepeat? is with
  | case1 => cases hRepeat
  | case2 => cases hRepeat
  | case3 j js =>
      have hHead := (List.pairwise_cons.mp hSorted).1
      obtain rfl := Option.some.inj hRepeat
      constructor
      · change 2 ≤ (j :: j :: js).count j
        rw [List.count_cons_self, List.count_cons_self]
        omega
      · intro k hk
        have hMem : k ∈ j :: j :: js := by
          apply List.count_pos_iff.mp
          exact Nat.lt_of_lt_of_le Nat.zero_lt_two hk
        rcases List.mem_cons.mp hMem with rfl | hTail
        · exact Nat.le_refl k
        · exact hHead k hTail
  | case4 j k js hNe ih =>
      rcases List.pairwise_cons.mp hSorted with
        ⟨hHead, hTail⟩
      -- The head stands below the rest, so it is listed once.
      have hOnce : j ∉ k :: js := by
        intro hMem
        rcases List.mem_cons.mp hMem with hEq | hLater
        · exact hNe hEq
        · have hUp := hHead k List.mem_cons_self
          have hDown :=
            List.rel_of_pairwise_cons hTail hLater
          omega
      have hSame :
          {m | 2 ≤ (j :: k :: js).count m} =
            {m | 2 ≤ (k :: js).count m} := by
        ext m
        by_cases hm : j = m
        · subst hm
          simp only [Set.mem_ofPred_eq, List.count_cons_self,
            List.count_eq_zero_of_not_mem hOnce]
          omega
        · simp only [Set.mem_ofPred_eq,
            List.count_cons_of_ne hm]
      rw [hSame]
      exact ih hTail hRepeat

/- What sorting finds repeated is the least repeated. -/
theorem isLeast_of_firstRepeat?_sort
    {is : List Nat}
    {i : Nat}
    (hRepeat : firstRepeat? (sort is) = some i) :
    IsLeast {j | 2 ≤ is.count j} i := by
  have hLeast :=
    isLeast_of_firstRepeat? (pairwise_le_sort is) hRepeat
  simpa only [(sort_perm is).count_eq] using hLeast

/- The first of sorted positions with a property is the least. -/
theorem isLeast_of_find?_sort
    {is : List Nat}
    {p : Nat → Bool}
    {i : Nat}
    (hFound : (sort is).find? p = some i) :
    IsLeast {j | j ∈ is ∧ p j = true} i := by
  rcases List.find?_eq_some_iff_append.mp hFound with
    ⟨hHolds, before, after, hSplit, hBefore⟩
  have hMem : i ∈ is :=
    mem_sort_iff.mp (List.mem_of_find?_eq_some hFound)
  refine ⟨⟨hMem, hHolds⟩, ?_⟩
  rintro j ⟨hj, hProperty⟩
  have hSorted := pairwise_le_sort is
  rw [hSplit] at hSorted
  rw [← mem_sort_iff, hSplit, List.mem_append] at hj
  rcases hj with hEarlier | hLater
  · have hNot := hBefore j hEarlier
    rw [hProperty] at hNot
    cases hNot
  · rcases List.mem_cons.mp hLater with rfl | hTail
    · exact Nat.le_refl j
    · have hRest := (List.pairwise_append.mp hSorted).2.1
      exact List.rel_of_pairwise_cons hRest hTail

end Positions

end JokerRun
