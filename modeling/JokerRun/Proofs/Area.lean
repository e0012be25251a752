import JokerRun.Area
import JokerRun.Proofs.Positions
import Mathlib.Data.List.Perm.Basic

/-
  Laws of areas.

  Each operation either refuses, for a reason that is read
  off the area and its arguments, or acts on the list of
  items.  Taking the items of some positions splits the
  items: what is taken and what stays are together the old
  items.

  Key theorems include:
    * `Area.push_of_room`
    * `Area.take_of_get?`
    * `Area.replace_of_get?`
    * `Area.perm_of_taken`
    * `Area.perm_of_replaced`
    * `Area.takeMany_of_ascending`
    * `Area.takeMany_cases`
    * `Area.takeMany_eq_ok_iff`
    * `Area.takeMany_eq_duplicateIndex_iff`
    * `Area.takeMany_eq_invalidIndex_iff`
    * `Area.Fits.of_length_le`
    * `Area.Fits.append_of_room`
-/

------------------------------------------------------------
-- Moving One Item
------------------------------------------------------------

namespace JokerRun

namespace Area

variable {α : Type}

@[simp] theorem items_clear
    (a : Area α) :
    a.clear.items = [] := rfl

@[simp] theorem isFull_iff
    (a : Area α) :
    a.isFull = true ↔ a.capacity ≤ a.size := by
  simp [isFull]

/- A position has an item exactly when it is occupied. -/
theorem get?_isNone_iff
    (a : Area α)
    (i : Nat) :
    (a.get? i).isNone = true ↔ a.size ≤ i := by
  simp [get?, size]

/- With a slot left, an item goes behind the others. -/
theorem push_of_room
    {a : Area α}
    (hRoom : a.size < a.capacity)
    (x : α) :
    a.push x =
      .ok (a.size, { a with items := a.items ++ [x] }) := by
  have hNotFull : ¬ a.isFull = true := by
    rw [isFull_iff]
    omega
  simp [push, hNotFull]

/- An item more is a free slot less. -/
theorem freeSlots_append_singleton
    (a : Area α)
    (x : α) :
    freeSlots { a with items := a.items ++ [x] } =
      a.freeSlots - 1 := by
  simp only [freeSlots, size, List.length_append,
    List.length_singleton, Nat.sub_sub]

/- An occupied position gives its item up. -/
theorem take_of_get?
    {a : Area α}
    {i : Nat}
    {x : α}
    (hItem : a.get? i = some x) :
    a.take i =
      .ok (x, { a with items := a.items.eraseIdx i }) := by
  unfold get? at hItem
  simp [take, hItem]

/- An occupied position takes another item. -/
theorem replace_of_get?
    {a : Area α}
    {i : Nat}
    {y : α}
    (hItem : a.get? i = some y)
    (x : α) :
    a.replace i x =
      .ok (y, { a with items := a.items.set i x }) := by
  unfold get? at hItem
  simp [replace, hItem]

/- An item and what is left when it is taken out. -/
theorem perm_of_taken
    {xs : List α}
    {i : Nat}
    {x : α}
    (hItem : xs[i]? = some x) :
    (x :: xs.eraseIdx i).Perm xs := by
  rcases List.getElem?_eq_some_iff.mp hItem with ⟨hi, rfl⟩
  exact List.getElem_cons_eraseIdx_perm hi

/- The old item comes out for the one that is put in. -/
theorem perm_of_replaced
    {xs : List α}
    {i : Nat}
    {old : α}
    (hItem : xs[i]? = some old)
    (x : α) :
    (old :: xs.set i x).Perm (x :: xs) := by
  rcases List.getElem?_eq_some_iff.mp hItem with ⟨hi, -⟩
  calc
    (old :: xs.set i x).Perm
        (old :: x :: xs.eraseIdx i) :=
      (List.set_perm_cons_eraseIdx hi x).cons old
    _ |>.Perm (x :: old :: xs.eraseIdx i) :=
      List.Perm.swap _ _ _
    _ |>.Perm (x :: xs) := (perm_of_taken hItem).cons x

------------------------------------------------------------
-- Splitting A List
------------------------------------------------------------

/- The items in the listed slots, in the order of the slots. -/
def chosen
    (is : List Nat)
    (xs : List α) : List α :=
  (xs.zipIdx.filter fun p => is.contains p.2).map Prod.fst

/- The items at some positions, paired with the positions. -/
def found
    (is : List Nat)
    (xs : List α) : List (α × Nat) :=
  is.filterMap fun i => (xs[i]?).map fun x => (x, i)

theorem map_fst_found
    (is : List Nat)
    (xs : List α) :
    (found is xs).map Prod.fst =
      is.filterMap fun i => xs[i]? := by
  unfold found
  rw [List.map_filterMap]
  congr
  funext i
  simp [Function.comp_def]

/-
  Paired with their positions the items are different, so
  that it is enough to compare members.
-/
theorem found_perm_filter
    {is : List Nat}
    (hNodup : is.Nodup)
    (xs : List α) :
    (found is xs).Perm
      (xs.zipIdx.filter fun p => is.contains p.2) := by
  unfold found
  rw [List.perm_ext_iff_of_nodup]
  · intro p
    rw [List.mem_filterMap, List.mem_filter,
      List.mem_zipIdx_iff_getElem?]
    simp only [Option.map_eq_some_iff, List.contains_iff_mem]
    constructor
    · rintro ⟨i, hi, x, hx, rfl⟩
      exact ⟨hx, hi⟩
    · rintro ⟨hx, hi⟩
      exact ⟨p.2, hi, p.1, hx, rfl⟩
  · refine List.Nodup.filterMap ?_ hNodup
    intro i j p hi hj
    simp only [Option.mem_def,
      Option.map_eq_some_iff] at hi hj
    rcases hi with ⟨x, -, rfl⟩
    rcases hj with ⟨y, -, hEq⟩
    exact (congrArg Prod.snd hEq).symm
  · refine List.Nodup.filter _ ?_
    refine List.Nodup.of_map Prod.snd ?_
    rw [List.zipIdx_map_snd]
    exact List.nodup_range'

/-
  The items at some different positions, in whatever order,
  are the chosen ones.
-/
theorem filterMap_get_perm_chosen
    {is : List Nat}
    (hNodup : is.Nodup)
    (xs : List α) :
    (is.filterMap fun i => xs[i]?).Perm (chosen is xs) := by
  rw [← map_fst_found]
  exact (found_perm_filter hNodup xs).map Prod.fst

/- Ascending positions have the chosen items in order. -/
theorem filterMap_get_eq_chosen
    {is : List Nat}
    (hAsc : Positions.Ascending is)
    (xs : List α) :
    (is.filterMap fun i => xs[i]?) = chosen is xs := by
  have hFound :
      (found is xs).Pairwise fun p q => p.2 < q.2 := by
    unfold found
    rw [List.pairwise_filterMap]
    refine hAsc.imp ?_
    intro i j hLt p hp q hq
    simp only [Option.map_eq_some_iff] at hp hq
    rcases hp with ⟨x, -, rfl⟩
    rcases hq with ⟨y, -, rfl⟩
    exact hLt
  have hFiltered :
      (xs.zipIdx.filter fun p =>
        is.contains p.2).Pairwise fun p q => p.2 < q.2 :=
    (Positions.pairwise_snd_zipIdx xs).filter _
  have hEq :=
    (found_perm_filter hAsc.nodup xs).eq_of_pairwise
      (fun p q _ _ hLeft hRight =>
        absurd hLeft (Nat.lt_asymm hRight))
      hFound hFiltered
  rw [← map_fst_found, hEq]
  rfl

/- The order of the positions does not matter. -/
theorem chosen_sort
    (is : List Nat)
    (xs : List α) :
    chosen (Positions.sort is) xs = chosen is xs := by
  simp only [chosen, (Positions.sort_perm is).contains_eq]

theorem others_sort
    (is : List Nat)
    (xs : List α) :
    others (Positions.sort is) xs = others is xs := by
  simp only [others, (Positions.sort_perm is).contains_eq]

/- Chosen items and other items make up the list. -/
theorem chosen_append_others_perm
    (is : List Nat)
    (xs : List α) :
    (chosen is xs ++ others is xs).Perm xs := by
  have hParts :=
    (List.filter_append_perm
      (fun p : α × Nat => is.contains p.2)
      xs.zipIdx).map Prod.fst
  rw [List.map_append, List.zipIdx_map_fst] at hParts
  exact hParts

/- Listed items and other items make up the list. -/
theorem filterMap_get_append_others_perm
    {is : List Nat}
    (hNodup : is.Nodup)
    (xs : List α) :
    ((is.filterMap fun i => xs[i]?) ++
      others is xs).Perm xs :=
  ((filterMap_get_perm_chosen hNodup xs).append_right
    (others is xs)).trans (chosen_append_others_perm is xs)

/- Occupied positions have as many items as there are. -/
theorem length_filterMap_get?
    {a : Area α}
    {is : List Nat}
    (hInside : ∀ i ∈ is, i < a.size) :
    (is.filterMap a.get?).length = is.length := by
  induction is with
  | nil => rfl
  | cons i is ih =>
      have hHead : i < a.items.length :=
        hInside i List.mem_cons_self
      have hTail : ∀ j ∈ is, j < a.size := by
        intro j hj
        exact hInside j (List.mem_cons_of_mem i hj)
      have hItem : a.get? i = some a.items[i] :=
        List.getElem?_eq_getElem hHead
      rw [List.filterMap_cons_some hItem,
        List.length_cons, ih hTail, List.length_cons]

------------------------------------------------------------
-- Moving Many Items
------------------------------------------------------------

/-
  Ascending positions inside an area are taken: their items
  leave in this order and the others stay.
-/
theorem takeMany_of_ascending
    {a : Area α}
    {is : List Nat}
    (hAsc : Positions.Ascending is)
    (hInside : ∀ i ∈ is, i < a.size) :
    a.takeMany is =
      .ok (is.filterMap a.get?,
        { a with items := others is a.items }) := by
  have hNoRepeat : Positions.firstRepeat? is = none :=
    (Positions.firstRepeat?_eq_none_iff
      (hAsc.imp Nat.le_of_lt)).mpr hAsc
  have hNoneOutside :
      (is.find? fun i => decide (a.size ≤ i)) = none := by
    rw [List.find?_eq_none]
    intro i hi
    simpa using hInside i hi
  simp only [takeMany, Positions.sort_of_ascending hAsc,
    hNoRepeat, hNoneOutside]

/-
  Many items are refused for the least repeated position,
  else for the least one without an item, else taken.
-/
theorem takeMany_cases
    (a : Area α)
    (is : List Nat) :
    (∃ i, IsLeast {j | 2 ≤ is.count j} i ∧
      a.takeMany is = .error (.duplicateIndex i)) ∨
    (is.Nodup ∧
      ∃ i, IsLeast {j | j ∈ is ∧ a.size ≤ j} i ∧
        a.takeMany is = .error (.invalidIndex i)) ∨
    (is.Nodup ∧ (∀ i ∈ is, i < a.size) ∧
      a.takeMany is =
        .ok (chosen is a.items,
          { a with items := others is a.items })) := by
  cases hRepeat :
      Positions.firstRepeat? (Positions.sort is) with
  | some i =>
      refine Or.inl ⟨i, ?_, ?_⟩
      · exact Positions.isLeast_of_firstRepeat?_sort hRepeat
      · simp only [takeMany, hRepeat]
  | none =>
      have hAsc :=
        (Positions.firstRepeat?_eq_none_iff
          (Positions.pairwise_le_sort is)).mp hRepeat
      have hNodup : is.Nodup :=
        (Positions.sort_perm is).nodup_iff.mp hAsc.nodup
      right
      cases hOutside : (Positions.sort is).find? fun i =>
          decide (a.size ≤ i) with
      | some i =>
          have hLeast :=
            Positions.isLeast_of_find?_sort hOutside
          simp only [decide_eq_true_eq] at hLeast
          refine Or.inl ⟨hNodup, i, hLeast, ?_⟩
          simp only [takeMany, hRepeat, hOutside]
      | none =>
          have hInside : ∀ i ∈ is, i < a.size := by
            intro i hi
            rw [List.find?_eq_none] at hOutside
            have hNot := hOutside i
              (Positions.mem_sort_iff.mpr hi)
            simpa using hNot
          refine Or.inr ⟨hNodup, hInside, ?_⟩
          simp only [takeMany, hRepeat, hOutside]
          rw [others_sort, ← chosen_sort,
            ← filterMap_get_eq_chosen hAsc]
          rfl

/- A list with a repeated position repeats it. -/
theorem not_nodup_of_isLeast
    {is : List Nat}
    {i : Nat}
    (hLeast : IsLeast {j | 2 ≤ is.count j} i) :
    ¬ is.Nodup := by
  intro hNodup
  have hOnce := List.nodup_iff_count_le_one.mp hNodup i
  have hTwice : 2 ≤ is.count i := hLeast.1
  omega

/- Many items are taken from different, occupied slots. -/
theorem takeMany_eq_ok_iff
    {a b : Area α}
    {is : List Nat}
    {taken : List α} :
    a.takeMany is = .ok (taken, b) ↔
      (is.Nodup ∧ ∀ i ∈ is, i < a.size) ∧
        taken = chosen is a.items ∧
        b = { a with items := others is a.items } := by
  rcases a.takeMany_cases is with
    ⟨i, hLeast, hRefused⟩ |
      ⟨-, i, hLeast, hRefused⟩ |
      ⟨hNodup, hInside, hTaken⟩
  · have hRepeats := not_nodup_of_isLeast hLeast
    rw [hRefused]
    simp [hRepeats]
  · have hOutside : ¬ ∀ i ∈ is, i < a.size := by
      intro hInside
      have hListed := hInside i hLeast.1.1
      have hUnoccupied := hLeast.1.2
      omega
    rw [hRefused]
    simp only [hOutside]
    simp
  · rw [hTaken]
    constructor
    · intro hEq
      cases hEq
      exact ⟨⟨hNodup, hInside⟩, rfl, rfl⟩
    · rintro ⟨-, rfl, rfl⟩
      rfl

/- The least repeated position is reported. -/
theorem takeMany_eq_duplicateIndex_iff
    {a : Area α}
    {is : List Nat}
    {i : Nat} :
    a.takeMany is = .error (.duplicateIndex i) ↔
      IsLeast {j | 2 ≤ is.count j} i := by
  rcases a.takeMany_cases is with
    ⟨k, hLeast, hRefused⟩ |
      ⟨hNodup, k, -, hAnswer⟩ |
      ⟨hNodup, -, hAnswer⟩
  · rw [hRefused]
    constructor
    · intro hEq
      cases hEq
      exact hLeast
    · intro hOther
      rw [hLeast.unique hOther]
  · rw [hAnswer]
    constructor
    · intro hEq
      cases hEq
    · intro hOther
      exact absurd hNodup (not_nodup_of_isLeast hOther)
  · rw [hAnswer]
    constructor
    · intro hEq
      cases hEq
    · intro hOther
      exact absurd hNodup (not_nodup_of_isLeast hOther)

/-
  Without a repeat, the least position that has no item is
  reported.
-/
theorem takeMany_eq_invalidIndex_iff
    {a : Area α}
    {is : List Nat}
    {i : Nat} :
    a.takeMany is = .error (.invalidIndex i) ↔
      is.Nodup ∧ IsLeast {j | j ∈ is ∧ a.size ≤ j} i := by
  rcases a.takeMany_cases is with
    ⟨k, hRepeated, hAnswer⟩ |
      ⟨hNodup, k, hLeast, hRefused⟩ |
      ⟨-, hInside, hAnswer⟩
  · have hRepeats := not_nodup_of_isLeast hRepeated
    rw [hAnswer]
    simp [hRepeats]
  · rw [hRefused]
    constructor
    · intro hEq
      cases hEq
      exact ⟨hNodup, hLeast⟩
    · rintro ⟨-, hOther⟩
      rw [hLeast.unique hOther]
  · rw [hAnswer]
    constructor
    · intro hEq
      cases hEq
    · rintro ⟨-, hOther⟩
      have hListed := hInside i hOther.1.1
      have hUnoccupied := hOther.1.2
      omega

------------------------------------------------------------
-- Staying Within The Slots
------------------------------------------------------------

/- An area of a number of slots that holds no more items. -/
structure Fits
    (a : Area α)
    (slots : Nat) : Prop where
  capacity : a.capacity = slots
  size : a.size ≤ slots

/- An area without items fits its own slots. -/
theorem fits_ofCapacity
    (slots : Nat) :
    (ofCapacity slots : Area α).Fits slots where
  capacity := rfl
  size := Nat.zero_le slots

section

variable {a : Area α}
variable {slots : Nat}
variable {xs : List α}

/- Where items fit, a list that is no longer fits too. -/
theorem Fits.of_length_le
    (hFits : a.Fits slots)
    (hLength : xs.length ≤ a.size) :
    Fits { a with items := xs } slots where
  capacity := hFits.capacity
  size := Nat.le_trans hLength hFits.size

/- More items fit into the slots that are left. -/
theorem Fits.append_of_room
    (hFits : a.Fits slots)
    (hRoom : xs.length ≤ a.freeSlots) :
    Fits { a with items := a.items ++ xs } slots where
  capacity := hFits.capacity
  size := by
    have hCapacity := hFits.capacity
    have hSize := hFits.size
    unfold freeSlots at hRoom
    unfold Area.size at hRoom hSize ⊢
    rw [List.length_append]
    omega

end

/- The other items are no more than all items. -/
theorem length_others_le
    (is : List Nat)
    (xs : List α) :
    (others is xs).length ≤ xs.length := by
  have hFilter :=
    List.length_filter_le
      (fun p : α × Nat => !is.contains p.2) xs.zipIdx
  unfold others
  rwa [List.length_map, ← List.length_zipIdx (l := xs)]

end Area

end JokerRun
