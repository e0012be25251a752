import JokerRun.Proofs.Area
import Mathlib.Data.List.Induction

/-
  An area is a list that never outgrows its slots.

  `Area.Acts` says what each operation does to a list of at
  most so many items, without mentioning areas.  Whatever
  operations are done to an area in a row, the next one acts
  so, and no item comes or goes unnoticed.

  Key definitions include:
    * `Area.Operation`
    * `Area.operate`
    * `Area.Acts`
    * `Area.takeEach`
    * `Area.ActsAsList`
    * `Area.TakesMany`

  Key theorems include:
    * `Area.actsOn_operate`
    * `Area.Acts.conserves`
    * `Area.takeEach_reverse`
    * `Area.conserved_operateAll`
    * `Area.acts_as_bounded_list`
-/

------------------------------------------------------------
-- Operations
------------------------------------------------------------

namespace JokerRun

namespace Area

/- What is done to an area. -/
inductive Operation (α : Type) where
  | push (x : α)
  | take (index : Nat)
  | takeMany (indices : List Nat)
  | replace (index : Nat) (x : α)
  | clear

/- What an area answers to an operation that it accepts. -/
inductive Answer (α : Type) where
  | slot (index : Nat)
  | item (x : α)
  | items (xs : List α)
  | done

variable {α β : Type}

/- The area after an accepted operation, or the old one. -/
def settle
    (a : Area α)
    (answer : β → Answer α) :
    Except AreaError (β × Area α) →
      Except AreaError (Answer α) × Area α
  | .error e => (.error e, a)
  | .ok (x, b) => (.ok (answer x), b)

/- The answer to an operation, and the area after it. -/
def operate
    (a : Area α) :
    Operation α → Except AreaError (Answer α) × Area α
  | .push x => a.settle .slot (a.push x)
  | .take i => a.settle .item (a.take i)
  | .takeMany is => a.settle .items (a.takeMany is)
  | .replace i x => a.settle .item (a.replace i x)
  | .clear => (.ok .done, a.clear)

/- The area after operations in a row, accepted or not. -/
def operateAll
    (a : Area α) : List (Operation α) → Area α
  | [] => a
  | op :: ops => (a.operate op).2.operateAll ops

/-
  What an operation does to a list with a number of slots:
  the answer to it, and the list after it.
-/
inductive Acts
    (slots : Nat)
    (xs : List α) :
    Operation α → Except AreaError (Answer α) → List α →
      Prop where
  | pushed
      {x : α}
      (hRoom : xs.length < slots) :
      Acts slots xs (.push x) (.ok (.slot xs.length))
        (xs ++ [x])
  | full
      {x : α}
      (hFull : slots ≤ xs.length) :
      Acts slots xs (.push x) (.error (.full slots)) xs
  | taken
      {i : Nat}
      {x : α}
      (hItem : xs[i]? = some x) :
      Acts slots xs (.take i) (.ok (.item x))
        (xs.eraseIdx i)
  | nothingTaken
      {i : Nat}
      (hOutside : xs.length ≤ i) :
      Acts slots xs (.take i) (.error (.invalidIndex i)) xs
  | manyTaken
      {is : List Nat}
      (hDistinct : is.Nodup)
      (hInside : ∀ i ∈ is, i < xs.length) :
      Acts slots xs (.takeMany is)
        (.ok (.items (chosen is xs))) (others is xs)
  | repeated
      {is : List Nat}
      {i : Nat}
      (hLeast : IsLeast {j | 2 ≤ is.count j} i) :
      Acts slots xs (.takeMany is)
        (.error (.duplicateIndex i)) xs
  | outside
      {is : List Nat}
      {i : Nat}
      (hDistinct : is.Nodup)
      (hLeast : IsLeast {j | j ∈ is ∧ xs.length ≤ j} i) :
      Acts slots xs (.takeMany is)
        (.error (.invalidIndex i)) xs
  | replaced
      {i : Nat}
      {x old : α}
      (hItem : xs[i]? = some old) :
      Acts slots xs (.replace i x) (.ok (.item old))
        (xs.set i x)
  | nothingReplaced
      {i : Nat}
      {x : α}
      (hOutside : xs.length ≤ i) :
      Acts slots xs (.replace i x)
        (.error (.invalidIndex i)) xs
  | cleared :
      Acts slots xs .clear (.ok .done) []

------------------------------------------------------------
-- Each Operation Acts On The List
------------------------------------------------------------

/- An operation acts on the items as on a list. -/
def ActsOn
    (a : Area α)
    (op : Operation α) : Prop :=
  ∃ answer xs, Acts a.capacity a.items op answer xs ∧
    a.operate op = (answer, { a with items := xs })

theorem actsOn_push
    (a : Area α)
    (x : α) :
    a.ActsOn (.push x) := by
  by_cases hRoom : a.size < a.capacity
  · refine ⟨_, _, Acts.pushed hRoom, ?_⟩
    simp only [operate, push_of_room hRoom]
    rfl
  · have hFull : a.capacity ≤ a.size := Nat.not_lt.mp hRoom
    have hIsFull := (isFull_iff a).mpr hFull
    refine ⟨_, _, Acts.full hFull, ?_⟩
    simp only [operate, push, hIsFull, if_true]
    rfl

theorem actsOn_take
    (a : Area α)
    (i : Nat) :
    a.ActsOn (.take i) := by
  cases hItem : a.items[i]? with
  | none =>
      have hOutside := List.getElem?_eq_none_iff.mp hItem
      refine ⟨_, _, Acts.nothingTaken hOutside, ?_⟩
      simp only [operate, take, hItem]
      rfl
  | some x =>
      refine ⟨_, _, Acts.taken hItem, ?_⟩
      simp only [operate, take, hItem]
      rfl

theorem actsOn_takeMany
    (a : Area α)
    (is : List Nat) :
    a.ActsOn (.takeMany is) := by
  rcases a.takeMany_cases is with
    ⟨i, hLeast, hRefused⟩ |
      ⟨hDistinct, i, hLeast, hRefused⟩ |
      ⟨hDistinct, hInside, hTaken⟩
  · refine ⟨_, _, Acts.repeated hLeast, ?_⟩
    simp only [operate, hRefused]
    rfl
  · refine ⟨_, _, Acts.outside hDistinct hLeast, ?_⟩
    simp only [operate, hRefused]
    rfl
  · refine ⟨_, _, Acts.manyTaken hDistinct hInside, ?_⟩
    simp only [operate, hTaken]
    rfl

theorem actsOn_replace
    (a : Area α)
    (i : Nat)
    (x : α) :
    a.ActsOn (.replace i x) := by
  cases hItem : a.items[i]? with
  | none =>
      have hOutside := List.getElem?_eq_none_iff.mp hItem
      refine ⟨_, _, Acts.nothingReplaced hOutside, ?_⟩
      simp only [operate, replace, hItem]
      rfl
  | some old =>
      refine ⟨_, _, Acts.replaced hItem, ?_⟩
      simp only [operate, replace, hItem]
      rfl

/- Every operation acts on the items as on a list. -/
theorem actsOn_operate
    (a : Area α)
    (op : Operation α) :
    a.ActsOn op := by
  cases op with
  | push x => exact actsOn_push a x
  | take i => exact actsOn_take a i
  | takeMany is => exact actsOn_takeMany a is
  | replace i x => exact actsOn_replace a i x
  | clear => exact ⟨_, _, Acts.cleared, rfl⟩

section

variable {slots : Nat}
variable {xs ys : List α}
variable {op : Operation α}
variable {answer : Except AreaError (Answer α)}

/- A refused operation leaves the list alone. -/
theorem Acts.unchanged
    {e : AreaError}
    (hActs : Acts slots xs op (.error e) ys) :
    ys = xs := by
  cases hActs with
  | full | nothingTaken | repeated | outside
  | nothingReplaced => rfl

/- No operation lets a list outgrow its slots. -/
theorem Acts.length_le
    (hActs : Acts slots xs op answer ys)
    (hFits : xs.length ≤ slots) :
    ys.length ≤ slots := by
  cases hActs with
  | pushed hRoom =>
      rw [List.length_append, List.length_singleton]
      exact hRoom
  | taken =>
      exact Nat.le_trans (List.length_eraseIdx_le xs _)
        hFits
  | manyTaken =>
      exact Nat.le_trans (length_others_le _ xs) hFits
  | replaced =>
      rw [List.length_set]
      exact hFits
  | cleared => exact Nat.zero_le slots
  | full | nothingTaken | repeated | outside
  | nothingReplaced => exact hFits

end

/- Operations in a row keep the items within the slots. -/
theorem fits_operateAll
    {a : Area α}
    {slots : Nat}
    (hFits : a.Fits slots)
    (ops : List (Operation α)) :
    (a.operateAll ops).Fits slots := by
  induction ops generalizing a with
  | nil => exact hFits
  | cons op ops ih =>
      rcases actsOn_operate a op with
        ⟨answer, xs, hActs, hOperate⟩
      rw [operateAll, hOperate]
      apply ih
      rw [hFits.capacity] at hActs
      exact {
        capacity := hFits.capacity
        size := hActs.length_le hFits.size }

------------------------------------------------------------
-- Taking Items One By One
------------------------------------------------------------

/- Items taken one after the other, each from what is left. -/
def takeEach
    (a : Area α) :
    List Nat → Except AreaError (List α × Area α)
  | [] => .ok ([], a)
  | i :: is =>
      match a.take i with
      | .error e => .error e
      | .ok (x, b) =>
          match takeEach b is with
          | .error e => .error e
          | .ok (xs, c) => .ok (x :: xs, c)

/- Items behind every listed position are all others. -/
theorem map_fst_filter_of_below
    {is : List Nat}
    {n : Nat}
    (hBelow : ∀ i ∈ is, i < n)
    (xs : List α) :
    ((xs.zipIdx n).filter fun p =>
      !is.contains p.2).map Prod.fst = xs := by
  have hKept :
      ((xs.zipIdx n).filter fun p => !is.contains p.2) =
        xs.zipIdx n := by
    rw [List.filter_eq_self]
    intro p hp
    have hBehind := List.le_snd_of_mem_zipIdx hp
    have hNotListed : p.2 ∉ is := by
      intro hListed
      have hBefore := hBelow p.2 hListed
      omega
    simpa using hNotListed
  rw [hKept, List.zipIdx_map_fst]

/- The others of two parts in a row. -/
theorem others_append
    (is : List Nat)
    (xs ys : List α) :
    others is (xs ++ ys) =
      others is xs ++
        ((ys.zipIdx xs.length).filter fun p =>
          !is.contains p.2).map Prod.fst := by
  unfold others
  rw [List.zipIdx_append, List.filter_append,
    List.map_append, Nat.zero_add]

/-
  With the item of a last position gone, the others of the
  positions before it are the others of all of them.
-/
theorem others_eraseIdx
    {is : List Nat}
    {j : Nat}
    (hBelow : ∀ i ∈ is, i < j)
    {xs : List α}
    (hInside : j < xs.length) :
    others is (xs.eraseIdx j) = others (is ++ [j]) xs := by
  have hLength : (xs.take j).length = j := by
    rw [List.length_take]
    omega
  have hFront :
      others (is ++ [j]) (xs.take j) =
        others is (xs.take j) := by
    unfold others
    congr 1
    apply List.filter_congr
    intro p hp
    have hBefore := List.snd_lt_of_mem_zipIdx hp
    have hOther : p.2 ≠ j := by omega
    simp [hOther]
  have hBack :
      ((xs.drop j).zipIdx j).filter
          (fun p => !(is ++ [j]).contains p.2) =
        ((xs.drop (j + 1)).zipIdx (j + 1)).filter
          (fun p => !(is ++ [j]).contains p.2) := by
    rw [List.drop_eq_getElem_cons hInside,
      List.zipIdx_cons, List.filter_cons_of_neg]
    simp
  have hNext : ∀ i ∈ is ++ [j], i < j + 1 := by
    intro i hi
    rcases List.mem_append.mp hi with hi | hi
    · exact Nat.lt_succ_of_lt (hBelow i hi)
    · rw [List.mem_singleton.mp hi]
      exact Nat.lt_succ_self j
  calc
    others is (xs.eraseIdx j) =
        others is (xs.take j) ++ xs.drop (j + 1) := by
      rw [List.eraseIdx_eq_take_drop_succ, others_append,
        hLength, map_fst_filter_of_below hBelow]
    _ = others (is ++ [j]) (xs.take j ++ xs.drop j) := by
      rw [others_append, hLength, hFront, hBack,
        map_fst_filter_of_below hNext]
    _ = others (is ++ [j]) xs := by
      rw [List.take_append_drop]

/-
  Ascending positions may be emptied from the last one down:
  the positions before it keep their items meanwhile.
-/
theorem takeEach_reverse
    {a : Area α}
    {is : List Nat}
    (hAsc : Positions.Ascending is)
    (hInside : ∀ i ∈ is, i < a.size) :
    a.takeEach is.reverse =
      .ok ((is.filterMap a.get?).reverse,
        { a with items := others is a.items }) := by
  induction is using List.reverseRecOn generalizing a with
  | nil =>
      have hAll : others [] a.items = a.items := by
        simp [others]
      rw [hAll]
      rfl
  | append_singleton is j ih =>
      rcases List.pairwise_append.mp hAsc with
        ⟨hAscFront, -, hBelowLast⟩
      have hBelow : ∀ i ∈ is, i < j := by
        intro i hi
        exact hBelowLast i hi j (List.mem_singleton_self j)
      have hLast : j < a.items.length :=
        hInside j (by simp)
      let b : Area α :=
        { a with items := a.items.eraseIdx j }
      have hFront : ∀ i ∈ is, i < b.size := by
        intro i hi
        have hSmaller := hBelow i hi
        change i < (a.items.eraseIdx j).length
        rw [List.length_eraseIdx_of_lt hLast]
        omega
      have hSame :
          is.filterMap b.get? = is.filterMap a.get? := by
        apply List.filterMap_congr
        intro i hi
        exact List.getElem?_eraseIdx_of_lt (hBelow i hi)
      have hItem : a.get? j = some a.items[j] :=
        List.getElem?_eq_getElem hLast
      have hRest := ih hAscFront hFront
      rw [hSame, others_eraseIdx hBelow hLast] at hRest
      rw [List.reverse_append, List.reverse_singleton,
        List.singleton_append]
      simp only [takeEach, take_of_get? hItem]
      rw [hRest]
      simp [hItem, b]

------------------------------------------------------------
-- Items That Enter And Leave
------------------------------------------------------------

/- The items that an operation answered so puts in. -/
def Operation.entering :
    Operation α → Except AreaError (Answer α) → List α
  | .push x, .ok _ => [x]
  | .replace _ x, .ok _ => [x]
  | _, _ => []

/- The items that an answer hands out. -/
def leaving : Except AreaError (Answer α) → List α
  | .ok (.item x) => [x]
  | .ok (.items xs) => xs
  | _ => []

/- The items of a list that an operation throws away. -/
def Operation.clearing
    (xs : List α) : Operation α → List α
  | .clear => xs
  | _ => []

/- What is noted of each operation in a row, put together. -/
def collect
    (note : Area α → Operation α → List α)
    (a : Area α) : List (Operation α) → List α
  | [] => []
  | op :: ops =>
      note a op ++ collect note (a.operate op).2 ops

/- The items that operations in a row put in. -/
def entered
    (a : Area α)
    (ops : List (Operation α)) : List α :=
  collect (fun a op => op.entering (a.operate op).1) a ops

/- The items that operations in a row hand out. -/
def returned
    (a : Area α)
    (ops : List (Operation α)) : List α :=
  collect (fun a op => leaving (a.operate op).1) a ops

/- The items that operations in a row throw away. -/
def thrownAway
    (a : Area α)
    (ops : List (Operation α)) : List α :=
  collect (fun a op => op.clearing a.items) a ops

/- One operation neither loses nor doubles an item. -/
theorem Acts.conserves
    {slots : Nat}
    {xs ys : List α}
    {op : Operation α}
    {answer : Except AreaError (Answer α)}
    (hActs : Acts slots xs op answer ys) :
    (xs ++ op.entering answer).Perm
      (ys ++ leaving answer ++ op.clearing xs) := by
  cases hActs with
  | pushed =>
      simp [Operation.entering, leaving, Operation.clearing]
  | taken hItem =>
      simp only [Operation.entering, leaving,
        Operation.clearing, List.append_nil]
      exact (perm_of_taken hItem).symm.trans
        (List.perm_append_singleton _ _).symm
  | @manyTaken is =>
      simp only [Operation.entering, leaving,
        Operation.clearing, List.append_nil]
      exact (chosen_append_others_perm is xs).symm.trans
        List.perm_append_comm
  | @replaced i x old hItem =>
      simp only [Operation.entering, leaving,
        Operation.clearing, List.append_nil]
      calc
        (xs ++ [x]).Perm (x :: xs) :=
          List.perm_append_singleton x xs
        _ |>.Perm (old :: xs.set i x) :=
          (perm_of_replaced hItem x).symm
        _ |>.Perm (xs.set i x ++ [old]) :=
          (List.perm_append_singleton _ _).symm
  | cleared =>
      simp [Operation.entering, leaving, Operation.clearing]
  | full | nothingTaken | repeated | outside
  | nothingReplaced =>
      simp [Operation.entering, leaving, Operation.clearing]

/- Nor do operations in a row. -/
theorem conserved_operateAll
    (a : Area α)
    (ops : List (Operation α)) :
    (a.items ++ a.entered ops).Perm
      ((a.operateAll ops).items ++ a.returned ops ++
        a.thrownAway ops) := by
  classical
  induction ops generalizing a with
  | nil =>
      simp [entered, returned, thrownAway, collect,
        operateAll]
  | cons op ops ih =>
      rcases actsOn_operate a op with
        ⟨answer, xs, hActs, hOperate⟩
      have hFirst := hActs.conserves
      have hRest := ih { a with items := xs }
      unfold entered returned thrownAway at hRest ⊢
      simp only [collect, operateAll, hOperate]
      rw [List.perm_iff_count] at hFirst hRest ⊢
      intro x
      have hFirstCount := hFirst x
      have hRestCount := hRest x
      simp only [List.count_append] at *
      omega

------------------------------------------------------------
-- Bounded Lists
------------------------------------------------------------

/- The area that operations make of one without items. -/
def ofOperations
    (slots : Nat)
    (ops : List (Operation α)) : Area α :=
  (ofCapacity slots).operateAll ops

/-
  After any operations on an area without items, the next
  one acts as on a list, and the items are accounted for.
-/
structure ActsAsList
    (slots : Nat)
    (ops : List (Operation α)) : Prop where
  fits : (ofOperations slots ops).Fits slots
  acts :
    ∀ op, Acts slots (ofOperations slots ops).items op
      ((ofOperations slots ops).operate op).1
      ((ofOperations slots ops).operate op).2.items
  unchanged :
    ∀ op e,
      ((ofOperations slots ops).operate op).1 = .error e →
        ((ofOperations slots ops).operate op).2 =
          ofOperations slots ops
  conserved :
    ((ofCapacity slots).entered ops).Perm
      ((ofOperations slots ops).items ++
        (ofCapacity slots).returned ops ++
        (ofCapacity slots).thrownAway ops)

theorem actsAsList_ofOperations
    (slots : Nat)
    (ops : List (Operation α)) :
    ActsAsList slots ops := by
  have hFits :=
    fits_operateAll (fits_ofCapacity (α := α) slots) ops
  have hConserved :=
    conserved_operateAll (ofCapacity slots) ops
  refine ⟨hFits, ?_, ?_, hConserved⟩
  · intro op
    rcases actsOn_operate (ofOperations slots ops) op with
      ⟨answer, xs, hActs, hOperate⟩
    have hSlots :
        (ofOperations slots ops).capacity = slots :=
      hFits.capacity
    rw [hSlots] at hActs
    rw [hOperate]
    exact hActs
  · intro op e hRefused
    rcases actsOn_operate (ofOperations slots ops) op with
      ⟨answer, xs, hActs, hOperate⟩
    rw [hOperate] at hRefused ⊢
    have hError : answer = .error e := hRefused
    rw [hError] at hActs
    rw [hActs.unchanged]

/- When and how the items of listed slots are taken. -/
structure TakesMany
    (a : Area α)
    (is : List Nat) : Prop where
  succeeds :
    (∃ taken b, a.takeMany is = .ok (taken, b)) ↔
      is.Nodup ∧ ∀ i ∈ is, i < a.size
  result :
    ∀ taken b, a.takeMany is = .ok (taken, b) →
      taken = chosen is a.items ∧
        b = { a with items := others is a.items }
  oneByOne :
    ∀ taken b, a.takeMany is = .ok (taken, b) →
      a.takeEach (Positions.sort is).reverse =
        .ok (taken.reverse, b)
  repeated :
    ∀ i, a.takeMany is = .error (.duplicateIndex i) ↔
      IsLeast {j | 2 ≤ is.count j} i
  outside :
    ∀ i, a.takeMany is = .error (.invalidIndex i) ↔
      is.Nodup ∧ IsLeast {j | j ∈ is ∧ a.size ≤ j} i

theorem takesMany
    (a : Area α)
    (is : List Nat) :
    a.TakesMany is where
  succeeds := by
    constructor
    · rintro ⟨taken, b, hTaken⟩
      exact (takeMany_eq_ok_iff.mp hTaken).1
    · intro hFree
      exact ⟨_, _,
        takeMany_eq_ok_iff.mpr ⟨hFree, rfl, rfl⟩⟩
  result := fun _ _ hTaken =>
    (takeMany_eq_ok_iff.mp hTaken).2
  oneByOne := by
    intro taken b hTaken
    rcases takeMany_eq_ok_iff.mp hTaken with
      ⟨⟨hNodup, hInside⟩, rfl, rfl⟩
    have hAsc := Positions.ascending_sort hNodup
    have hSorted : ∀ i ∈ Positions.sort is, i < a.size := by
      intro i hi
      exact hInside i (Positions.mem_sort_iff.mp hi)
    rw [takeEach_reverse hAsc hSorted, others_sort,
      ← chosen_sort, ← filterMap_get_eq_chosen hAsc]
    rfl
  repeated := fun _ => takeMany_eq_duplicateIndex_iff
  outside := fun _ => takeMany_eq_invalidIndex_iff

/-
  An area acts as a list that stays within its slots.  It
  gives up the items of many slots when the slots differ and
  are occupied, and else tells the least one at fault.
-/
theorem acts_as_bounded_list
    (slots : Nat)
    (ops : List (Operation α))
    (a : Area α)
    (is : List Nat) :
    ActsAsList slots ops ∧ a.TakesMany is :=
  ⟨actsAsList_ofOperations slots ops, takesMany a is⟩

end Area

end JokerRun
