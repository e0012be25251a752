import JokerRun.Ability.Catalog
import JokerRun.Proofs.Dictionary
import JokerRun.Proofs.Text.ByteOrder

/-
  Looking up a joker by its identifier.

  A catalog files each joker under the joker's own
  identifier, so that looking up the identifier of a joker
  that the catalog lists gives back that joker.  A list that
  ascends by its identifiers is the list of its catalog.

  Of the jokers with one identifier the catalog of a list
  keeps the last.  Its listings and its picks by position
  all go by the order of the identifiers, so they are known
  as soon as the last joker of each identifier is.

  Key definitions include:
    * `Catalog.Filed`
    * `Catalog.lastWith`
    * `Catalog.KeepsLast`

  Key theorems include:
    * `Catalog.filed_ofList`
    * `Catalog.Filed.get?_id`
    * `Catalog.Filed.id_of_get?`
    * `Catalog.toList_ofList`
    * `Catalog.pick_of_some`
    * `Catalog.get?_eq_lastWith`
    * `Catalog.catalog_keeps_last`
-/

------------------------------------------------------------
-- Entries Of A Catalog
------------------------------------------------------------

namespace JokerRun

namespace Catalog

/- Each joker is filed under its own identifier. -/
def Filed
    (c : Catalog) : Prop :=
  ∀ e ∈ c.abilities.entries, e.1 = e.2.id

/- The catalog of a list files its jokers so. -/
theorem filed_ofList
    (as : List Ability) :
    (ofList as).Filed := by
  intro e he
  rcases List.mem_map.mp (Dictionary.mem_of_mem_ofList he)
    with ⟨a, -, rfl⟩
  rfl

/- What is found under an identifier bears it. -/
theorem Filed.id_of_get?
    {c : Catalog}
    (hFiled : c.Filed)
    {id : String}
    {a : Ability}
    (hFound : c.get? id = some a) :
    a.id = id :=
  (hFiled (id, a)
    (Dictionary.get?_eq_some_iff.mp hFound)).symm

/- A joker of the catalog is found under its identifier. -/
theorem Filed.get?_id
    {c : Catalog}
    (hFiled : c.Filed)
    {a : Ability}
    (hMem : a ∈ c.toList) :
    c.get? a.id = some a := by
  rcases List.mem_map.mp hMem with ⟨e, he, rfl⟩
  have hKey := hFiled e he
  apply Dictionary.get?_eq_some_iff.mpr
  rw [← hKey]
  exact he

/- Jokers by ascending identifier are listed as they are. -/
theorem toList_ofList
    {as : List Ability}
    (hAscending : as.Pairwise fun a b => a.id < b.id) :
    (ofList as).toList = as := by
  have hEntries :
      (ofList as).abilities.entries =
        as.map fun a => (a.id, a) :=
    Dictionary.entries_ofList (List.pairwise_map.mpr hAscending)
  rw [toList, Dictionary.values, hEntries, List.map_map]
  exact List.map_id as

/- Each joker is listed once, in the order of the ids. -/
theorem ids_eq_map_toList
    (as : List Ability) :
    (ofList as).ids = (ofList as).toList.map Ability.id := by
  rw [ids, Dictionary.keys, toList, Dictionary.values,
    List.map_map]
  exact List.map_congr_left (filed_ofList as)

/- The identifiers ascend by their UTF-8 bytes. -/
theorem ascending_ids
    (c : Catalog) :
    c.ids.Pairwise fun i j => Text.bytes i < Text.bytes j := by
  refine (List.pairwise_map.mpr c.abilities.hAscending).imp ?_
  intro i j hLess
  exact Text.bytes_lt_bytes_iff.mpr hLess

/- The jokers are those that the identifiers give in order. -/
theorem map_get?_ids
    (c : Catalog) :
    c.ids.map c.get? = c.toList.map some :=
  c.abilities.map_get?_keys

theorem length_toList
    (c : Catalog) :
    c.toList.length = c.size :=
  List.length_map Prod.snd

theorem size_pos_iff
    (c : Catalog) :
    0 < c.size ↔ c.isEmpty = false := by
  rw [size, Dictionary.size, isEmpty, Dictionary.isEmpty,
    List.isEmpty_eq_false_iff, List.length_pos_iff]

end Catalog

------------------------------------------------------------
-- Numbers In A Row
------------------------------------------------------------

namespace Generator

@[simp] theorem skip_zero
    (g : Generator) :
    g.skip 0 = g := rfl

@[simp] theorem skip_skip
    (g : Generator)
    (m n : Nat) :
    (g.skip m).skip n = g.skip (m + n) := by
  simp only [skip, Nat.mul_add, Nat.add_assoc]

/- Each number leads to the next one. -/
theorem next_skip
    (g : Generator)
    (n : Nat) :
    (g.skip n).next.2 = g.skip (n + 1) :=
  g.skip_skip n 1

end Generator

------------------------------------------------------------
-- Picking
------------------------------------------------------------

namespace Catalog

/- The position that the next number stands for. -/
def choice
    (c : Catalog)
    (g : Generator) : Nat :=
  g.next.1.toNat % c.size

/- With nothing to pick, no number is used. -/
theorem pick_of_none
    {c : Catalog}
    (hNone : c.isEmpty = true)
    (g : Generator) :
    c.pick g = (none, g) := by
  have hSize : c.size = 0 :=
    List.length_eq_zero_iff.mpr (List.isEmpty_iff.mp hNone)
  simp only [pick, Generator.below, hSize, if_true]

/- One number picks a joker by its position. -/
theorem pick_of_some
    {c : Catalog}
    (hSome : c.isEmpty = false)
    (g : Generator) :
    ∃ a, c.toList[c.choice g]? = some a ∧
      c.pick g = (some a, g.skip 1) := by
  have hSize : 0 < c.size := c.size_pos_iff.mpr hSome
  have hChoice : c.choice g < c.toList.length := by
    rw [length_toList]
    exact Nat.mod_lt _ hSize
  have hItem := List.getElem?_eq_getElem hChoice
  refine ⟨_, hItem, ?_⟩
  rw [← hItem]
  simp only [pick, Generator.below, hSize.ne', if_false]
  rfl

/- Only an empty catalog picks nothing. -/
theorem pick_eq_none_iff
    (c : Catalog)
    (g : Generator) :
    (c.pick g).1 = none ↔ c.isEmpty = true := by
  cases hEmpty : c.isEmpty with
  | true => simp only [pick_of_none hEmpty]
  | false =>
      rcases pick_of_some hEmpty g with ⟨a, -, hPick⟩
      simp only [hPick, reduceCtorEq, Bool.false_eq_true]

------------------------------------------------------------
-- The Last Of Each Identifier
------------------------------------------------------------

/- The last joker of a list that has an identifier. -/
def lastWith
    (as : List Ability)
    (id : String) : Option Ability :=
  (as.filter fun a => a.id == id).getLast?

/- The catalog of a list gives the last joker. -/
theorem get?_eq_lastWith
    (as : List Ability)
    (id : String) :
    (ofList as).get? id = lastWith as id := by
  rw [get?, ofList, Dictionary.get?_ofList]
  induction as using List.reverseRecOn with
  | nil => rfl
  | append_singleton as a ih =>
      rw [List.map_append, List.reverse_append,
        List.map_singleton, List.reverse_singleton,
        List.singleton_append, Dictionary.lookup_cons_eq, ih,
        lastWith, lastWith, List.filter_append]
      by_cases hId : id = a.id
      · simp [hId]
      · have hOther : ¬ a.id = id := fun h => hId h.symm
        simp [hId, hOther]

/- Its identifiers are those of the list. -/
theorem mem_ids_ofList_iff
    {as : List Ability}
    {id : String} :
    id ∈ (ofList as).ids ↔ ∃ a ∈ as, a.id = id := by
  rw [ids, ofList, Dictionary.mem_keys_ofList_iff,
    List.map_map, List.mem_map]
  rfl

/- It has as many jokers as the list has identifiers. -/
theorem size_ofList
    (as : List Ability) :
    (ofList as).size = (as.map Ability.id).dedup.length := by
  rw [size, ofList, Dictionary.size_ofList, List.map_map]
  rfl

theorem isEmpty_ofList_iff
    {as : List Ability} :
    (ofList as).isEmpty = true ↔ as = [] := by
  constructor
  · intro hEmpty
    rw [isEmpty, Dictionary.isEmpty, List.isEmpty_iff] at hEmpty
    refine List.eq_nil_iff_forall_not_mem.mpr fun a hMem => ?_
    have hId := mem_ids_ofList_iff.mpr ⟨a, hMem, rfl⟩
    rw [ids, Dictionary.keys, hEmpty] at hId
    exact absurd hId List.not_mem_nil
  · rintro rfl
    rfl

/- The last jokers decide about the catalog. -/
theorem ofList_eq_of_lastWith_eq
    {as bs : List Ability}
    (hSame : ∀ id, lastWith as id = lastWith bs id) :
    ofList as = ofList bs := by
  have hAbilities :
      (ofList as).abilities = (ofList bs).abilities := by
    refine Dictionary.ext_get? fun id => ?_
    have hLast := hSame id
    rw [← get?_eq_lastWith, ← get?_eq_lastWith] at hLast
    exact hLast
  exact congrArg Catalog.mk hAbilities

/-
  What is asked of the catalog of a list.  Its identifiers
  ascend by their bytes and are those of the list.  Under
  each of them stands the last joker that has it.  Listings
  and picks go by the order of the identifiers.
-/
structure KeepsLast
    (as : List Ability) : Prop where
  ascending :
    (ofList as).ids.Pairwise fun i j =>
      Text.bytes i < Text.bytes j
  listed :
    ∀ id, id ∈ (ofList as).ids ↔ ∃ a ∈ as, a.id = id
  last :
    ∀ id, (ofList as).get? id = lastWith as id
  bears :
    ∀ id a, (ofList as).get? id = some a → a.id = id
  counted :
    (ofList as).size = (as.map Ability.id).dedup.length
  aligned :
    (ofList as).ids = (ofList as).toList.map Ability.id
  found :
    (ofList as).ids.map (ofList as).get? =
      (ofList as).toList.map some
  picked :
    as ≠ [] → ∀ g, ∃ a,
      (ofList as).toList[
          g.next.1.toNat % (ofList as).size]? = some a ∧
        (ofList as).pick g = (some a, g.next.2)
  nothing :
    ∀ g, ((ofList as).pick g).1 = none ↔
      (ofList as).isEmpty = true
  empty :
    (ofList as).isEmpty = true ↔ as = []

theorem keepsLast_ofList
    (as : List Ability) :
    KeepsLast as where
  ascending := ascending_ids _
  listed _ := mem_ids_ofList_iff
  last := get?_eq_lastWith as
  bears _ _ hFound := (filed_ofList as).id_of_get? hFound
  counted := size_ofList as
  aligned := ids_eq_map_toList as
  found := map_get?_ids _
  picked := by
    intro hSome g
    have hNotEmpty : (ofList as).isEmpty = false :=
      Bool.eq_false_iff.mpr fun hEmpty =>
        hSome (isEmpty_ofList_iff.mp hEmpty)
    exact pick_of_some hNotEmpty g
  nothing := pick_eq_none_iff _
  empty := isEmpty_ofList_iff

/- Two catalogs that cannot be told apart. -/
structure AnswersAlike
    (c d : Catalog) : Prop where
  get : ∀ id, c.get? id = d.get? id
  ids : c.ids = d.ids
  listing : c.toList = d.toList
  size : c.size = d.size
  pick : ∀ g, c.pick g = d.pick g

/-
  The catalog of a list keeps the last joker of each
  identifier, and nothing else of the list can be seen.
-/
theorem catalog_keeps_last
    (as : List Ability) :
    KeepsLast as ∧
      ∀ bs, (∀ id, lastWith as id = lastWith bs id) →
        AnswersAlike (ofList as) (ofList bs) := by
  refine ⟨keepsLast_ofList as, fun bs hSame => ?_⟩
  rw [ofList_eq_of_lastWith_eq hSame]
  exact ⟨fun _ => rfl, rfl, rfl, rfl, fun _ => rfl⟩

/- A joker with an identifier, a price and no effect. -/
def plainJoker
    (id : String)
    (cost : Int) : Ability where
  id := id
  name := id
  description := ""
  cost := cost
  atlasIndex := 0
  effect := none

/- A list that names one identifier twice. -/
def repriced : List Ability :=
  [plainJoker "j_b" 3, plainJoker "j_a" 2, plainJoker "j_b" 5]

/- The same jokers, each of them once. -/
def settled : List Ability :=
  [plainJoker "j_b" 5, plainJoker "j_a" 2]

/- Which of two prices is asked is decided by the last. -/
theorem catalog_keeps_last_repriced :
    (∀ id, lastWith repriced id = lastWith settled id) ∧
      AnswersAlike (ofList repriced) (ofList settled) ∧
      (ofList repriced).get? "j_b" =
        some (plainJoker "j_b" 5) ∧
      (ofList repriced).toList =
        [plainJoker "j_a" 2, plainJoker "j_b" 5] ∧
      ∀ g, ∃ a, (ofList repriced).pick g =
        (some a, g.next.2) := by
  have hSame :
      ∀ id, lastWith repriced id = lastWith settled id := by
    intro id
    by_cases hA : "j_a" = id
    · subst hA
      decide
    · by_cases hB : "j_b" = id
      · subst hB
        decide
      · simp [lastWith, repriced, settled, plainJoker, hA, hB]
  rcases catalog_keeps_last repriced with ⟨hKeeps, hAlike⟩
  refine ⟨hSame, hAlike settled hSame, ?_, ?_, ?_⟩
  · rw [hKeeps.last]
    decide
  · decide
  · intro g
    rcases hKeeps.picked (List.cons_ne_nil _ _) g with
      ⟨a, -, hPick⟩
    exact ⟨a, hPick⟩

end Catalog

end JokerRun
