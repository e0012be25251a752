import JokerRun.Dictionary
import Mathlib.Data.List.Dedup
import Mathlib.Data.List.Induction
import Mathlib.Data.List.Nodup
import Mathlib.Data.String.Basic

/-
  What is found in a dictionary.

  A dictionary holds one entry for each of its keys and is
  known by what it gives for them.  Under each key the
  dictionary of a list gives the last value that the list
  has for it, so entries of different keys may be listed in
  any order.

  Key theorems include:
    * `Dictionary.nodup_keys`
    * `Dictionary.get?_eq_some_iff`
    * `Dictionary.ext_get?`
    * `Dictionary.map_get?_keys`
    * `Dictionary.get?_ofList`
    * `Dictionary.size_ofList`
    * `Dictionary.ofList_swap`
    * `Dictionary.entries_ofList`
-/

------------------------------------------------------------
-- Entries
------------------------------------------------------------

namespace JokerRun

namespace Dictionary

variable {α : Type}

/- What is looked up stands in the list. -/
theorem mem_of_lookup
    {es : List (String × α)}
    {k : String}
    {v : α}
    (hFound : es.lookup k = some v) :
    (k, v) ∈ es := by
  rcases List.lookup_eq_some_iff.mp hFound with
    ⟨before, after, rfl, -⟩
  exact List.mem_append_right before List.mem_cons_self

/- No key has two entries. -/
theorem nodup_keys
    (d : Dictionary α) :
    d.keys.Nodup := by
  refine (List.pairwise_map.mpr d.hAscending).imp ?_
  intro j k hLt
  exact String.ne_of_lt hLt

/- With each key once, what is looked up is what stands there. -/
theorem lookup_eq_some_iff_mem
    {es : List (String × α)}
    {k : String}
    {v : α}
    (hOnce : (es.map Prod.fst).Nodup) :
    es.lookup k = some v ↔ (k, v) ∈ es := by
  refine ⟨mem_of_lookup, fun hMem => ?_⟩
  cases hFound : es.lookup k with
  | none =>
      have hAbsent :=
        List.lookup_eq_none_iff.mp hFound (k, v) hMem
      exact absurd rfl (bne_iff_ne.mp hAbsent)
  | some w =>
      have hSame :=
        List.inj_on_of_nodup_map hOnce
          (mem_of_lookup hFound) hMem rfl
      exact congrArg (fun e => some e.2) hSame

/- The order does not matter if each key stands once. -/
theorem lookup_eq_of_perm
    {es fs : List (String × α)}
    (hOnce : (es.map Prod.fst).Nodup)
    (hPerm : es.Perm fs)
    (k : String) :
    es.lookup k = fs.lookup k := by
  have hOnce' : (fs.map Prod.fst).Nodup :=
    (hPerm.map Prod.fst).nodup_iff.mp hOnce
  refine Option.ext fun v => ?_
  rw [lookup_eq_some_iff_mem hOnce,
    lookup_eq_some_iff_mem hOnce', hPerm.mem_iff]

/- The value under a key is the one of its entry. -/
theorem get?_eq_some_iff
    {d : Dictionary α}
    {k : String}
    {v : α} :
    d.get? k = some v ↔ (k, v) ∈ d.entries :=
  lookup_eq_some_iff_mem d.nodup_keys

/- The keys give the values, in their order. -/
theorem map_get?_keys
    (d : Dictionary α) :
    d.keys.map d.get? = d.values.map some := by
  rw [keys, values, List.map_map, List.map_map]
  refine List.map_congr_left ?_
  rintro ⟨k, v⟩ hEntry
  exact get?_eq_some_iff.mpr hEntry

/- The keys are the texts under which there is a value. -/
theorem mem_keys_iff
    {d : Dictionary α}
    {k : String} :
    k ∈ d.keys ↔ ∃ v, d.get? k = some v := by
  simp only [get?_eq_some_iff, keys, List.mem_map,
    Prod.exists, exists_and_right, exists_eq_right]

/- A dictionary is known by what it gives for each key. -/
theorem ext_get?
    {d e : Dictionary α}
    (hSame : ∀ k, d.get? k = e.get? k) :
    d = e := by
  have hEntries : d.entries = e.entries := by
    refine List.Perm.eq_of_pairwise ?_ d.hAscending
      e.hAscending ?_
    · intro a b _ _ hLess hMore
      exact absurd hMore (lt_asymm hLess)
    · refine (List.perm_ext_iff_of_nodup
        (List.Nodup.of_map _ d.nodup_keys)
        (List.Nodup.of_map _ e.nodup_keys)).mpr ?_
      rintro ⟨k, v⟩
      rw [← get?_eq_some_iff, ← get?_eq_some_iff, hSame]
  cases d
  cases e
  cases hEntries
  rfl

------------------------------------------------------------
-- Dictionaries Of Lists
------------------------------------------------------------

/- A dictionary of a list has no entries of its own. -/
theorem mem_of_mem_ofList
    {es : List (String × α)}
    {e : String × α}
    (hMem : e ∈ (ofList es).entries) :
    e ∈ es := by
  revert e
  unfold ofList
  refine List.foldlRecOn
    (motive := fun d : Dictionary α =>
      ∀ {e}, e ∈ d.entries → e ∈ es)
    es _ (fun hNone => absurd hNone List.not_mem_nil) ?_
  intro d hBefore e he a hMem
  rcases mem_place hMem with rfl | hOld
  · exact he
  · exact hBefore hOld

theorem lookup_cons_eq
    (e : String × α)
    (es : List (String × α))
    (k : String) :
    (e :: es).lookup k =
      if k = e.1 then some e.2 else es.lookup k := by
  rw [List.lookup_cons]
  by_cases hKey : k = e.1
  · rw [beq_iff_eq.mpr hKey, if_pos hKey]
  · rw [beq_eq_false_iff_ne.mpr hKey, if_neg hKey]

theorem lookup_place
    (es : List (String × α))
    (j k : String)
    (v : α) :
    (place k v es).lookup j =
      if j = k then some v else es.lookup j := by
  induction es with
  | nil => rw [place, lookup_cons_eq]
  | cons e es ih =>
      unfold place
      split
      · rw [lookup_cons_eq]
      · split
        · rename_i hKey
          rw [lookup_cons_eq, lookup_cons_eq, ← hKey]
          split_ifs <;> rfl
        · rename_i hOther
          rw [lookup_cons_eq, lookup_cons_eq, ih]
          by_cases hHead : j = e.1
          · -- The head keeps its place before the new entry.
            have hNot : ¬ j = k := fun hKey =>
              hOther (hKey.symm.trans hHead)
            rw [if_pos hHead, if_neg hNot, if_pos hHead]
          · rw [if_neg hHead, if_neg hHead]

/- An entry that is put in changes what its key gives. -/
theorem get?_insert
    (d : Dictionary α)
    (j k : String)
    (v : α) :
    (d.insert k v).get? j =
      if j = k then some v else d.get? j :=
  lookup_place d.entries j k v

/- Under each key stands the last value that is listed. -/
theorem get?_ofList
    (es : List (String × α))
    (k : String) :
    (ofList es).get? k = es.reverse.lookup k := by
  induction es using List.reverseRecOn with
  | nil => rfl
  | append_singleton es e ih =>
      have hLast :
          ofList (es ++ [e]) = (ofList es).insert e.1 e.2 := by
        simp only [ofList, List.foldl_append,
          List.foldl_cons, List.foldl_nil]
      rw [hLast, get?_insert, ih, List.reverse_append,
        List.reverse_singleton, List.singleton_append,
        lookup_cons_eq]

/- A dictionary of a list has the keys of the list. -/
theorem mem_keys_ofList_iff
    {es : List (String × α)}
    {k : String} :
    k ∈ (ofList es).keys ↔ k ∈ es.map Prod.fst := by
  have hAbsent :
      es.reverse.lookup k = none ↔ k ∉ es.map Prod.fst := by
    rw [List.lookup_eq_none_iff, List.mem_map]
    constructor
    · rintro hOthers ⟨e, hMem, rfl⟩
      exact bne_iff_ne.mp
        (hOthers e (List.mem_reverse.mpr hMem)) rfl
    · intro hNone e hMem
      refine bne_iff_ne.mpr fun hKey => hNone ?_
      exact ⟨e, List.mem_reverse.mp hMem, hKey.symm⟩
  rw [mem_keys_iff, get?_ofList, ← Option.ne_none_iff_exists',
    ne_eq, hAbsent, not_not]

/- It has as many entries as the list has different keys. -/
theorem size_ofList
    (es : List (String × α)) :
    (ofList es).size = (es.map Prod.fst).dedup.length := by
  have hPerm :
      (ofList es).keys.Perm (es.map Prod.fst).dedup := by
    refine (List.perm_ext_iff_of_nodup (nodup_keys _)
      (List.nodup_dedup _)).mpr fun k => ?_
    rw [mem_keys_ofList_iff, List.mem_dedup]
  rw [← hPerm.length_eq, keys, List.length_map, size]

/- A swap of different keys is not seen by a lookup. -/
theorem lookup_swap
    (before after : List (String × α))
    {a b : String × α}
    (hKeys : a.1 ≠ b.1)
    (k : String) :
    (before ++ a :: b :: after).lookup k =
      (before ++ b :: a :: after).lookup k := by
  rw [List.lookup_append, List.lookup_append,
    lookup_cons_eq, lookup_cons_eq, lookup_cons_eq,
    lookup_cons_eq]
  by_cases hFirst : k = a.1
  · have hSecond : ¬ k = b.1 := fun h =>
      hKeys (hFirst.symm.trans h)
    rw [if_pos hFirst, if_neg hSecond, if_pos hFirst]
  · rw [if_neg hFirst, if_neg hFirst]

/- Entries of different keys may change places. -/
theorem ofList_swap
    (before after : List (String × α))
    {a b : String × α}
    (hKeys : a.1 ≠ b.1) :
    ofList (before ++ a :: b :: after) =
      ofList (before ++ b :: a :: after) := by
  refine ext_get? fun k => ?_
  rw [get?_ofList, get?_ofList]
  simp only [List.reverse_append, List.reverse_cons,
    List.append_assoc, List.cons_append, List.nil_append]
  exact lookup_swap _ _ hKeys.symm k

/- Ascending entries can be looked up from either end. -/
theorem lookup_reverse_of_ascending
    {es : List (String × α)}
    (hAscending : Ascending es)
    (k : String) :
    es.reverse.lookup k = es.lookup k := by
  induction es with
  | nil => rfl
  | cons e es ih =>
      rcases List.pairwise_cons.mp hAscending with
        ⟨hHead, hTail⟩
      rw [List.reverse_cons, List.lookup_append, ih hTail,
        lookup_cons_eq, lookup_cons_eq, List.lookup_nil]
      by_cases hKey : k = e.1
      · -- The key of the head has no later entry.
        have hAbsent : es.lookup k = none := by
          refine List.lookup_eq_none_iff.mpr ?_
          intro a hMem
          rw [hKey]
          exact bne_iff_ne.mpr (String.ne_of_lt (hHead a hMem))
        rw [hAbsent, Option.none_or, if_pos hKey]
      · rw [if_neg hKey, if_neg hKey, Option.or_none]

/- Ascending entries are those of their dictionary. -/
theorem entries_ofList
    {es : List (String × α)}
    (hAscending : Ascending es) :
    (ofList es).entries = es := by
  have hSame : ofList es = ⟨es, hAscending⟩ := by
    refine ext_get? fun k => ?_
    rw [get?_ofList]
    exact lookup_reverse_of_ascending hAscending k
  rw [hSame]

end Dictionary

end JokerRun
