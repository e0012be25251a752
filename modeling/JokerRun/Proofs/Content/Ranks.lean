import JokerRun.Content.Ranks
import JokerRun.Proofs.Content.Assets
import JokerRun.Proofs.Json.MemberOrder
import JokerRun.Proofs.Json.RoundTrip
import JokerRun.Proofs.Text.ByteOrder

/-
  Which entry of a table of ranks counts.

  Several keys may name one rank, such as a word, a letter
  and a number.  Of the keys for a rank the greatest one, by
  its UTF-8 bytes, gives the chips.  A key that names no
  rank leaves a warning, and so does a rank without a key.
  The order in which the text lists the entries does not
  count.

  Key definitions include:
    * `RankTable.IsLastKey`
    * `RankTable.lastFor?`
    * `RankTable.unknownKeys`

  Key theorems include:
    * `RankTable.get?_foldl_addEntry`
    * `RankTable.lastFor?_eq_some_iff`
    * `RankTable.length_warnings`
    * `RankTable.greatest_key_counts`
-/

------------------------------------------------------------
-- Adding Entries
------------------------------------------------------------

namespace JokerRun

namespace RankTable

/- The warning about a key that names no rank. -/
def unknownKey
    (k : String) : String :=
  s!"unknown rank key {Text.quoted k} in rank table"

/- Whether an entry is one for a rank. -/
def isFor
    (r : Rank)
    (e : String × RankEntry) : Bool :=
  Rank.ofKey? e.1.toList == some r

/- The last entry for a rank. -/
def lastFor?
    (es : List (String × RankEntry))
    (r : Rank) : Option (String × RankEntry) :=
  es.reverse.find? (isFor r)

/- What one entry does to the chips of a rank. -/
theorem get?_addEntry
    (t : RankChips × List String)
    (e : String × RankEntry)
    (r : Rank) :
    (addEntry t e).1.get? r =
      if isFor r e then some e.2.chips else t.1.get? r := by
  unfold addEntry isFor
  cases hKey : Rank.ofKey? e.1.toList with
  | none => rfl
  | some q =>
      by_cases hSame : r = q
      · simp [RankChips.insert, hSame]
      · have hOther : ¬ q = r := fun h => hSame h.symm
        simp [RankChips.insert, hSame, hOther]

/- The chips of a rank are those of the last entry for it. -/
theorem get?_foldl_addEntry
    (es : List (String × RankEntry))
    (t : RankChips × List String)
    (r : Rank) :
    (es.foldl addEntry t).1.get? r =
      ((lastFor? es r).map fun e => e.2.chips).or
        (t.1.get? r) := by
  induction es generalizing t with
  | nil =>
      rw [List.foldl_nil, lastFor?, List.reverse_nil,
        List.find?_nil, Option.map_none, Option.none_or]
  | cons e es ih =>
      rw [List.foldl_cons, ih, get?_addEntry, lastFor?,
        lastFor?, List.reverse_cons, List.find?_append]
      cases es.reverse.find? (isFor r) with
      | some last => rfl
      | none =>
          by_cases hFor : isFor r e = true
          · simp [hFor]
          · simp [hFor]

/- What one entry adds to the warnings. -/
theorem warnings_addEntry
    (t : RankChips × List String)
    (e : String × RankEntry) :
    (addEntry t e).2 =
      t.2 ++
        if (Rank.ofKey? e.1.toList).isNone then
          [unknownKey e.1]
        else [] := by
  unfold addEntry
  cases hKey : Rank.ofKey? e.1.toList with
  | none => rfl
  | some q => exact (List.append_nil t.2).symm

/- Each key that names no rank leaves its warning. -/
theorem warnings_foldl_addEntry
    (es : List (String × RankEntry))
    (t : RankChips × List String) :
    (es.foldl addEntry t).2 =
      t.2 ++
        ((es.map Prod.fst).filter fun k =>
          (Rank.ofKey? k.toList).isNone).map unknownKey := by
  induction es generalizing t with
  | nil => simp
  | cons e es ih =>
      rw [List.foldl_cons, ih, warnings_addEntry,
        List.map_cons, List.filter_cons]
      split
      · rw [List.map_cons, List.append_assoc,
          List.singleton_append]
      · rw [List.append_nil]

------------------------------------------------------------
-- The Greatest Key
------------------------------------------------------------

/- The greatest key for a rank, by its bytes. -/
structure IsLastKey
    (es : Dictionary RankEntry)
    (r : Rank)
    (k : String) : Prop where
  mem : k ∈ es.keys
  names : Rank.ofKey? k.toList = some r
  greatest :
    ∀ j ∈ es.keys, Rank.ofKey? j.toList = some r →
      j = k ∨ Text.bytes j < Text.bytes k

/- A rank has at most one greatest key. -/
theorem IsLastKey.unique
    {es : Dictionary RankEntry}
    {r : Rank}
    {j k : String}
    (hFirst : IsLastKey es r j)
    (hSecond : IsLastKey es r k) :
    j = k := by
  rcases hFirst.greatest k hSecond.mem hSecond.names with
    hSame | hBelow
  · exact hSame.symm
  · rcases hSecond.greatest j hFirst.mem hFirst.names with
      hSame | hAbove
    · exact hSame
    · exact absurd hAbove (List.lt_asymm hBelow)

/- The last entry for a rank has the greatest key for it. -/
theorem isLastKey_of_lastFor?
    {es : Dictionary RankEntry}
    {r : Rank}
    {e : String × RankEntry}
    (hLast : lastFor? es.entries r = some e) :
    e ∈ es.entries ∧ IsLastKey es r e.1 := by
  rcases List.find?_eq_some_iff_append.mp hLast with
    ⟨hFor, after, before, hReverse, hAfter⟩
  have hEntries :
      es.entries = before.reverse ++ e :: after.reverse := by
    rw [← List.reverse_reverse es.entries, hReverse]
    simp
  have hAscending := es.hAscending
  rw [hEntries] at hAscending
  have hMem : e ∈ es.entries := by
    rw [hEntries]
    exact List.mem_append_right _ List.mem_cons_self
  refine ⟨hMem, List.mem_map_of_mem hMem,
    beq_iff_eq.mp hFor, ?_⟩
  intro j hKey hNames
  rcases List.mem_map.mp hKey with ⟨e', hEntry, rfl⟩
  rw [hEntries] at hEntry
  rcases List.mem_append.mp hEntry with hFront | hBack
  · right
    exact Text.bytes_lt_bytes_iff.mpr
      ((List.pairwise_append.mp hAscending).2.2 e' hFront e
        List.mem_cons_self)
  · rcases List.mem_cons.mp hBack with rfl | hLater
    · exact Or.inl rfl
    · -- No later entry is one for the rank.
      have hNot := hAfter e' (List.mem_reverse.mp hLater)
      rw [isFor, hNames] at hNot
      simp at hNot

/- The greatest key gives the entry that counts. -/
theorem lastFor?_eq_some_iff
    {es : Dictionary RankEntry}
    {r : Rank}
    {k : String}
    {e : RankEntry} :
    lastFor? es.entries r = some (k, e) ↔
      IsLastKey es r k ∧ es.get? k = some e := by
  constructor
  · intro hLast
    rcases isLastKey_of_lastFor? hLast with ⟨hMem, hKey⟩
    exact ⟨hKey, Dictionary.get?_eq_some_iff.mpr hMem⟩
  · rintro ⟨hKey, hFound⟩
    have hMem := Dictionary.get?_eq_some_iff.mp hFound
    have hSome :
        (lastFor? es.entries r).isSome = true := by
      refine List.find?_isSome.mpr
        ⟨(k, e), List.mem_reverse.mpr hMem, ?_⟩
      exact beq_iff_eq.mpr hKey.names
    rcases Option.isSome_iff_exists.mp hSome with
      ⟨⟨k', e'⟩, hLast⟩
    rcases isLastKey_of_lastFor? hLast with ⟨hOther, hLastKey⟩
    have hSame : k' = k := hLastKey.unique hKey
    subst hSame
    have hEntry :=
      Dictionary.get?_eq_some_iff.mpr hOther
    rw [hFound] at hEntry
    cases hEntry
    exact hLast

theorem lastFor?_eq_none_iff
    {es : Dictionary RankEntry}
    {r : Rank} :
    lastFor? es.entries r = none ↔
      ∀ k ∈ es.keys, Rank.ofKey? k.toList ≠ some r := by
  rw [lastFor?, List.find?_eq_none]
  constructor
  · intro hNone k hKey hNames
    rcases List.mem_map.mp hKey with ⟨e, hMem, rfl⟩
    exact hNone e (List.mem_reverse.mpr hMem)
      (beq_iff_eq.mpr hNames)
  · intro hNone e hMem hFor
    exact hNone e.1
      (List.mem_map_of_mem (List.mem_reverse.mp hMem))
      (beq_iff_eq.mp hFor)

------------------------------------------------------------
-- Warnings
------------------------------------------------------------

/- The keys that name no rank, ascending. -/
def unknownKeys
    (es : Dictionary RankEntry) : List String :=
  es.keys.filter fun k => (Rank.ofKey? k.toList).isNone

/- Each rank has a value or is missing. -/
theorem length_missing_add_size
    (t : RankChips) :
    t.missing.length + t.size = 13 := by
  have hSize :
      t.size =
        (Rank.all.filter fun r =>
          !(t.get? r).isNone).length := by
    rw [RankChips.size, RankChips.entries,
      List.length_filterMap_eq_countP,
      List.countP_eq_length_filter]
    simp
  rw [hSize]
  exact (List.length_eq_length_filter_add _).symm

------------------------------------------------------------
-- Texts
------------------------------------------------------------

/- An entry may be an object or a list of its fields. -/
theorem unordered_ofStored? :
    Json.Unordered RankEntry.ofStored? := by
  refine Json.Unordered.fields _ ?_
  intro fs gs hAlike
  simp only [hAlike.optional_eq Json.unordered_amount?]

/- What a text of entries gives. -/
theorem parse?_of_entries
    {s : String}
    {es : Dictionary RankEntry}
    (hEntries : entries? s = some es) :
    ∃ t, parse? s =
        some (t, (unknownKeys es).map unknownKey ++
          t.missing.map Assets.noChips) ∧
      ∀ r, t.get? r =
        (lastFor? es.entries r).map fun e => e.2.chips := by
  refine ⟨(es.entries.foldl addEntry
    (RankChips.empty, [])).1, ?_, ?_⟩
  · rw [parse?, hEntries, Option.map_some, build]
    simp only [warnings_foldl_addEntry, List.nil_append]
    rfl
  · intro r
    rw [get?_foldl_addEntry]
    exact Option.or_none

/-
  Of the keys for a rank the greatest one gives the chips.
  A warning stands for each key that names no rank, and then
  for each rank without a value.
-/
theorem greatest_key_counts
    {s : String}
    {es : Dictionary RankEntry}
    (hEntries : entries? s = some es) :
    ∃ t warnings, parse? s = some (t, warnings) ∧
      (es.keys.Pairwise fun j k =>
        Text.bytes j < Text.bytes k) ∧
      (∀ r n, t.get? r = some n ↔
        ∃ k e, IsLastKey es r k ∧ es.get? k = some e ∧
          e.chips = n) ∧
      (∀ r, t.get? r = none ↔
        ∀ k ∈ es.keys, Rank.ofKey? k.toList ≠ some r) ∧
      warnings =
        (unknownKeys es).map unknownKey ++
          (Rank.all.filter fun r => (t.get? r).isNone).map
            Assets.noChips ∧
      warnings.length + t.size =
        (unknownKeys es).length + 13 ∧
      ∀ s', Json.SameText s s' → parse? s' = parse? s := by
  rcases parse?_of_entries hEntries with ⟨t, hParse, hGet⟩
  refine ⟨t, _, hParse, ?_, ?_, ?_, rfl, ?_, ?_⟩
  · exact (List.pairwise_map.mpr es.hAscending).imp
      Text.bytes_lt_bytes_iff.mpr
  · intro r n
    rw [hGet, Option.map_eq_some_iff]
    constructor
    · rintro ⟨⟨k, e⟩, hLast, hChips⟩
      rcases lastFor?_eq_some_iff.mp hLast with
        ⟨hKey, hFound⟩
      exact ⟨k, e, hKey, hFound, hChips⟩
    · rintro ⟨k, e, hKey, hFound, hChips⟩
      exact ⟨(k, e),
        lastFor?_eq_some_iff.mpr ⟨hKey, hFound⟩, hChips⟩
  · intro r
    rw [hGet, Option.map_eq_none_iff, lastFor?_eq_none_iff]
  · have hCount := length_missing_add_size t
    rw [List.length_append, List.length_map, List.length_map]
    omega
  · intro s' hSame
    rw [parse?, parse?, entries?, entries?]
    exact congrArg (Option.map build)
      ((Json.unordered_dictionary?
        unordered_ofStored?).readText_eq hSame).symm

/- The stored form of entries in order. -/
def storedEntries
    (es : List (String × RankEntry)) : Json :=
  .object (es.map fun e => (e.1, e.2.stored))

/- Entries with whole numbers in range can be read back. -/
theorem storedEntries_plain
    (es : List (String × RankEntry))
    (hRange :
      ∀ e ∈ es, Json.lowestWhole ≤ e.2.chips ∧
        e.2.chips ≤ Json.highestWhole) :
    (storedEntries es).Plain := by
  refine .object fun m hMem => ?_
  rcases List.mem_map.mp hMem with ⟨e, hEntry, rfl⟩
  rcases hRange e hEntry with ⟨hLow, hHigh⟩
  refine .object fun f hField => ?_
  rw [List.mem_singleton.mp hField]
  exact .whole hLow hHigh

/- The small letter stands above the capital one. -/
theorem greatest_key_counts_aces :
    ∃ t warnings,
      parse?
          (storedEntries
            [("a", ⟨2⟩), ("A", ⟨1⟩), ("x", ⟨5⟩)]).compact =
        some (t, warnings) ∧
      t.get? .ace = some 2 ∧
      warnings.length + t.size = 14 ∧
      parse?
          (storedEntries
            [("A", ⟨1⟩), ("a", ⟨2⟩), ("x", ⟨5⟩)]).compact =
        some (t, warnings) := by
  have hFirst :=
    (storedEntries_plain [("a", ⟨2⟩), ("A", ⟨1⟩), ("x", ⟨5⟩)]
      (by decide)).parse_compact
  have hOther :=
    (storedEntries_plain [("A", ⟨1⟩), ("a", ⟨2⟩), ("x", ⟨5⟩)]
      (by decide)).parse_compact
  have hEntries :
      entries?
          (storedEntries
            [("a", ⟨2⟩), ("A", ⟨1⟩), ("x", ⟨5⟩)]).compact =
        some (.ofList
          [("a", ⟨2⟩), ("A", ⟨1⟩), ("x", ⟨5⟩)]) := by
    rw [entries?, hFirst]
    rfl
  rcases greatest_key_counts hEntries with
    ⟨t, warnings, hParse, -, hGet, -, -, hCount, hSame⟩
  have hLast :
      IsLastKey
        (.ofList [("a", ⟨2⟩), ("A", ⟨1⟩), ("x", ⟨5⟩)])
        .ace "a" :=
    ⟨by decide, by decide, by decide⟩
  refine ⟨t, warnings, hParse, ?_, hCount, ?_⟩
  · exact (hGet .ace 2).mpr ⟨"a", ⟨2⟩, hLast, rfl, rfl⟩
  · rw [← hParse]
    exact hSame _ ⟨_, _, hFirst, hOther,
      Json.sameMembers_of_perm (.swap _ _ _) (by decide)⟩

end RankTable

end JokerRun
