import JokerRun.Proofs.Content.Ranks

/-
  Which entries of a table of ranks take effect.

  An entry gives its rank the chips, or its key names no
  rank and a warning quotes the key, or a greater key for
  the same rank sets other chips.  In the last case the
  entry is lost, and no warning is about its key or about
  its rank.

  Key definitions include:
    * `RankTable.Counts`
    * `RankTable.Mentions`
    * `RankTable.Overridden`
    * `RankTable.PassesOver`

  Key theorems include:
    * `RankTable.counts_or_unknown_or_overridden`
    * `RankTable.passesOver_of_overridden`
    * `RankTable.entry_reported_unless_overridden`
    * `RankTable.overridden_entry_unreported`
-/

------------------------------------------------------------
-- What Becomes Of An Entry
------------------------------------------------------------

namespace JokerRun

namespace RankTable

/- The key names a rank that has the chips of its entry. -/
def Counts
    (t : RankChips)
    (k : String)
    (e : RankEntry) : Prop :=
  ∃ r, Rank.ofKey? k.toList = some r ∧
    t.get? r = some e.chips

/- The warning has the key in it, as it is or quoted. -/
def Mentions
    (w k : String) : Prop :=
  k.toList <:+: w.toList ∨
    (Text.quoted k).toList <:+: w.toList

/- The greatest key for the same rank sets other chips. -/
def Overridden
    (es : Dictionary RankEntry)
    (k : String)
    (e : RankEntry) : Prop :=
  ∃ r j f, Rank.ofKey? k.toList = some r ∧
    IsLastKey es r j ∧ Text.bytes k < Text.bytes j ∧
    es.get? j = some f ∧ f.chips ≠ e.chips

/- The warning is about another key or about another rank. -/
def PassesOver
    (es : Dictionary RankEntry)
    (t : RankChips)
    (w k : String) : Prop :=
  (∃ j ∈ es.keys, j ≠ k ∧ w = unknownKey j) ∨
    ∃ r, Rank.ofKey? k.toList ≠ some r ∧
      t.get? r = none ∧ w = Assets.noChips r

/- The warning about an unknown key quotes it. -/
theorem mentions_unknownKey
    (k : String) :
    Mentions (unknownKey k) k := by
  right
  refine ⟨"unknown rank key ".toList,
    " in rank table".toList, ?_⟩
  rw [← String.toList_append, ← String.toList_append]
  rfl

------------------------------------------------------------
-- Tables Of Entries
------------------------------------------------------------

/- The chips of each rank are those of the last entry for it. -/
def HoldsLast
    (es : Dictionary RankEntry)
    (t : RankChips) : Prop :=
  ∀ r, t.get? r =
    (lastFor? es.entries r).map fun last => last.2.chips

section

variable {es : Dictionary RankEntry}
variable {t : RankChips}
variable {k : String}
variable {e : RankEntry}

/- A rank that a key names has the chips of its greatest key. -/
theorem HoldsLast.exists_lastKey
    (hHolds : HoldsLast es t)
    (hEntry : es.get? k = some e)
    {r : Rank}
    (hNames : Rank.ofKey? k.toList = some r) :
    ∃ j f, IsLastKey es r j ∧ es.get? j = some f ∧
      t.get? r = some f.chips := by
  have hKey : k ∈ es.keys :=
    List.mem_map_of_mem (Dictionary.get?_eq_some_iff.mp hEntry)
  cases hLast : lastFor? es.entries r with
  | none =>
      exact absurd hNames
        (lastFor?_eq_none_iff.mp hLast k hKey)
  | some last =>
      rcases last with ⟨j, f⟩
      rcases lastFor?_eq_some_iff.mp hLast with
        ⟨hGreatest, hFound⟩
      refine ⟨j, f, hGreatest, hFound, ?_⟩
      rw [hHolds, hLast, Option.map_some]

/- There is no fourth thing that may become of an entry. -/
theorem counts_or_unknown_or_overridden
    (hHolds : HoldsLast es t)
    (hEntry : es.get? k = some e) :
    Counts t k e ∨ Rank.ofKey? k.toList = none ∨
      Overridden es k e := by
  cases hNames : Rank.ofKey? k.toList with
  | none => exact Or.inr (Or.inl rfl)
  | some r =>
      rcases hHolds.exists_lastKey hEntry hNames with
        ⟨j, f, hLast, hFound, hChips⟩
      have hKey : k ∈ es.keys :=
        List.mem_map_of_mem
          (Dictionary.get?_eq_some_iff.mp hEntry)
      by_cases hSame : f.chips = e.chips
      · rw [hSame] at hChips
        exact Or.inl ⟨r, hNames, hChips⟩
      · rcases hLast.greatest k hKey hNames with
          rfl | hBelow
        · rw [hEntry] at hFound
          cases hFound
          exact absurd rfl hSame
        · exact Or.inr (Or.inr
            ⟨r, j, f, hNames, hLast, hBelow, hFound, hSame⟩)

/- An overridden entry is not the one that counts. -/
theorem not_counts_of_overridden
    (hHolds : HoldsLast es t)
    (hEntry : es.get? k = some e)
    (hOverridden : Overridden es k e) :
    ¬ Counts t k e := by
  rcases hOverridden with
    ⟨r, j, f, hNames, hLast, -, hFound, hOther⟩
  rintro ⟨q, hSame, hChips⟩
  rw [hNames] at hSame
  cases hSame
  rcases hHolds.exists_lastKey hEntry hNames with
    ⟨j', f', hLast', hFound', hChips'⟩
  have hKeys : j' = j := hLast'.unique hLast
  subst hKeys
  rw [hFound] at hFound'
  cases hFound'
  rw [hChips] at hChips'
  exact hOther (Option.some.inj hChips').symm

/- The warnings pass over the key of an overridden entry. -/
theorem passesOver_of_overridden
    (hHolds : HoldsLast es t)
    (hEntry : es.get? k = some e)
    (hOverridden : Overridden es k e)
    {w : String}
    (hWarning :
      w ∈ (unknownKeys es).map unknownKey ++
        t.missing.map Assets.noChips) :
    PassesOver es t w k := by
  rcases hOverridden with ⟨r, -, -, hNames, -⟩
  rcases List.mem_append.mp hWarning with
    hUnknown | hMissing
  · rcases List.mem_map.mp hUnknown with ⟨j, hKey, rfl⟩
    rcases List.mem_filter.mp hKey with ⟨hMem, hNone⟩
    refine Or.inl ⟨j, hMem, ?_, rfl⟩
    rintro rfl
    rw [hNames] at hNone
    contradiction
  · rcases List.mem_map.mp hMissing with ⟨q, hRank, rfl⟩
    have hNone : t.get? q = none :=
      Option.isNone_iff_eq_none.mp
        (List.mem_filter.mp hRank).2
    refine Or.inr ⟨q, ?_, hNone, rfl⟩
    rintro hSame
    rcases hHolds.exists_lastKey hEntry hSame with
      ⟨j, f, -, -, hChips⟩
    rw [hNone] at hChips
    contradiction

/- A key that names no rank has a warning that quotes it. -/
theorem exists_mentions_of_unknown
    (hEntry : es.get? k = some e)
    (hUnknown : Rank.ofKey? k.toList = none)
    (later : List String) :
    ∃ w ∈ (unknownKeys es).map unknownKey ++ later,
      Mentions w k := by
  have hKey : k ∈ unknownKeys es :=
    List.mem_filter.mpr
      ⟨List.mem_map_of_mem
        (Dictionary.get?_eq_some_iff.mp hEntry),
        Option.isNone_iff_eq_none.mpr hUnknown⟩
  exact ⟨unknownKey k,
    List.mem_append_left _ (List.mem_map_of_mem hKey),
    mentions_unknownKey k⟩

end

------------------------------------------------------------
-- Texts
------------------------------------------------------------

/-
  An entry counts or is mentioned by a warning, unless it is
  overridden.  An overridden entry does not count, and every
  warning is about something else.
-/
theorem entry_reported_unless_overridden
    {s : String}
    {es : Dictionary RankEntry}
    (hEntries : entries? s = some es) :
    ∃ t warnings, parse? s = some (t, warnings) ∧
      ∀ k e, es.get? k = some e →
        (¬ Overridden es k e →
          Counts t k e ∨ ∃ w ∈ warnings, Mentions w k) ∧
        (Overridden es k e →
          ¬ Counts t k e ∧
            ∀ w ∈ warnings, PassesOver es t w k) := by
  rcases parse?_of_entries hEntries with
    ⟨t, hParse, hHolds⟩
  refine ⟨t, _, hParse, ?_⟩
  intro k e hEntry
  constructor
  · intro hFree
    rcases counts_or_unknown_or_overridden hHolds hEntry with
      hCounts | hUnknown | hOverridden
    · exact Or.inl hCounts
    · exact Or.inr
        (exists_mentions_of_unknown hEntry hUnknown _)
    · exact absurd hOverridden hFree
  · intro hOverridden
    exact ⟨not_counts_of_overridden hHolds hEntry hOverridden,
      fun w hWarning =>
        passesOver_of_overridden hHolds hEntry hOverridden
          hWarning⟩

/- An entry for each rank, and a second one for the ace. -/
def secondAce : List (String × RankEntry) :=
  [("ACE", ⟨1⟩), ("2", ⟨2⟩), ("3", ⟨3⟩), ("4", ⟨4⟩),
    ("5", ⟨5⟩), ("6", ⟨6⟩), ("7", ⟨7⟩), ("8", ⟨8⟩),
    ("9", ⟨9⟩), ("10", ⟨10⟩), ("Jack", ⟨10⟩),
    ("Queen", ⟨10⟩), ("King", ⟨10⟩), ("Ace", ⟨11⟩)]

theorem entries?_secondAce :
    entries? (storedEntries secondAce).compact =
      some (.ofList secondAce) := by
  have hParse :=
    (storedEntries_plain secondAce (by decide)).parse_compact
  rw [entries?, hParse]
  rfl

/- The other key for the ace is the greater one. -/
theorem isLastKey_secondAce :
    IsLastKey (.ofList secondAce) .ace "Ace" :=
  ⟨by decide, by decide, by decide⟩

/- The table is read without any warning. -/
theorem parse?_secondAce :
    ∃ t, parse? (storedEntries secondAce).compact =
        some (t, []) ∧
      t.get? .ace = some 11 := by
  rw [parse?, entries?_secondAce, Option.map_some]
  exact ⟨_, rfl, rfl⟩

/- The one ace counts, and the other one is passed over. -/
theorem entry_reported_unless_overridden_secondAce :
    ∃ t,
      parse? (storedEntries secondAce).compact =
        some (t, []) ∧
      ¬ Overridden (.ofList secondAce) "Ace" ⟨11⟩ ∧
      Counts t "Ace" ⟨11⟩ ∧
      Overridden (.ofList secondAce) "ACE" ⟨1⟩ ∧
      ¬ Counts t "ACE" ⟨1⟩ := by
  rcases entry_reported_unless_overridden
      entries?_secondAce with
    ⟨t, warnings, hParse, hEach⟩
  rcases parse?_secondAce with ⟨_, hSilent, -⟩
  rw [hSilent] at hParse
  cases hParse
  have hFree :
      ¬ Overridden (.ofList secondAce) "Ace" ⟨11⟩ := by
    rintro ⟨r, j, f, hNames, hLast, hBelow, -⟩
    have hAce : Rank.ofKey? "Ace".toList = some .ace := by
      decide
    rw [hAce] at hNames
    cases hNames
    rw [hLast.unique isLastKey_secondAce] at hBelow
    exact List.lt_irrefl _ hBelow
  have hOverridden :
      Overridden (.ofList secondAce) "ACE" ⟨1⟩ :=
    ⟨.ace, "Ace", ⟨11⟩, by decide, isLastKey_secondAce,
      by decide, rfl, by decide⟩
  refine ⟨t, hSilent, hFree, ?_, hOverridden,
    ((hEach "ACE" ⟨1⟩ rfl).2 hOverridden).1⟩
  rcases (hEach "Ace" ⟨11⟩ rfl).1 hFree with
    hCounts | ⟨w, hWarning, -⟩
  · exact hCounts
  · exact absurd hWarning List.not_mem_nil

/- An entry can be lost without any warning. -/
theorem overridden_entry_unreported :
    ¬ ∀ (s : String) (es : Dictionary RankEntry)
        (t : RankChips) (warnings : List String),
        entries? s = some es → parse? s = some (t, warnings) →
          ∀ k e, es.get? k = some e →
            Counts t k e ∨ ∃ w ∈ warnings, Mentions w k := by
  intro hReported
  rcases parse?_secondAce with ⟨t, hParse, hAce⟩
  rcases hReported _ _ _ _ entries?_secondAce hParse
      "ACE" ⟨1⟩ rfl with
    ⟨r, hNames, hChips⟩ | ⟨w, hWarning, -⟩
  · have hKey : Rank.ofKey? "ACE".toList = some .ace := by
      decide
    rw [hKey] at hNames
    cases hNames
    rw [hAce] at hChips
    exact absurd hChips (by decide)
  · exact absurd hWarning List.not_mem_nil

end RankTable

end JokerRun
