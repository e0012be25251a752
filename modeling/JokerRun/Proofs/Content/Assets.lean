import JokerRun.Content.Assets
import JokerRun.Proofs.Content.Jokers

/-
  Each part of the content comes from its own file.

  The relations below say, without regard to the other
  files, which rules, which table of ranks and which catalog
  a file gives, and with which warnings.  Loading a
  directory puts these parts side by side.  Only a file of
  rules that is there and cannot be used makes it fail.

  Key definitions include:
    * `Assets.HoldsRules`
    * `Assets.RulesFrom`
    * `Assets.RanksFrom`
    * `Assets.JokersFrom`
    * `Assets.AssembledFrom`

  Key theorems include:
    * `Assets.ranksFrom_iff`
    * `Assets.jokersFrom_iff`
    * `Assets.load_eq_ok_iff`
    * `Assets.load_isolates_files`
-/

------------------------------------------------------------
-- Rules
------------------------------------------------------------

namespace JokerRun

namespace Assets

/- A file whose text is the stored form of rules. -/
def HoldsRules
    (f : FileState)
    (r : Rules) : Prop :=
  ∃ s v, f.text = .ok s ∧ Json.parse s = some v ∧
    Rules.ofStored? v = some r

/- The rules that a file gives; an absent one, the standard. -/
inductive RulesFrom (f : FileState) : Rules → Prop where
  | absent
      (hAbsent : f.isPresent = false) :
      RulesFrom f Rules.standard
  | held
      {r : Rules}
      (hHeld : HoldsRules f r) :
      RulesFrom f r

/- The bytes of a text are read as this text. -/
theorem text_bytes
    (s : String) :
    (FileState.bytes s.toUTF8.data.toList).text = .ok s := by
  have hBytes :
      (⟨s.toUTF8.data.toList.toArray⟩ : ByteArray) =
        s.toUTF8 := rfl
  have hRead : String.fromUTF8? s.toUTF8 = some s := by
    simp only [String.fromUTF8?,
      String.toUTF8_eq_toByteArray, dif_pos s.isValidUTF8]
    rfl
  rw [FileState.text, hBytes, hRead]

/- A file that is not even there has no text. -/
theorem isPresent_of_text
    {f : FileState}
    {s : String}
    (hText : f.text = .ok s) :
    f.isPresent = true := by
  cases f with
  | bytes b => rfl
  | missing | behindFile | directory | blocked =>
      cases hText

theorem parseRules_eq_ok_iff
    {s : String}
    {r : Rules} :
    parseRules s = .ok r ↔
      ∃ v, Json.parse s = some v ∧
        Rules.ofStored? v = some r := by
  have hBind :
      (Json.parse s).bind Rules.ofStored? = some r ↔
        ∃ v, Json.parse s = some v ∧
          Rules.ofStored? v = some r :=
    Option.bind_eq_some_iff
  rw [← hBind]
  unfold parseRules
  cases (Json.parse s).bind Rules.ofStored? with
  | none => simp
  | some r' => simp

theorem rulesOf_eq_ok_iff
    {f : FileState}
    {r : Rules} :
    rulesOf f = .ok r ↔ RulesFrom f r := by
  unfold rulesOf
  by_cases hPresent : f.isPresent = true
  · simp only [hPresent, if_true]
    constructor
    · intro hRules
      cases hText : f.text with
      | error e =>
          rw [hText] at hRules
          cases hRules
      | ok s =>
          rw [hText] at hRules
          rcases parseRules_eq_ok_iff.mp hRules with
            ⟨v, hParse, hStored⟩
          exact .held ⟨s, v, hText, hParse, hStored⟩
    · intro hFrom
      cases hFrom with
      | absent hAbsent =>
          rw [hPresent] at hAbsent
          cases hAbsent
      | held hHeld =>
          rcases hHeld with ⟨s, v, hText, hParse, hStored⟩
          rw [hText]
          exact parseRules_eq_ok_iff.mpr
            ⟨v, hParse, hStored⟩
  · have hAbsent : f.isPresent = false :=
      Bool.eq_false_iff.mpr hPresent
    simp only [hAbsent, Bool.false_eq_true, if_false]
    constructor
    · intro hStandard
      cases hStandard
      exact .absent hAbsent
    · intro hFrom
      cases hFrom with
      | absent => rfl
      | held hHeld =>
          rcases hHeld with ⟨s, v, hText, -, -⟩
          exact absurd (isPresent_of_text hText) hPresent

/- Without rules of its own, a file that is there is fatal. -/
theorem rulesOf_eq_error_iff
    {f : FileState} :
    (∃ e, rulesOf f = .error e) ↔
      f.isPresent = true ∧ ¬ ∃ r, HoldsRules f r := by
  constructor
  · rintro ⟨e, hError⟩
    have hNone : ∀ r, ¬ RulesFrom f r := by
      intro r hFrom
      rw [rulesOf_eq_ok_iff.mpr hFrom] at hError
      cases hError
    constructor
    · cases hPresent : f.isPresent with
      | true => rfl
      | false =>
          exact absurd (RulesFrom.absent hPresent)
            (hNone Rules.standard)
    · rintro ⟨r, hHeld⟩
      exact hNone r (.held hHeld)
  · rintro ⟨hPresent, hNotHeld⟩
    cases hRules : rulesOf f with
    | error e => exact ⟨e, rfl⟩
    | ok r =>
        exfalso
        cases rulesOf_eq_ok_iff.mp hRules with
        | absent hAbsent =>
            rw [hPresent] at hAbsent
            cases hAbsent
        | held hHeld => exact hNotHeld ⟨r, hHeld⟩

------------------------------------------------------------
-- Ranks
------------------------------------------------------------

/- Why a file gives no table of ranks. -/
inductive LacksRanks (f : FileState) : FileError → Prop where
  | unread
      {e : FileError}
      (hText : f.text = .error e) :
      LacksRanks f e
  | malformed
      {s : String}
      (hText : f.text = .ok s)
      (hEntries : RankTable.entries? s = none) :
      LacksRanks f .malformed

/- The warning about a file without a table of ranks. -/
def noRanks
    (path : String)
    (e : FileError) : String :=
  s!"{e.message path}; every rank scores 0"

/- The warning about a rank without chips. -/
def noChips
    (r : Rank) : String :=
  s!"rank {r.name} has no chip value and will score 0"

/-
  The table of ranks that a file gives, with the warnings:
  the one of its entries, or an empty one with a warning
  about the file and then one about each rank.
-/
inductive RanksFrom
    (path : String)
    (f : FileState) :
    RankChips → List String → Prop where
  | built
      {s : String}
      {es : Dictionary RankEntry}
      (hText : f.text = .ok s)
      (hEntries : RankTable.entries? s = some es) :
      RanksFrom path f (RankTable.build es).1
        (RankTable.build es).2
  | lacking
      {e : FileError}
      (hLacks : LacksRanks f e) :
      RanksFrom path f RankChips.empty
        (noRanks path e :: Rank.all.map noChips)

/- An empty table misses every rank. -/
theorem missingWarnings_empty :
    RankTable.missingWarnings RankChips.empty =
      Rank.all.map noChips := rfl

/- What a file gives is what reading it gives. -/
theorem ranksFrom_iff
    {path : String}
    {f : FileState}
    {t : RankChips}
    {warnings : List String} :
    RanksFrom path f t warnings ↔
      ranksOf path f = (t, warnings) := by
  constructor
  · intro hFrom
    cases hFrom with
    | built hText hEntries =>
        simp only [ranksOf, hText, Except.bind, parseRanks,
          RankTable.parse?, hEntries, Option.map_some]
    | lacking hLacks =>
        cases hLacks with
        | unread hText =>
            simp only [ranksOf, hText, Except.bind,
              missingWarnings_empty]
            rfl
        | malformed hText hEntries =>
            simp only [ranksOf, hText, Except.bind,
              parseRanks, RankTable.parse?, hEntries,
              Option.map_none, missingWarnings_empty]
            rfl
  · intro hRanks
    unfold ranksOf at hRanks
    cases hText : f.text with
    | error e =>
        simp only [hText, Except.bind] at hRanks
        cases hRanks
        exact .lacking (.unread hText)
    | ok s =>
        cases hEntries : RankTable.entries? s with
        | none =>
            simp only [hText, Except.bind, parseRanks,
              RankTable.parse?, hEntries,
              Option.map_none] at hRanks
            cases hRanks
            exact .lacking (.malformed hText hEntries)
        | some es =>
            simp only [hText, Except.bind, parseRanks,
              RankTable.parse?, hEntries,
              Option.map_some] at hRanks
            have hBuilt :
                RanksFrom path f (RankTable.build es).1
                  (RankTable.build es).2 :=
              .built hText hEntries
            rw [hRanks] at hBuilt
            exact hBuilt

------------------------------------------------------------
-- Jokers
------------------------------------------------------------

/- The warning about a file without a catalog. -/
def noJokers
    (path : String)
    (e : FileError) : String :=
  s!"{e.message path}; no jokers available"

/-
  The catalog that a file gives, with the warnings: the one
  of all its records, or an empty one with a warning about
  the file at the end.  Before a record that is refused, the
  warnings of the earlier ones stay.
-/
inductive JokersFrom
    (path : String)
    (f : FileState) :
    Catalog → List String → Prop where
  | built
      {s : String}
      {rs : Dictionary JokerRecord}
      {as : List Ability}
      {warnings : List String}
      (hText : f.text = .ok s)
      (hRecords : JokerTable.records? s = some rs)
      (hBecomes :
        JokerTable.Becomes rs.entries as warnings) :
      JokersFrom path f (Catalog.ofList as) warnings
  | stopped
      {s id : String}
      {rs : Dictionary JokerRecord}
      {before after : List (String × JokerRecord)}
      {r : JokerRecord}
      {e : RecordError}
      {as : List Ability}
      {warnings : List String}
      (hText : f.text = .ok s)
      (hRecords : JokerTable.records? s = some rs)
      (hEntries : rs.entries = before ++ (id, r) :: after)
      (hBefore : JokerTable.Becomes before as warnings)
      (hRefused : r.Refused id e) :
      JokersFrom path f Catalog.empty
        (warnings ++ [noJokers path (.record e)])
  | malformed
      {s : String}
      (hText : f.text = .ok s)
      (hRecords : JokerTable.records? s = none) :
      JokersFrom path f Catalog.empty
        [noJokers path .malformed]
  | unread
      {e : FileError}
      (hText : f.text = .error e) :
      JokersFrom path f Catalog.empty [noJokers path e]

/- A record that is refused leaves the warnings before it. -/
theorem readJokers_of_records
    {f : FileState}
    {s : String}
    {rs : Dictionary JokerRecord}
    (hText : f.text = .ok s)
    (hRecords : JokerTable.records? s = some rs) :
    readJokers f =
      (((JokerTable.buildAll rs.entries).1.map
          Catalog.ofList).mapError
          (FileError.record),
        (JokerTable.buildAll rs.entries).2) := by
  simp only [readJokers, hText, parseJokers,
    JokerTable.parse_of_records hRecords]
  cases (JokerTable.buildAll rs.entries).1 <;> rfl

theorem JokersFrom.jokersOf_eq
    {path : String}
    {f : FileState}
    {c : Catalog}
    {warnings : List String}
    (hFrom : JokersFrom path f c warnings) :
    jokersOf path f = (c, warnings) := by
  cases hFrom with
  | built hText hRecords hBecomes =>
      have hRead := readJokers_of_records hText hRecords
      rw [hBecomes.buildAll_eq] at hRead
      simp only [jokersOf, hRead, Except.map]
      rfl
  | stopped hText hRecords hEntries hBefore hRefused =>
      have hRead := readJokers_of_records hText hRecords
      rw [hEntries,
        JokerTable.buildAll_of_split hBefore hRefused] at hRead
      simp only [jokersOf, hRead, Except.map]
      rfl
  | malformed hText hRecords =>
      simp only [jokersOf, readJokers, hText, parseJokers,
        JokerTable.parse, hRecords]
      rfl
  | unread hText =>
      simp only [jokersOf, readJokers, hText,
        List.nil_append]
      rfl

/- Every file gives some catalog. -/
theorem exists_jokersFrom
    (path : String)
    (f : FileState) :
    ∃ c warnings, JokersFrom path f c warnings := by
  cases hText : f.text with
  | error e => exact ⟨_, _, .unread hText⟩
  | ok s =>
      cases hRecords : JokerTable.records? s with
      | none => exact ⟨_, _, .malformed hText hRecords⟩
      | some rs =>
          rcases JokerTable.buildAll_cases rs.entries with
            ⟨as, warnings, hBecomes⟩ |
              ⟨before, id, r, after, e, as, warnings,
                hEntries, hBefore, hRefused⟩
          · exact ⟨_, _, .built hText hRecords hBecomes⟩
          · exact ⟨_, _, .stopped hText hRecords hEntries
              hBefore hRefused⟩

theorem jokersFrom_iff
    {path : String}
    {f : FileState}
    {c : Catalog}
    {warnings : List String} :
    JokersFrom path f c warnings ↔
      jokersOf path f = (c, warnings) := by
  refine ⟨JokersFrom.jokersOf_eq, ?_⟩
  intro hJokers
  rcases exists_jokersFrom path f with
    ⟨c', warnings', hFrom⟩
  have hSame := hFrom.jokersOf_eq
  rw [hJokers] at hSame
  cases hSame
  exact hFrom

------------------------------------------------------------
-- Directories
------------------------------------------------------------

/- Content whose parts come from the files of a directory. -/
def AssembledFrom
    (dir : String)
    (file : String → FileState)
    (a : Assets) : Prop :=
  ∃ rankWarnings jokerWarnings,
    a.warnings = rankWarnings ++ jokerWarnings ∧
      RulesFrom (file (pathIn dir rulesFile)) a.rules ∧
      RanksFrom (pathIn dir ranksFile)
        (file (pathIn dir ranksFile)) a.chips
        rankWarnings ∧
      JokersFrom (pathIn dir jokersFile)
        (file (pathIn dir jokersFile)) a.catalog
        jokerWarnings

theorem load_eq_ok_iff
    {dir : String}
    {file : String → FileState}
    {a : Assets} :
    load dir file = .ok a ↔ AssembledFrom dir file a := by
  constructor
  · intro hLoad
    unfold load at hLoad
    cases hRules : rulesOf (file (pathIn dir rulesFile)) with
    | error e =>
        simp only [hRules] at hLoad
        cases hLoad
    | ok rules =>
        simp only [hRules] at hLoad
        cases hLoad
        exact ⟨_, _, rfl, rulesOf_eq_ok_iff.mp hRules,
          ranksFrom_iff.mpr rfl, jokersFrom_iff.mpr rfl⟩
  · rintro ⟨rankWarnings, jokerWarnings, hWarnings, hRules,
      hRanks, hJokers⟩
    unfold load
    simp only [rulesOf_eq_ok_iff.mpr hRules,
      ranksFrom_iff.mp hRanks, jokersFrom_iff.mp hJokers,
      ← hWarnings]

theorem load_eq_error_iff
    {dir : String}
    {file : String → FileState} :
    (∃ e, load dir file = .error e) ↔
      ∃ e, rulesOf (file (pathIn dir rulesFile)) =
        .error e := by
  unfold load
  cases hRules : rulesOf (file (pathIn dir rulesFile)) with
  | error e => simp [hRules]
  | ok rules => simp [hRules]

/-
  Loading fails exactly for a file of rules that is there
  and holds none.  Otherwise it gives content assembled from
  the files, and each part of that, with its warnings, is a
  function of its own file.
-/
theorem load_isolates_files :
    (∀ (dir : String) (file : String → FileState),
      ((∃ e, load dir file = .error e) ↔
        (file (pathIn dir rulesFile)).isPresent = true ∧
          ¬ ∃ r, HoldsRules
            (file (pathIn dir rulesFile)) r) ∧
      ∀ a, load dir file = .ok a ↔
        AssembledFrom dir file a) ∧
      (∃ rules : FileState → Option Rules,
        ∀ f r, RulesFrom f r ↔ rules f = some r) ∧
      (∃ ranks :
          String → FileState → RankChips × List String,
        ∀ path f t warnings,
          RanksFrom path f t warnings ↔
            ranks path f = (t, warnings)) ∧
      ∃ jokers :
          String → FileState → Catalog × List String,
        ∀ path f c warnings,
          JokersFrom path f c warnings ↔
            jokers path f = (c, warnings) := by
  refine ⟨?_, ?_, ?_, ?_⟩
  · intro dir file
    refine ⟨?_, fun a => load_eq_ok_iff⟩
    rw [load_eq_error_iff, rulesOf_eq_error_iff]
  · refine ⟨fun f => (rulesOf f).toOption, ?_⟩
    intro f r
    rw [← rulesOf_eq_ok_iff]
    cases hRules : rulesOf f with
    | error e => simp [Except.toOption, hRules]
    | ok r' => simp [Except.toOption, hRules]
  · refine ⟨ranksOf, ?_⟩
    intro path f t warnings
    exact ranksFrom_iff
  · refine ⟨jokersOf, ?_⟩
    intro path f c warnings
    exact jokersFrom_iff

end Assets

end JokerRun
