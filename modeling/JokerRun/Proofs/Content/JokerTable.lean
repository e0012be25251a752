import JokerRun.Proofs.Catalog
import JokerRun.Proofs.Content.Jokers
import JokerRun.Proofs.Json.MemberOrder
import JokerRun.Proofs.Json.RoundTrip
import JokerRun.Proofs.Text.ByteOrder

/-
  A text of records gives a whole catalog or none.

  A record is sound if its identifier is not blank and its
  parameters are absent or an object.  If all records are
  sound, the catalog has a joker for each of them, and each
  inert joker has left its warning.  Otherwise the unsound
  record with the least identifier decides about the error,
  and only the jokers before it have left warnings.  The
  order in which the text lists the records and their fields
  does not count.

  Key definitions include:
    * `JokerRecord.Sound`
    * `JokerRecord.warnings`
    * `JokerRecord.Built`
    * `JokerTable.Completes`
    * `JokerTable.StopsAt`

  Key theorems include:
    * `JokerTable.completes_of_becomes`
    * `JokerTable.stopsAt_of_split`
    * `JokerTable.catalog_all_or_nothing`
-/

------------------------------------------------------------
-- Sound Records
------------------------------------------------------------

namespace JokerRun

namespace JokerRecord

/- The parameters of a record are absent or an object. -/
def HasParams
    (r : JokerRecord)
    (ps : Params) : Prop :=
  r.params = .null ∧ ps = [] ∨ r.params = .object ps

/- A record with a name and with usable parameters. -/
structure Sound
    (id : String)
    (r : JokerRecord) : Prop where
  named : Text.trim id.toList ≠ []
  params : ∃ ps, r.HasParams ps

/- The warnings that building a record leaves. -/
def warnings
    (id : String)
    (r : JokerRecord) : List String :=
  match r.build id with
  | .ok (_, warnings) => warnings
  | .error _ => []

/-
  A joker that a record becomes: with an effect and without
  a warning, or inert and with one.
-/
structure Built
    (id : String)
    (r : JokerRecord)
    (a : Ability) : Prop where
  build : r.build id = .ok (a, r.warnings id)
  warned :
    a.isInert = false ∧ r.warnings id = [] ∨
      a.isInert = true ∧ ∃ w, r.warnings id = [w]

theorem params?_eq_some_iff
    {r : JokerRecord}
    {ps : Params} :
    r.params? = some ps ↔ r.HasParams ps := by
  unfold params? HasParams
  cases r.params <;> simp [eq_comm]

theorem Becomes.sound
    {id : String}
    {r : JokerRecord}
    {a : Ability}
    {left : List String}
    (hBecomes : r.Becomes id a left) :
    r.Sound id := by
  cases hBecomes with
  | working hNamed hParams _ =>
      exact ⟨hNamed, _, params?_eq_some_iff.mp hParams⟩
  | inert hNamed hParams _ =>
      exact ⟨hNamed, _, params?_eq_some_iff.mp hParams⟩

theorem Refused.not_sound
    {id : String}
    {r : JokerRecord}
    {e : RecordError}
    (hRefused : r.Refused id e) :
    ¬ r.Sound id := by
  rintro ⟨hNamed, ps, hParams⟩
  cases hRefused with
  | emptyId hBlank => exact hNamed hBlank
  | badParams _ hNone =>
      rw [params?_eq_some_iff.mpr hParams] at hNone
      cases hNone

theorem Becomes.id_eq
    {id : String}
    {r : JokerRecord}
    {a : Ability}
    {left : List String}
    (hBecomes : r.Becomes id a left) :
    a.id = id := by
  cases hBecomes <;> rfl

theorem Becomes.warnings_eq
    {id : String}
    {r : JokerRecord}
    {a : Ability}
    {left : List String}
    (hBecomes : r.Becomes id a left) :
    r.warnings id = left := by
  simp only [warnings, hBecomes.build_eq]

/- An inert joker leaves one warning, another one none. -/
theorem Becomes.isInert_cases
    {id : String}
    {r : JokerRecord}
    {a : Ability}
    {left : List String}
    (hBecomes : r.Becomes id a left) :
    a.isInert = false ∧ left = [] ∨
      a.isInert = true ∧ ∃ w, left = [w] := by
  cases hBecomes with
  | working => exact Or.inl ⟨rfl, rfl⟩
  | inert => exact Or.inr ⟨rfl, _, rfl⟩

theorem Becomes.built
    {id : String}
    {r : JokerRecord}
    {a : Ability}
    (hBecomes : r.Becomes id a (r.warnings id)) :
    r.Built id a :=
  ⟨hBecomes.build_eq, hBecomes.isInert_cases⟩

/- The fields of a record may be listed in any order. -/
theorem unordered_ofStored?
    (around : Nat) :
    Json.Unordered (ofStored? around) := by
  refine Json.Unordered.fields _ ?_
  intro fs gs hAlike
  simp only [hAlike.optional_eq Json.unordered_text?,
    hAlike.optional_eq Json.unordered_amount?,
    hAlike.optional_eq Json.unordered_nat32?,
    hAlike.optional_eq (Json.unordered_freeWithin? _)]

end JokerRecord

------------------------------------------------------------
-- Whole Catalogs
------------------------------------------------------------

namespace JokerTable

/-
  The catalog has the joker of each record, and each inert
  one has left one warning, by ascending identifier.
-/
structure Completes
    (rs : Dictionary JokerRecord)
    (c : Catalog)
    (left : List String) : Prop where
  ids : c.ids = rs.keys
  built :
    ∀ id r, rs.get? id = some r →
      ∃ a, r.Built id a ∧ c.get? id = some a
  warnings :
    left = rs.entries.flatMap fun e => e.2.warnings e.1

theorem Becomes.ids_eq
    {rs : List (String × JokerRecord)}
    {as : List Ability}
    {left : List String}
    (hBecomes : Becomes rs as left) :
    as.map Ability.id = rs.map Prod.fst := by
  induction hBecomes with
  | nil => rfl
  | cons hHead hTail ih =>
      rw [List.map_cons, List.map_cons, ih, hHead.id_eq]

theorem Becomes.warnings_eq
    {rs : List (String × JokerRecord)}
    {as : List Ability}
    {left : List String}
    (hBecomes : Becomes rs as left) :
    left = rs.flatMap fun e => e.2.warnings e.1 := by
  induction hBecomes with
  | nil => rfl
  | cons hHead hTail ih =>
      rw [List.flatMap_cons, hHead.warnings_eq, ← ih]

/- Each of the records becomes one of the jokers. -/
theorem Becomes.exists_of_mem
    {rs : List (String × JokerRecord)}
    {as : List Ability}
    {left : List String}
    (hBecomes : Becomes rs as left)
    {id : String}
    {r : JokerRecord}
    (hMem : (id, r) ∈ rs) :
    ∃ a ∈ as, r.Becomes id a (r.warnings id) := by
  induction hBecomes with
  | nil => contradiction
  | cons hHead hTail ih =>
      rcases List.mem_cons.mp hMem with hFirst | hLater
      · cases hFirst
        refine ⟨_, List.mem_cons_self, ?_⟩
        rw [hHead.warnings_eq]
        exact hHead
      · rcases ih hLater with ⟨a, hJoker, hRecord⟩
        exact ⟨a, List.mem_cons_of_mem _ hJoker, hRecord⟩

/- Records that become jokers fill the catalog. -/
theorem completes_of_becomes
    {rs : Dictionary JokerRecord}
    {as : List Ability}
    {left : List String}
    (hBecomes : Becomes rs.entries as left) :
    Completes rs (Catalog.ofList as) left := by
  have hAscending : as.Pairwise fun a b => a.id < b.id := by
    rw [← List.pairwise_map (f := Ability.id),
      hBecomes.ids_eq]
    exact List.pairwise_map.mpr rs.hAscending
  have hList := Catalog.toList_ofList hAscending
  refine ⟨?_, ?_, hBecomes.warnings_eq⟩
  · rw [Catalog.ids_eq_map_toList, hList, hBecomes.ids_eq]
    rfl
  · intro id r hFound
    rcases hBecomes.exists_of_mem
        (Dictionary.get?_eq_some_iff.mp hFound) with
      ⟨a, hJoker, hRecord⟩
    refine ⟨a, hRecord.built, ?_⟩
    rw [← hRecord.id_eq]
    exact (Catalog.filed_ofList as).get?_id (by rwa [hList])

------------------------------------------------------------
-- The First Unsound Record
------------------------------------------------------------

/-
  The unsound record with the least identifier is the error,
  and the jokers of lesser identifiers have left warnings.
-/
structure StopsAt
    (rs : Dictionary JokerRecord)
    (id : String)
    (r : JokerRecord)
    (f : Fault)
    (left : List String) : Prop where
  entry : rs.get? id = some r
  unsound : ¬ r.Sound id
  least :
    ∀ id' r', rs.get? id' = some r' → ¬ r'.Sound id' →
      id' = id ∨ Text.bytes id < Text.bytes id'
  error : ∃ e, r.build id = .error e ∧ f = .record e
  built :
    ∀ id' r', rs.get? id' = some r' →
      Text.bytes id' < Text.bytes id → ∃ a, r'.Built id' a
  warnings :
    left =
      (rs.entries.filter fun e =>
        Text.bytes e.1 < Text.bytes id).flatMap
          fun e => e.2.warnings e.1

theorem Becomes.sound_of_mem
    {rs : List (String × JokerRecord)}
    {as : List Ability}
    {left : List String}
    (hBecomes : Becomes rs as left)
    {id : String}
    {r : JokerRecord}
    (hMem : (id, r) ∈ rs) :
    r.Sound id := by
  rcases hBecomes.exists_of_mem hMem with ⟨a, -, hRecord⟩
  exact hRecord.sound

/- The entries below one of them are those before it. -/
theorem filter_lt_of_split
    {rs : Dictionary JokerRecord}
    {before after : List (String × JokerRecord)}
    {id : String}
    {r : JokerRecord}
    (hEntries : rs.entries = before ++ (id, r) :: after) :
    (rs.entries.filter fun e =>
      Text.bytes e.1 < Text.bytes id) = before := by
  have hAscending := rs.hAscending
  rw [hEntries] at hAscending ⊢
  rcases List.pairwise_append.mp hAscending with
    ⟨-, hLater, hBelow⟩
  have hFront :
      before.filter (fun e =>
        Text.bytes e.1 < Text.bytes id) = before := by
    refine List.filter_eq_self.mpr fun e hMem => ?_
    exact decide_eq_true (Text.bytes_lt_bytes_iff.mpr
      (hBelow e hMem (id, r) List.mem_cons_self))
  have hBack :
      ((id, r) :: after).filter (fun e =>
        Text.bytes e.1 < Text.bytes id) = [] := by
    refine List.filter_eq_nil_iff.mpr fun e hMem => ?_
    rw [decide_eq_true_eq, Text.bytes_lt_bytes_iff]
    rcases List.mem_cons.mp hMem with rfl | hAfter
    · exact String.lt_irrefl id
    · exact lt_asymm
        ((List.pairwise_cons.mp hLater).1 e hAfter)
  rw [List.filter_append, hFront, hBack, List.append_nil]

theorem mem_before_of_lt
    {rs : Dictionary JokerRecord}
    {before after : List (String × JokerRecord)}
    {id id' : String}
    {r r' : JokerRecord}
    (hEntries : rs.entries = before ++ (id, r) :: after)
    (hFound : rs.get? id' = some r')
    (hBelow : Text.bytes id' < Text.bytes id) :
    (id', r') ∈ before := by
  rw [← filter_lt_of_split hEntries]
  exact List.mem_filter.mpr
    ⟨Dictionary.get?_eq_some_iff.mp hFound,
      decide_eq_true hBelow⟩

/- Records stop where the least unsound one stands. -/
theorem stopsAt_of_split
    {rs : Dictionary JokerRecord}
    {before after : List (String × JokerRecord)}
    {id : String}
    {r : JokerRecord}
    {e : RecordError}
    {as : List Ability}
    {left : List String}
    (hEntries : rs.entries = before ++ (id, r) :: after)
    (hBefore : Becomes before as left)
    (hRefused : r.Refused id e) :
    StopsAt rs id r (.record e) left where
  entry := by
    rw [Dictionary.get?_eq_some_iff, hEntries]
    exact List.mem_append_right before List.mem_cons_self
  unsound := hRefused.not_sound
  least := by
    intro id' r' hFound hUnsound
    rcases lt_trichotomy id' id with
      hBelow | hSame | hAbove
    · have hMem :=
        mem_before_of_lt hEntries hFound
          (Text.bytes_lt_bytes_iff.mpr hBelow)
      exact absurd (hBefore.sound_of_mem hMem) hUnsound
    · exact Or.inl hSame
    · exact Or.inr (Text.bytes_lt_bytes_iff.mpr hAbove)
  error := ⟨e, hRefused.build_eq, rfl⟩
  built := by
    intro id' r' hFound hBelow
    rcases hBefore.exists_of_mem
        (mem_before_of_lt hEntries hFound hBelow) with
      ⟨a, -, hRecord⟩
    exact ⟨a, hRecord.built⟩
  warnings := by
    rw [filter_lt_of_split hEntries]
    exact hBefore.warnings_eq

------------------------------------------------------------
-- Texts
------------------------------------------------------------

/- The records of a text may be listed in any order. -/
theorem records?_eq_of_sameText
    {s t : String}
    (hSame : Json.SameText s t) :
    records? s = records? t :=
  (Json.unordered_dictionary?
    (JokerRecord.unordered_ofStored? 1)).readText_eq hSame

/- A catalog that a text gives has all of its records. -/
theorem completes_of_parse
    {s : String}
    {rs : Dictionary JokerRecord}
    {c : Catalog}
    (hRecords : records? s = some rs)
    (hBuilt : (parse s).1 = .ok c) :
    Completes rs c (parse s).2 := by
  have hParse := parse_of_records hRecords
  rcases buildAll_cases rs.entries with
    ⟨as, left, hBecomes⟩ |
      ⟨before, id, r, after, e, as, left, hEntries, hBefore,
        hRefused⟩
  · rw [hBecomes.buildAll_eq] at hParse
    rw [hParse] at hBuilt ⊢
    cases hBuilt
    exact completes_of_becomes hBecomes
  · rw [hEntries, buildAll_of_split hBefore hRefused] at hParse
    rw [hParse] at hBuilt
    cases hBuilt

/- So each of its jokers is built from the record there. -/
theorem Completes.exists_built
    {rs : Dictionary JokerRecord}
    {c : Catalog}
    {left : List String}
    (hCompletes : Completes rs c left)
    {id : String}
    {a : Ability}
    (hJoker : c.get? id = some a) :
    ∃ r, rs.get? id = some r ∧ r.Built id a := by
  have hKey : id ∈ c.ids :=
    Dictionary.mem_keys_iff.mpr ⟨a, hJoker⟩
  rw [hCompletes.ids] at hKey
  rcases Dictionary.mem_keys_iff.mp hKey with ⟨r, hRecord⟩
  rcases hCompletes.built id r hRecord with
    ⟨b, hBuilt, hSame⟩
  rw [hJoker] at hSame
  cases hSame
  exact ⟨r, hRecord, hBuilt⟩

/-
  A text of records gives the whole catalog, or the error of
  the least unsound record.
-/
theorem catalog_all_or_nothing
    {s : String}
    {rs : Dictionary JokerRecord}
    (hRecords : records? s = some rs) :
    (rs.keys.Pairwise fun j k => Text.bytes j < Text.bytes k) ∧
      ((∃ c, (parse s).1 = .ok c) ↔
        ∀ id r, rs.get? id = some r → r.Sound id) ∧
      (∀ c, (parse s).1 = .ok c →
        Completes rs c (parse s).2) ∧
      (∀ f, (parse s).1 = .error f →
        ∃ id r, StopsAt rs id r f (parse s).2) ∧
      ∀ t, Json.SameText s t → parse t = parse s := by
  have hParse := parse_of_records hRecords
  have hOrder :
      rs.keys.Pairwise fun j k =>
        Text.bytes j < Text.bytes k :=
    (List.pairwise_map.mpr rs.hAscending).imp
      Text.bytes_lt_bytes_iff.mpr
  have hSame :
      ∀ t, Json.SameText s t → parse t = parse s := by
    intro t hText
    rw [hParse, parse_of_records]
    rw [← records?_eq_of_sameText hText, hRecords]
  rcases buildAll_cases rs.entries with
    ⟨as, left, hBecomes⟩ |
      ⟨before, id, r, after, e, as, left, hEntries, hBefore,
        hRefused⟩
  · rw [hBecomes.buildAll_eq] at hParse
    refine ⟨hOrder, ?_, ?_, ?_, hSame⟩
    · refine ⟨fun _ id r hFound => ?_, fun _ => ?_⟩
      · exact hBecomes.sound_of_mem
          (Dictionary.get?_eq_some_iff.mp hFound)
      · rw [hParse]
        exact ⟨_, rfl⟩
    · exact fun c => completes_of_parse hRecords
    · intro f hFault
      rw [hParse] at hFault
      cases hFault
  · rw [hEntries, buildAll_of_split hBefore hRefused] at hParse
    have hStops := stopsAt_of_split hEntries hBefore hRefused
    refine ⟨hOrder, ?_, ?_, ?_, hSame⟩
    · refine ⟨fun hBuilt => ?_, fun hSound => ?_⟩
      · rw [hParse] at hBuilt
        rcases hBuilt with ⟨c, hBuilt⟩
        cases hBuilt
      · exact absurd (hSound id r hStops.entry) hStops.unsound
    · exact fun c => completes_of_parse hRecords
    · intro f hFault
      rw [hParse] at hFault ⊢
      cases hFault
      exact ⟨id, r, hStops⟩

/- A record whose parameters are a list. -/
def badRecord : String × Json :=
  ("b", .object
    [("effect_id", .string "FlatMult"),
      ("params", .array [.whole 4])])

/- A record without an effect. -/
def idleRecord : String × Json :=
  ("a", .object [])

/- The bad record is the error, wherever it is listed. -/
theorem catalog_all_or_nothing_badRecord :
    ∃ rs r f,
      records? (Json.object [badRecord, idleRecord]).compact =
          some rs ∧
        StopsAt rs "b" r f
          ["ability a is inert: no effect id"] ∧
        parse (Json.object [idleRecord, badRecord]).compact =
          parse
            (Json.object [badRecord, idleRecord]).compact := by
  have hBad : badRecord.2.Plain := by
    refine .object ?_
    simp only [List.forall_mem_cons, List.not_mem_nil,
      false_implies, implies_true, and_true]
    exact ⟨.string _, .array (by
      simpa using .whole (by decide) (by decide))⟩
  have hIdle : idleRecord.2.Plain :=
    .object (by simp)
  have hFirst :
      (Json.object [badRecord, idleRecord]).Plain :=
    .object (by simp [hBad, hIdle])
  have hOther :
      (Json.object [idleRecord, badRecord]).Plain :=
    .object (by simp [hBad, hIdle])
  have hRecords :
      records? (Json.object [badRecord, idleRecord]).compact =
        some (.ofList
          [("a", ⟨"Unknown", "", 0, 0, "", .null⟩),
            ("b", ⟨"Unknown", "", 0, 0, "FlatMult",
              .array [.whole 4]⟩)]) := by
    rw [records?, hFirst.parse_compact]
    rfl
  have hParse :
      parse (Json.object [badRecord, idleRecord]).compact =
        (.error (.record (.badParams "b" (.array [.whole 4]))),
          ["ability a is inert: no effect id"]) := by
    rw [parse_of_records hRecords]
    rfl
  rcases catalog_all_or_nothing hRecords with
    ⟨-, -, -, hStops, hSame⟩
  rcases hStops _ (congrArg Prod.fst hParse) with
    ⟨id, r, hStop⟩
  rw [hParse] at hStop hSame
  have hId : id = "b" := by
    rcases List.mem_cons.mp
        (Dictionary.get?_eq_some_iff.mp hStop.entry) with
      hIdler | hOnly
    · cases hIdler
      exact absurd ⟨by decide, [], Or.inl ⟨rfl, rfl⟩⟩
        hStop.unsound
    · exact congrArg Prod.fst (List.mem_singleton.mp hOnly)
  subst hId
  refine ⟨_, r, _, hRecords, hStop, ?_⟩
  rw [hParse]
  exact hSame _ ⟨_, _, hFirst.parse_compact,
    hOther.parse_compact,
    Json.sameMembers_of_perm (.swap _ _ []) (by decide)⟩

end JokerTable

end JokerRun
