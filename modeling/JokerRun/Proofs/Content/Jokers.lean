import JokerRun.Content.Jokers

/-
  Records become jokers, one after the other.

  A record is refused for a blank identifier or for
  parameters that are no object.  Any other record becomes a
  joker, if need be an inert one with a warning.  Records in
  a row are built up to the first one that is refused.

  Key definitions include:
    * `JokerRecord.Refused`
    * `JokerRecord.Becomes`
    * `JokerTable.Becomes`

  Key theorems include:
    * `JokerRecord.build_cases`
    * `JokerTable.buildAll_cases`
    * `JokerTable.Becomes.buildAll_eq`
    * `JokerTable.buildAll_of_split`
    * `JokerTable.parse_of_records`
-/

------------------------------------------------------------
-- One Record
------------------------------------------------------------

namespace JokerRun

namespace JokerRecord

/- Why a record under an identifier is refused. -/
inductive Refused
    (id : String)
    (r : JokerRecord) : RecordError → Prop where
  | emptyId
      (hBlank : Text.trim id.toList = []) :
      Refused id r .emptyId
  | badParams
      (hNamed : Text.trim id.toList ≠ [])
      (hParams : r.params? = none) :
      Refused id r (.badParams id r.params)

/- The joker that a record becomes, with its warnings. -/
inductive Becomes
    (id : String)
    (r : JokerRecord) : Ability → List String → Prop where
  | working
      {ps : Params}
      {e : Effect}
      (hNamed : Text.trim id.toList ≠ [])
      (hParams : r.params? = some ps)
      (hEffect : r.effect ps = .ok e) :
      Becomes id r (r.ability id (some e)) []
  | inert
      {ps : Params}
      {reason : InertReason}
      (hNamed : Text.trim id.toList ≠ [])
      (hParams : r.params? = some ps)
      (hEffect : r.effect ps = .error reason) :
      Becomes id r (r.ability id none)
        [inertWarning id reason]

/- A record is refused or becomes a joker. -/
theorem build_cases
    (id : String)
    (r : JokerRecord) :
    (∃ e, r.Refused id e ∧ r.build id = .error e) ∨
      ∃ a warnings, r.Becomes id a warnings ∧
        r.build id = .ok (a, warnings) := by
  by_cases hBlank : Text.trim id.toList = []
  · refine Or.inl ⟨_, .emptyId hBlank, ?_⟩
    simp only [build, hBlank, if_true]
  · cases hParams : r.params? with
    | none =>
        refine Or.inl ⟨_, .badParams hBlank hParams, ?_⟩
        simp only [build, hBlank, if_false, hParams]
    | some ps =>
        right
        cases hEffect : r.effect ps with
        | ok e =>
            refine ⟨_, _,
              .working hBlank hParams hEffect, ?_⟩
            simp only [build, hBlank, if_false, hParams,
              hEffect]
        | error reason =>
            refine ⟨_, _, .inert hBlank hParams hEffect, ?_⟩
            simp only [build, hBlank, if_false, hParams,
              hEffect]

/- What a record becomes is what building it gives. -/
theorem Becomes.build_eq
    {id : String}
    {r : JokerRecord}
    {a : Ability}
    {warnings : List String}
    (hBecomes : r.Becomes id a warnings) :
    r.build id = .ok (a, warnings) := by
  cases hBecomes with
  | working hNamed hParams hEffect =>
      simp only [build, hNamed, if_false, hParams, hEffect]
  | inert hNamed hParams hEffect =>
      simp only [build, hNamed, if_false, hParams, hEffect]

theorem Refused.build_eq
    {id : String}
    {r : JokerRecord}
    {e : RecordError}
    (hRefused : r.Refused id e) :
    r.build id = .error e := by
  cases hRefused with
  | emptyId hBlank =>
      simp only [build, hBlank, if_true]
  | badParams hNamed hParams =>
      simp only [build, hNamed, if_false, hParams]

end JokerRecord

------------------------------------------------------------
-- Records In A Row
------------------------------------------------------------

namespace JokerTable

/- The jokers that records become, with all warnings. -/
inductive Becomes :
    List (String × JokerRecord) → List Ability →
      List String → Prop where
  | nil : Becomes [] [] []
  | cons
      {id : String}
      {r : JokerRecord}
      {a : Ability}
      {warnings later : List String}
      {rs : List (String × JokerRecord)}
      {as : List Ability}
      (hHead : r.Becomes id a warnings)
      (hTail : Becomes rs as later) :
      Becomes ((id, r) :: rs) (a :: as) (warnings ++ later)

theorem Becomes.buildAll_eq
    {rs : List (String × JokerRecord)}
    {as : List Ability}
    {warnings : List String}
    (hBecomes : Becomes rs as warnings) :
    buildAll rs = (.ok as, warnings) := by
  induction hBecomes with
  | nil => rfl
  | cons hHead hTail ih =>
      simp only [buildAll, hHead.build_eq, ih]
      rfl

/- Records stop where the first refused one stands. -/
theorem buildAll_of_split
    {before after : List (String × JokerRecord)}
    {id : String}
    {r : JokerRecord}
    {e : RecordError}
    {as : List Ability}
    {warnings : List String}
    (hBefore : Becomes before as warnings)
    (hRefused : r.Refused id e) :
    buildAll (before ++ (id, r) :: after) =
      (.error e, warnings) := by
  induction hBefore with
  | nil => simp only [List.nil_append, buildAll,
      hRefused.build_eq]
  | cons hHead hTail ih =>
      simp only [List.cons_append, buildAll, hHead.build_eq,
        ih]
      rfl

/- All records are built, or some first one is refused. -/
theorem buildAll_cases
    (rs : List (String × JokerRecord)) :
    (∃ as warnings, Becomes rs as warnings) ∨
      ∃ before id r after e as warnings,
        rs = before ++ (id, r) :: after ∧
          Becomes before as warnings ∧ r.Refused id e := by
  induction rs with
  | nil => exact Or.inl ⟨[], [], .nil⟩
  | cons entry rs ih =>
      rcases entry with ⟨id, r⟩
      rcases JokerRecord.build_cases id r with
        ⟨e, hRefused, -⟩ | ⟨a, warnings, hHead, -⟩
      · exact Or.inr ⟨[], id, r, rs, e, [], [], rfl, .nil,
          hRefused⟩
      · rcases ih with
          ⟨as, later, hTail⟩ |
            ⟨before, id', r', after, e, as, later, rfl,
              hBefore, hRefused⟩
        · exact Or.inl ⟨_, _, .cons hHead hTail⟩
        · exact Or.inr ⟨(id, r) :: before, id', r', after,
            e, _, _, rfl, .cons hHead hBefore, hRefused⟩

/- What a text of records gives. -/
theorem parse_of_records
    {s : String}
    {rs : Dictionary JokerRecord}
    (hRecords : records? s = some rs) :
    parse s =
      (((buildAll rs.entries).1.map Catalog.ofList).mapError
        .record, (buildAll rs.entries).2) := by
  simp only [parse, hRecords, build]

end JokerTable

end JokerRun
