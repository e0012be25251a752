import JokerRun.Proofs.Amount
import JokerRun.Proofs.Content.Effects
import JokerRun.Proofs.Json.Range

/-
  How exact the whole parameters of effects are.

  A whole parameter of an effect is the amount nearest to
  the number that the text gives, and so the same number if
  that one is an amount.  A number beyond the range of
  amounts is not refused: the effect has the end of the
  range instead.

  Key definitions include:
    * `Effect.integer?`
    * `JokerRecord.Takes`

  Key theorems include:
    * `JokerTable.records?_bounded`
    * `Json.CountsAs.exists_stands`
    * `EffectKind.Describes.exists_integer`
    * `JokerRecord.takes_of_build`
    * `JokerRecord.exists_takes_of_parse`
    * `JokerRecord.integer_param_is_nearest_amount`
-/

------------------------------------------------------------
-- Bounded Parameters
------------------------------------------------------------

namespace JokerRun

/- The parameters of a record that is read are bounded. -/
theorem JokerRecord.params_bounded
    {around : Nat}
    {v : Json}
    {r : JokerRecord}
    (hBounded : v.Bounded)
    (hRead : ofStored? around v = some r) :
    r.params.Bounded := by
  unfold ofStored? at hRead
  simp only [Option.bind_eq_bind, Option.bind_eq_some_iff,
    Option.pure_def, Option.some.injEq] at hRead
  rcases hRead with
    ⟨fs, hFields, _, -, _, -, _, -, _, -, _, -, params, hParams,
      rfl⟩
  unfold Json.Fields.optional at hParams
  split at hParams
  · cases hParams
    exact .null
  · rename_i w hValue
    unfold Json.freeWithin? at hParams
    split at hParams
    · have hMem := Dictionary.mem_of_lookup hValue
      exact (hBounded.fields? hFields _ hMem).free? hParams
    · cases hParams

/- So are those of the records of a text. -/
theorem JokerTable.records?_bounded
    {s : String}
    {rs : Dictionary JokerRecord}
    {id : String}
    {r : JokerRecord}
    (hRecords : records? s = some rs)
    (hFound : rs.get? id = some r) :
    r.params.Bounded := by
  rcases Option.bind_eq_some_iff.mp hRecords with
    ⟨v, hParse, hMap⟩
  cases Json.parse_bounded hParse with
  | object hMembers =>
      rcases Option.map_eq_some_iff.mp hMap with
        ⟨es, hRead, rfl⟩
      have hEntry :=
        Dictionary.mem_of_mem_ofList
          (Dictionary.get?_eq_some_iff.mp hFound)
      rcases Json.mem_of_mapM hRead _ hEntry with
        ⟨m, hMember, hValue⟩
      rcases Option.map_eq_some_iff.mp hValue with
        ⟨r', hStored, hSame⟩
      cases hSame
      exact JokerRecord.params_bounded
        (hMembers m hMember) hStored
  | _ => cases hMap

------------------------------------------------------------
-- Whole Parameters
------------------------------------------------------------

/- The whole parameter of an effect; a factor is none. -/
def Effect.integer? : Effect → Option Int
  | .flatMult a => some a
  | .suitConditionalMult a _ => some a
  | .countScaledMult a => some a
  | .discardRankRebate d _ => some d
  | .flatChips a => some a
  | .multFactor _ => none
  | .heldRankMult a _ => some a

/- A bounded number counts as the amount nearest to it. -/
theorem Json.CountsAs.exists_stands
    {v : Json}
    {a : Int}
    (hCounts : v.CountsAs a)
    (hBounded : v.Bounded) :
    ∃ m, v.Stands m ∧ a = Amount.clamp m := by
  cases hCounts with
  | whole n =>
      refine ⟨n, .whole n, ?_⟩
      cases hBounded with
      | whole hLow hHigh =>
          unfold lowestWhole at hLow
          unfold Amount.clamp Amount.lowest Amount.highest
          omega
  | real hStands => exact ⟨_, hStands, rfl⟩

/- Where an effect has its whole parameter from. -/
theorem EffectKind.Describes.exists_integer
    {ps : Params}
    {k : EffectKind}
    {e : Effect}
    {n : Int}
    (hDescribes : k.Describes ps e)
    (hParam : e.integer? = some n) :
    ∃ key, .integer key ∈ k.demands ps ∧
      ps.Reads key 0 Json.CountsAs n := by
  cases hDescribes with
  | flatMult hAmount =>
      cases hParam
      exact ⟨_, List.mem_cons_self, hAmount⟩
  | suitConditionalMult hAmount hSuit =>
      cases hParam
      exact ⟨_, List.mem_cons_self, hAmount⟩
  | perUnit hPresent hAmount =>
      cases hParam
      rw [demands, if_pos hPresent]
      exact ⟨_, List.mem_cons_self, hAmount⟩
  | perUnitAmount hAbsent hAmount =>
      cases hParam
      rw [demands, hAbsent]
      exact ⟨_, List.mem_cons_self, hAmount⟩
  | discardRankRebate hDollars hRank =>
      cases hParam
      exact ⟨_, List.mem_cons_self, hDollars⟩
  | flatChips hAmount =>
      cases hParam
      exact ⟨_, List.mem_cons_self, hAmount⟩
  | multFactor hFactor => cases hParam
  | heldRankMult hAmount hRank =>
      cases hParam
      exact ⟨_, List.mem_cons_self, hAmount⟩

namespace JokerRecord

/- The values under the keys of a record are bounded. -/
theorem HasParams.bounded
    {r : JokerRecord}
    {ps : Params}
    (hParams : r.HasParams ps)
    (hBounded : r.params.Bounded)
    {key : String}
    {v : Json}
    (hValue : ps.lookup key = some v) :
    v.Bounded := by
  rcases hParams with ⟨-, rfl⟩ | hObject
  · cases hValue
  · rw [hObject] at hBounded
    cases hBounded with
    | object hMembers =>
        exact hMembers _ (Dictionary.mem_of_lookup hValue)

/-
  A whole parameter taken from a record: nothing under its
  key is zero, and otherwise it is the amount nearest to the
  number there, and so this number if and only if that is an
  amount.
-/
def Takes
    (r : JokerRecord)
    (ps : Params)
    (n : Int) : Prop :=
  ∃ (k : EffectKind) (key : String),
    r.effectId ∈ k.names ∧
    .integer key ∈ k.demands ps ∧
    (ps.lookup key = none ∧ n = 0 ∨
      ∃ v m, ps.lookup key = some v ∧ v.Stands m ∧
        n = Amount.clamp m ∧
        (n = m ↔ Amount.InRange m))

section

variable {id : String}
variable {r : JokerRecord}
variable {ps : Params}
variable {a : Ability}
variable {left : List String}
variable {e : Effect}
variable {n : Int}

/- An effect that works takes its whole parameter so. -/
theorem takes_of_build
    (hParams : r.HasParams ps)
    (hBounded : r.params.Bounded)
    (hBuild : r.build id = .ok (a, left))
    (hEffect : a.effect = some e)
    (hParam : e.integer? = some n) :
    left = [] ∧ r.Takes ps n := by
  have hBecomes := becomes_of_build hBuild
  have hDescribed :=
    (hBecomes.effect_eq_some_iff hParams).mp hEffect
  rcases effect_eq_ok_iff.mp hDescribed with
    ⟨k, hName, hDescribes⟩
  rcases hDescribes.exists_integer hParam with
    ⟨key, hDemand, hReads⟩
  refine ⟨?_, k, key, hName, hDemand, ?_⟩
  · rcases hBecomes.isInert_cases with
      ⟨-, hNone⟩ | ⟨hInert, -⟩
    · exact hNone
    · rw [Ability.isInert, hEffect] at hInert
      cases hInert
  · cases hReads with
    | absent hAbsent => exact Or.inl ⟨hAbsent, rfl⟩
    | present hPresent hCounts =>
        rcases hCounts.exists_stands
            (hParams.bounded hBounded hPresent) with
          ⟨m, hStands, rfl⟩
        exact Or.inr ⟨_, m, hPresent, hStands, rfl,
          Amount.clamp_eq_self_iff⟩

/-
  In a catalog that a text gives, the whole parameters are
  taken from the records of the text.
-/
theorem exists_takes_of_parse
    {s : String}
    {rs : Dictionary JokerRecord}
    {c : Catalog}
    (hRecords : JokerTable.records? s = some rs)
    (hCatalog : (JokerTable.parse s).1 = .ok c)
    (hJoker : c.get? id = some a)
    (hEffect : a.effect = some e)
    (hParam : e.integer? = some n) :
    ∃ r ps, rs.get? id = some r ∧ r.HasParams ps ∧
      r.Takes ps n := by
  have hCompletes :=
    JokerTable.completes_of_parse hRecords hCatalog
  rcases hCompletes.exists_built hJoker with
    ⟨r, hRecord, hBuilt⟩
  rcases (becomes_of_build hBuilt.build).sound.params with
    ⟨ps, hParams⟩
  have hBounded :=
    JokerTable.records?_bounded hRecords hRecord
  exact ⟨r, ps, hRecord, hParams,
    (takes_of_build hParams hBounded hBuilt.build hEffect
      hParam).2⟩

/-
  A whole parameter is the amount nearest to the number under
  its key, and so this number if and only if it is an amount.
  A number beyond the range leaves no warning.
-/
theorem integer_param_is_nearest_amount
    (hParams : r.HasParams ps)
    (hBounded : r.params.Bounded)
    (hBuild : r.build id = .ok (a, left))
    (hEffect : a.effect = some e)
    (hParam : e.integer? = some n) :
    left = [] ∧
      ∃ (k : EffectKind) (key : String),
        r.effectId ∈ k.names ∧
        .integer key ∈ k.demands ps ∧
        (ps.lookup key = none ∧ n = 0 ∨
          ∃ v m, ps.lookup key = some v ∧ v.Stands m ∧
            n = Amount.clamp m ∧
            (n = m ↔ Amount.InRange m)) :=
  takes_of_build hParams hBounded hBuild hEffect hParam

end

/- A record with an amount that is one too large. -/
def oversized : JokerRecord :=
  ⟨"Unknown", "", 0, 0, "FlatMult",
    .object [("amount", .whole 9223372036854775808)]⟩

/- The joker has the largest amount, without a warning. -/
theorem oversized_becomes :
    oversized.Becomes "j"
      (oversized.ability "j" (some (.flatMult Amount.highest)))
      [] := by
  have hAmount :
      Params.Reads [("amount", .whole 9223372036854775808)]
        "amount" 0 Json.CountsAs
        (min 9223372036854775808 Amount.highest) :=
    .present rfl (.whole 9223372036854775808)
  refine .working (by decide) rfl ?_
  exact effect_eq_ok_iff.mpr
    ⟨.flatMult, by decide, .flatMult hAmount⟩

theorem oversized_params_bounded :
    oversized.params.Bounded := by
  refine .object fun m hMem => ?_
  rw [List.mem_singleton.mp hMem]
  exact .whole (by decide) (by decide)

/- The amount that is too large is not refused. -/
theorem integer_param_is_nearest_amount_oversized :
    ∃ a left,
      oversized.build "j" = .ok (a, left) ∧
        a.effect = some (.flatMult Amount.highest) ∧
        left = [] ∧
        ∃ v m,
          List.lookup "amount"
              [("amount", Json.whole 9223372036854775808)] =
            some v ∧
          v.Stands m ∧ Amount.highest = Amount.clamp m ∧
          ¬ Amount.InRange m := by
  have hBuild := oversized_becomes.build_eq
  rcases integer_param_is_nearest_amount (Or.inr rfl)
      oversized_params_bounded hBuild rfl rfl with
    ⟨hSilent, k, key, hName, hDemand, hCases⟩
  have hKind := EffectKind.ofId?_eq_some_iff.mpr hName
  cases hKind
  cases List.mem_singleton.mp hDemand
  rcases hCases with
    ⟨hAbsent, -⟩ | ⟨v, m, hValue, hStands, hNearest, hExact⟩
  · cases hAbsent
  · refine ⟨_, _, hBuild, rfl, hSilent, v, m, hValue,
      hStands, hNearest, fun hRange => ?_⟩
    have hSame := hExact.mpr hRange
    cases hValue
    cases hStands
    exact absurd hSame (by decide)

/- Whole parameters are not always those that are given. -/
theorem integer_param_not_exact :
    ¬ ∀ (id : String) (r : JokerRecord) (ps : Params)
        (a : Ability) (left : List String) (n m : Int)
        (v : Json),
        r.HasParams ps → r.params.Bounded →
          r.build id = .ok (a, left) →
          a.effect = some (.flatMult n) →
          ps.lookup "amount" = some v → v.Stands m →
          n = m := by
  intro hExact
  have hSame :=
    hExact "j" oversized _ _ _ _ 9223372036854775808 _
      (Or.inr rfl) oversized_params_bounded
      oversized_becomes.build_eq rfl rfl (.whole _)
  exact absurd hSame (by decide)

end JokerRecord

end JokerRun
