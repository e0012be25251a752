import JokerRun.Proofs.Content.JokerTable
import JokerRun.Proofs.Content.Params

/-
  Which records become inert jokers.

  Each kind of effect has its names and what it demands of
  its parameters.  A record with a name and with usable
  parameters always becomes a joker; the joker is inert if
  no kind has the name that the record gives, or if a
  parameter does not meet what its kind demands.  No other
  parameter counts.

  Key definitions include:
    * `EffectKind.names`
    * `EffectKind.demands`
    * `EffectKind.Describes`
    * `JokerRecord.Unfit`

  Key theorems include:
    * `EffectKind.effect_eq_ok_iff`
    * `EffectKind.exists_effect_iff`
    * `EffectKind.effect_congr`
    * `JokerRecord.unfit_iff`
    * `JokerRecord.inert_iff_unfit`
-/

------------------------------------------------------------
-- Names
------------------------------------------------------------

namespace JokerRun

namespace EffectKind

/- The names of a kind. -/
def names : EffectKind → List String
  | .flatMult => ["SimpleMult", "FlatMult"]
  | .suitConditionalMult => ["SuitMult", "SuitConditionalMult"]
  | .countScaledMult => ["AbstractJoker", "CountScaledMult"]
  | .discardRankRebate => ["DiscardRebate", "DiscardRankRebate"]
  | .flatChips => ["FlatChips"]
  | .multFactor => ["XMult", "MultFactor"]
  | .heldRankMult => ["HeldRankMult"]

theorem ofId?_eq_some_iff
    {s : String}
    {k : EffectKind} :
    ofId? s = some k ↔ s ∈ k.names := by
  constructor
  · intro hKind
    unfold ofId? at hKind
    split at hKind <;> cases hKind <;> decide
  · intro hName
    cases k <;>
      (simp only [names, List.mem_cons, List.not_mem_nil,
        or_false] at hName
       rcases hName with rfl | rfl <;> rfl)

------------------------------------------------------------
-- Demands
------------------------------------------------------------

end EffectKind

/- What the value under a key must be. -/
inductive Demand where
  | integer (key : String)
  | number (key : String)
  | suit (key : String)
  | rank (key : String)
deriving DecidableEq, Repr

namespace Demand

/- The key of a demand. -/
def key : Demand → String
  | .integer key => key
  | .number key => key
  | .suit key => key
  | .rank key => key

/-
  Parameters that meet a demand.  Only a rank must be
  present; any other value may be absent.
-/
def Met
    (ps : Params) : Demand → Prop
  | .integer key =>
      ∀ v, ps.lookup key = some v → ∃ k, v.Stands k
  | .number key =>
      ∀ v, ps.lookup key = some v → ∃ x, v.Measures x
  | .suit key =>
      ∀ v, ps.lookup key = some v → ∃ s, v.NamesSuit s
  | .rank key =>
      ∃ v, ps.lookup key = some v ∧ v.IsRank

section

variable {ps : Params}
variable {key : String}

theorem met_integer_iff :
    (integer key).Met ps ↔
      ∃ a, ps.Reads key 0 Json.CountsAs a := by
  rw [Params.exists_reads_iff]
  exact forall₂_congr fun v _ => Json.exists_countsAs_iff.symm

theorem met_number_iff :
    (number key).Met ps ↔
      ∃ x, ps.Reads key (Binary64.ofInt 1) Json.Measures x :=
  Params.exists_reads_iff.symm

theorem met_suit_iff :
    (suit key).Met ps ↔
      ∃ s, ps.Reads key .spades Json.NamesSuit s :=
  Params.exists_reads_iff.symm

theorem met_rank_iff :
    (rank key).Met ps ↔ ∃ r, ps.ReadsRank key r :=
  Params.exists_readsRank_iff.symm

end

end Demand

namespace EffectKind

/- What a kind demands of its parameters. -/
def demands
    (ps : Params) : EffectKind → List Demand
  | .flatMult => [.integer "amount"]
  | .suitConditionalMult => [.integer "amount", .suit "suit"]
  | .countScaledMult =>
      if (ps.lookup "per_unit").isSome then
        [.integer "per_unit"]
      else
        [.integer "amount"]
  | .discardRankRebate => [.integer "dollars", .rank "rank"]
  | .flatChips => [.integer "amount"]
  | .multFactor => [.number "factor"]
  | .heldRankMult => [.integer "amount", .rank "rank"]

/- The effect that parameters describe. -/
inductive Describes
    (ps : Params) : EffectKind → Effect → Prop where
  | flatMult
      {a : Int}
      (hAmount : ps.Reads "amount" 0 Json.CountsAs a) :
      Describes ps .flatMult (.flatMult a)
  | suitConditionalMult
      {a : Int}
      {s : Suit}
      (hAmount : ps.Reads "amount" 0 Json.CountsAs a)
      (hSuit : ps.Reads "suit" .spades Json.NamesSuit s) :
      Describes ps .suitConditionalMult
        (.suitConditionalMult a s)
  | perUnit
      {a : Int}
      (hPresent : (ps.lookup "per_unit").isSome)
      (hAmount : ps.Reads "per_unit" 0 Json.CountsAs a) :
      Describes ps .countScaledMult (.countScaledMult a)
  | perUnitAmount
      {a : Int}
      (hAbsent : ps.lookup "per_unit" = none)
      (hAmount : ps.Reads "amount" 0 Json.CountsAs a) :
      Describes ps .countScaledMult (.countScaledMult a)
  | discardRankRebate
      {d : Int}
      {r : Rank}
      (hDollars : ps.Reads "dollars" 0 Json.CountsAs d)
      (hRank : ps.ReadsRank "rank" r) :
      Describes ps .discardRankRebate (.discardRankRebate d r)
  | flatChips
      {a : Int}
      (hAmount : ps.Reads "amount" 0 Json.CountsAs a) :
      Describes ps .flatChips (.flatChips a)
  | multFactor
      {x : Binary64}
      (hFactor :
        ps.Reads "factor" (Binary64.ofInt 1) Json.Measures x) :
      Describes ps .multFactor (.multFactor x)
  | heldRankMult
      {a : Int}
      {r : Rank}
      (hAmount : ps.Reads "amount" 0 Json.CountsAs a)
      (hRank : ps.ReadsRank "rank" r) :
      Describes ps .heldRankMult (.heldRankMult a r)

/- A chain of readings succeeds if each of them does. -/
theorem bind_eq_ok_iff
    {α β : Type}
    {x : Except InertReason α}
    {f : α → Except InertReason β}
    {b : β} :
    (x >>= f) = .ok b ↔ ∃ a, x = .ok a ∧ f a = .ok b := by
  constructor
  · intro hBind
    cases x with
    | error reason => cases hBind
    | ok a => exact ⟨a, rfl, hBind⟩
  · rintro ⟨a, rfl, hLater⟩
    exact hLater

theorem pure_eq_ok_iff
    {e f : Effect} :
    (pure e : Except InertReason Effect) = .ok f ↔ e = f := by
  constructor
  · exact Except.ok.inj
  · rintro rfl
    rfl

/- The effect of a kind is the one that is described. -/
theorem effect_eq_ok_iff
    {ps : Params}
    {k : EffectKind}
    {e : Effect} :
    k.effect ps = .ok e ↔ k.Describes ps e := by
  constructor
  · -- Each kind is a chain of one or two readings.
    intro hEffect
    cases k <;>
      simp only [effect, bind_eq_ok_iff, pure_eq_ok_iff,
        Params.integer_eq_ok_iff, Params.number_eq_ok_iff,
        Params.suit_eq_ok_iff, Params.rank_eq_ok_iff]
        at hEffect
    case flatMult =>
      rcases hEffect with ⟨a, hAmount, rfl⟩
      exact .flatMult hAmount
    case suitConditionalMult =>
      rcases hEffect with ⟨a, hAmount, s, hSuit, rfl⟩
      exact .suitConditionalMult hAmount hSuit
    case countScaledMult =>
      rcases hEffect with ⟨a, hAmount, rfl⟩
      unfold Params.perUnitKey at hAmount
      split at hAmount
      · exact .perUnit ‹_› hAmount
      · exact .perUnitAmount
          (Option.not_isSome_iff_eq_none.mp ‹_›) hAmount
    case discardRankRebate =>
      rcases hEffect with ⟨d, hDollars, r, hRank, rfl⟩
      exact .discardRankRebate hDollars hRank
    case flatChips =>
      rcases hEffect with ⟨a, hAmount, rfl⟩
      exact .flatChips hAmount
    case multFactor =>
      rcases hEffect with ⟨x, hFactor, rfl⟩
      exact .multFactor hFactor
    case heldRankMult =>
      rcases hEffect with ⟨a, hAmount, r, hRank, rfl⟩
      exact .heldRankMult hAmount hRank
  · intro hDescribes
    cases hDescribes <;>
      simp only [effect, bind_eq_ok_iff, pure_eq_ok_iff,
        Params.integer_eq_ok_iff, Params.number_eq_ok_iff,
        Params.suit_eq_ok_iff, Params.rank_eq_ok_iff]
    case flatMult hAmount => exact ⟨_, hAmount, rfl⟩
    case suitConditionalMult hAmount hSuit =>
      exact ⟨_, hAmount, _, hSuit, rfl⟩
    case perUnit hPresent hAmount =>
      rw [Params.perUnitKey, if_pos hPresent]
      exact ⟨_, hAmount, rfl⟩
    case perUnitAmount hAbsent hAmount =>
      rw [Params.perUnitKey, hAbsent]
      exact ⟨_, hAmount, rfl⟩
    case discardRankRebate hDollars hRank =>
      exact ⟨_, hDollars, _, hRank, rfl⟩
    case flatChips hAmount => exact ⟨_, hAmount, rfl⟩
    case multFactor hFactor => exact ⟨_, hFactor, rfl⟩
    case heldRankMult hAmount hRank =>
      exact ⟨_, hAmount, _, hRank, rfl⟩

/- The readings of a kind, and none other, are demanded. -/
theorem exists_effect_iff
    {ps : Params}
    {k : EffectKind} :
    (∃ e, k.effect ps = .ok e) ↔
      ∀ d ∈ k.demands ps, d.Met ps := by
  cases k with
  | countScaledMult =>
      -- What is present decides which key is demanded.
      cases hValue : ps.lookup "per_unit" <;>
        simp [effect, -bind_pure_comp, bind_eq_ok_iff,
          pure_eq_ok_iff, Params.integer_eq_ok_iff,
          Params.perUnitKey, demands,
          Demand.met_integer_iff, hValue]
  | multFactor =>
      simp [effect, -bind_pure_comp, bind_eq_ok_iff,
        pure_eq_ok_iff, Params.number_eq_ok_iff, demands,
        Demand.met_number_iff]
  | _ =>
      simp [effect, -bind_pure_comp, bind_eq_ok_iff,
        pure_eq_ok_iff, Params.integer_eq_ok_iff,
        Params.suit_eq_ok_iff, Params.rank_eq_ok_iff,
        demands, Demand.met_integer_iff,
        Demand.met_suit_iff, Demand.met_rank_iff]

------------------------------------------------------------
-- Keys
------------------------------------------------------------

/- The keys that a kind looks up. -/
def keysRead
    (ps : Params) : EffectKind → List String
  | .countScaledMult =>
      if (ps.lookup "per_unit").isSome then ["per_unit"]
      else ["per_unit", "amount"]
  | k => (k.demands ps).map Demand.key

/- Only the values under these keys count. -/
theorem effect_congr
    {ps qs : Params}
    {k : EffectKind}
    (hSame :
      ∀ key ∈ k.keysRead ps, qs.lookup key = ps.lookup key) :
    k.effect qs = k.effect ps := by
  cases k with
  | countScaledMult =>
      cases hValue : ps.lookup "per_unit" with
      | some v =>
          simp only [keysRead, hValue, Option.isSome_some,
            if_true, List.forall_mem_singleton] at hSame
          simp only [effect, Params.integer, Params.perUnitKey,
            hSame, hValue, Option.isSome_some, if_true]
      | none =>
          simp only [keysRead, hValue, Option.isSome_none,
            Bool.false_eq_true, if_false,
            List.forall_mem_cons] at hSame
          simp only [effect, Params.integer, Params.perUnitKey,
            hSame, hValue, Option.isSome_none,
            Bool.false_eq_true, if_false]
  | _ =>
      simp only [keysRead, demands, List.map_cons,
        List.map_nil, Demand.key,
        List.forall_mem_cons] at hSame
      simp only [effect, Params.integer, Params.number,
        Params.suit, Params.rank, hSame]

end EffectKind

------------------------------------------------------------
-- Records
------------------------------------------------------------

namespace JokerRecord

/-
  A record without an effect: none is named, an unknown one
  is, or one whose demands are not met.
-/
def Unfit
    (r : JokerRecord)
    (ps : Params) : Prop :=
  r.effectId = "" ∨
    (∀ k : EffectKind, r.effectId ∉ k.names) ∨
    ∃ k : EffectKind, r.effectId ∈ k.names ∧
      ∃ d ∈ k.demands ps, ¬ d.Met ps

/- A record that names a kind has what the kind gives. -/
theorem effect_of_mem_names
    {r : JokerRecord}
    {k : EffectKind}
    (hName : r.effectId ∈ k.names)
    (ps : Params) :
    r.effect ps = k.effect ps := by
  have hKind := EffectKind.ofId?_eq_some_iff.mpr hName
  have hNonempty : r.effectId ≠ "" := by
    intro hEmpty
    rw [hEmpty] at hKind
    cases hKind
  simp only [effect, hNonempty, if_false, hKind]

/- A record whose name is unknown has no effect. -/
theorem effect_ne_ok_of_unknown
    {r : JokerRecord}
    (hUnknown : ∀ k : EffectKind, r.effectId ∉ k.names)
    (ps : Params)
    (e : Effect) :
    r.effect ps ≠ .ok e := by
  intro hEffect
  have hNone : EffectKind.ofId? r.effectId = none := by
    refine Option.eq_none_iff_forall_ne_some.mpr ?_
    intro k hKind
    exact hUnknown k (EffectKind.ofId?_eq_some_iff.mp hKind)
  simp only [effect, hNone] at hEffect
  split at hEffect <;> cases hEffect

theorem effect_eq_ok_iff
    {r : JokerRecord}
    {ps : Params}
    {e : Effect} :
    r.effect ps = .ok e ↔
      ∃ k : EffectKind, r.effectId ∈ k.names ∧
        k.Describes ps e := by
  by_cases hKnown : ∃ k : EffectKind, r.effectId ∈ k.names
  · rcases hKnown with ⟨k, hName⟩
    rw [effect_of_mem_names hName]
    constructor
    · intro hEffect
      exact ⟨k, hName, EffectKind.effect_eq_ok_iff.mp hEffect⟩
    · rintro ⟨k', hOther, hDescribes⟩
      rw [← effect_of_mem_names hName,
        effect_of_mem_names hOther]
      exact EffectKind.effect_eq_ok_iff.mpr hDescribes
  · have hUnknown := not_exists.mp hKnown
    constructor
    · intro hEffect
      exact absurd hEffect
        (effect_ne_ok_of_unknown hUnknown ps e)
    · rintro ⟨k, hName, -⟩
      exact absurd hName (hUnknown k)

/- An unfit record has no effect, any other one has. -/
theorem unfit_iff
    {r : JokerRecord}
    {ps : Params} :
    r.Unfit ps ↔ ¬ ∃ e, r.effect ps = .ok e := by
  by_cases hKnown : ∃ k : EffectKind, r.effectId ∈ k.names
  · rcases hKnown with ⟨k, hName⟩
    rw [effect_of_mem_names hName,
      EffectKind.exists_effect_iff]
    constructor
    · rintro (hEmpty | hUnknown | ⟨k', hOther, hUnmet⟩)
      · rw [hEmpty] at hName
        cases EffectKind.ofId?_eq_some_iff.mpr hName
      · exact absurd hName (hUnknown k)
      · have hSame :=
          EffectKind.ofId?_eq_some_iff.mpr hOther
        rw [EffectKind.ofId?_eq_some_iff.mpr hName] at hSame
        cases hSame
        rcases hUnmet with ⟨d, hDemand, hUnmet⟩
        exact fun hMet => hUnmet (hMet d hDemand)
    · intro hUnmet
      refine Or.inr (Or.inr ⟨k, hName, ?_⟩)
      by_contra hNone
      refine hUnmet fun d hDemand => ?_
      by_contra hNot
      exact hNone ⟨d, hDemand, hNot⟩
  · have hUnknown := not_exists.mp hKnown
    refine ⟨fun _ => ?_, fun _ => Or.inr (Or.inl hUnknown)⟩
    rintro ⟨e, hEffect⟩
    exact effect_ne_ok_of_unknown hUnknown ps e hEffect

section

variable {id : String}
variable {r : JokerRecord}
variable {ps : Params}
variable {a : Ability}
variable {left : List String}

/- A joker has the fields of its record. -/
theorem Becomes.fields
    (hBecomes : r.Becomes id a left) :
    a.id = id ∧ a.name = r.name ∧ a.description = r.text ∧
      a.cost = r.cost ∧ a.atlasIndex = r.atlasId := by
  cases hBecomes <;> exact ⟨rfl, rfl, rfl, rfl, rfl⟩

/- A joker has the effect of its record, if there is one. -/
theorem Becomes.effect_eq_some_iff
    (hBecomes : r.Becomes id a left)
    (hParams : r.HasParams ps)
    {e : Effect} :
    a.effect = some e ↔ r.effect ps = .ok e := by
  have hUsable := params?_eq_some_iff.mpr hParams
  cases hBecomes with
  | working _ hOwn hEffect =>
      rw [hUsable] at hOwn
      cases hOwn
      simp only [hEffect, ability, Option.some.injEq,
        Except.ok.injEq]
  | inert _ hOwn hEffect =>
      rw [hUsable] at hOwn
      cases hOwn
      simp only [hEffect, ability, reduceCtorEq]

theorem Becomes.isInert_iff
    (hBecomes : r.Becomes id a left)
    (hParams : r.HasParams ps) :
    a.isInert = true ↔ r.Unfit ps := by
  rw [unfit_iff, Ability.isInert, Option.isNone_iff_eq_none,
    Option.eq_none_iff_forall_ne_some, not_exists]
  exact forall_congr' fun e =>
    not_congr (hBecomes.effect_eq_some_iff hParams)

/- Any record that is built becomes what is built. -/
theorem becomes_of_build
    (hBuild : r.build id = .ok (a, left)) :
    r.Becomes id a left := by
  rcases build_cases id r with
    ⟨e, -, hError⟩ | ⟨a', left', hBecomes, hBuilt⟩
  · rw [hBuild] at hError
    cases hError
  · rw [hBuild] at hBuilt
    cases hBuilt
    exact hBecomes

/- Jokers of one kind with the same values have one effect. -/
theorem Becomes.effect_congr
    {id' : String}
    {r' : JokerRecord}
    {qs : Params}
    {a' : Ability}
    {left' : List String}
    {k : EffectKind}
    (hBecomes : r.Becomes id a left)
    (hParams : r.HasParams ps)
    (hOther : r'.Becomes id' a' left')
    (hOtherParams : r'.HasParams qs)
    (hName : r.effectId ∈ k.names)
    (hOtherName : r'.effectId ∈ k.names)
    (hSame :
      ∀ key ∈ k.keysRead ps,
        qs.lookup key = ps.lookup key) :
    a'.effect = a.effect := by
  refine Option.ext fun e => ?_
  rw [hBecomes.effect_eq_some_iff hParams,
    hOther.effect_eq_some_iff hOtherParams,
    effect_of_mem_names hName, effect_of_mem_names hOtherName,
    EffectKind.effect_congr hSame]

/-
  A record with a name and with usable parameters becomes a
  joker.  The joker is inert, with one warning, if the record
  is unfit; else it has the effect that is described.  Only
  the values under the keys of its kind count.
-/
theorem inert_iff_unfit
    (hNamed : Text.trim id.toList ≠ [])
    (hParams : r.HasParams ps) :
    ∃ a left, r.build id = .ok (a, left) ∧
      (a.id = id ∧ a.name = r.name ∧ a.description = r.text ∧
        a.cost = r.cost ∧ a.atlasIndex = r.atlasId) ∧
      (a.isInert = false ∧ left = [] ∨
        a.isInert = true ∧ ∃ w, left = [w]) ∧
      (a.isInert = true ↔ r.Unfit ps) ∧
      (∀ e, a.effect = some e ↔
        ∃ k : EffectKind, r.effectId ∈ k.names ∧
          k.Describes ps e) ∧
      ∀ (id' : String) (r' : JokerRecord) (qs : Params)
        (a' : Ability) (left' : List String)
        (k : EffectKind),
        r'.HasParams qs → r'.build id' = .ok (a', left') →
        r.effectId ∈ k.names → r'.effectId ∈ k.names →
        (∀ key ∈ k.keysRead ps,
          qs.lookup key = ps.lookup key) →
        a'.effect = a.effect := by
  rcases build_cases id r with
    ⟨e, hRefused, -⟩ | ⟨a, left, hBecomes, hBuild⟩
  · exact absurd ⟨hNamed, ps, hParams⟩ hRefused.not_sound
  · refine ⟨a, left, hBuild, hBecomes.fields,
      hBecomes.isInert_cases, hBecomes.isInert_iff hParams,
      fun e => ?_, ?_⟩
    · rw [hBecomes.effect_eq_some_iff hParams,
        effect_eq_ok_iff]
    · intro id' r' qs a' left' k hOtherParams hOtherBuild
        hName hOtherName hSame
      exact hBecomes.effect_congr hParams
        (becomes_of_build hOtherBuild) hOtherParams hName
        hOtherName hSame

/- A record with an amount but without a suit. -/
def suitless : JokerRecord :=
  ⟨"Unknown", "", 0, 0, "SuitMult",
    .object [("amount", .whole 3)]⟩

/- The suit is spades, and nothing is warned about. -/
theorem inert_iff_unfit_suitless :
    ∃ a, suitless.build "j" = .ok (a, []) ∧
      a.effect = some (.suitConditionalMult 3 .spades) ∧
      ¬ suitless.Unfit [("amount", .whole 3)] := by
  rcases @inert_iff_unfit "j" suitless
      [("amount", .whole 3)] (by decide) (Or.inr rfl) with
    ⟨a, left, hBuild, -, hWarned, hInert, hEffect, -⟩
  have hAmount :
      Params.Reads [("amount", .whole 3)] "amount" 0
        Json.CountsAs (min 3 Amount.highest) :=
    .present rfl (.whole 3)
  have hMult :
      a.effect = some (.suitConditionalMult 3 .spades) :=
    (hEffect _).mpr ⟨.suitConditionalMult, by decide,
      .suitConditionalMult hAmount (.absent rfl)⟩
  have hWorks : a.isInert = false := by
    rw [Ability.isInert, hMult]
    rfl
  rw [hWorks] at hWarned hInert
  rcases hWarned with ⟨-, rfl⟩ | ⟨hNot, -⟩
  · exact ⟨a, hBuild, hMult,
      fun hUnfit => Bool.false_ne_true (hInert.mpr hUnfit)⟩
  · cases hNot

end

end JokerRecord

end JokerRun
