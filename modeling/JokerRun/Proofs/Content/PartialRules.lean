import JokerRun.Proofs.Content.Assets
import JokerRun.Proofs.Stored.Members

/-
  Rules that are given in part.

  A run has the given rules and the standard ones for the
  rest, whatever else the object says and in whatever order.
  A game without rules for its run has the standard ones,
  and without rules for hands it has none.  What cannot be a
  rule is refused, and no other member makes up for it.

  Key definitions include:
    * `PartialRules`
    * `PartialRules.override` and `PartialRules.Writes`
    * `RunRules.SaidBy` and `RunRules.Faulty`
    * `Rules.Says` and `Rules.Faulty`

  Key theorems include:
    * `RunRules.ofStored?_eq_some_iff`
    * `PartialRules.Writes.ofStored?_eq`
    * `RunRules.Faulty.ofStored?_eq_none`
    * `Rules.ofStored?_eq_some_iff`
    * `PartialRules.override_field_by_field`
-/

------------------------------------------------------------
-- Rules Of A Run By Fields
------------------------------------------------------------

namespace JokerRun

open Json (known present Ranges isWholeIn_of_said
  isWholeIn_of_required isWholeIn_of_amount?
  isWholeIn_of_natTo?)
open Json.Fields (Said said_of_form said_of_lookup
  optional_eq_some_iff)
open Option (bind_eq_some_iff)

namespace RunRules

/- The rules that fields give, each by its own field. -/
structure SaidBy
    (fs : Json.Fields)
    (r : RunRules) : Prop where
  handsPerRound :
    Said standard.handsPerRound Json.nat8?
      (fs.lookup "hands_per_round") r.handsPerRound
  discardsPerRound :
    Said standard.discardsPerRound Json.nat8?
      (fs.lookup "discards_per_round") r.discardsPerRound
  handSize :
    Said standard.handSize Json.nat64?
      (fs.lookup "hand_size") r.handSize
  maxSelection :
    Said standard.maxSelection Json.nat64?
      (fs.lookup "max_selection") r.maxSelection
  startingMoney :
    Said standard.startingMoney Json.amount?
      (fs.lookup "starting_money") r.startingMoney
  startingTarget :
    Said standard.startingTarget Json.amount?
      (fs.lookup "starting_target") r.startingTarget
  targetGrowth :
    Said standard.targetGrowth Json.real?
      (fs.lookup "target_growth") r.targetGrowth
  clearReward :
    Said standard.clearReward Json.amount?
      (fs.lookup "clear_reward") r.clearReward
  jokerSlots :
    Said standard.jokerSlots Json.nat64?
      (fs.lookup "joker_slots") r.jokerSlots
  shopSlots :
    Said standard.shopSlots Json.nat64?
      (fs.lookup "shop_slots") r.shopSlots
  rerollCost :
    Said standard.rerollCost Json.amount?
      (fs.lookup "reroll_cost") r.rerollCost

theorem ofStored?_eq_some_iff
    {v : Json}
    {r : RunRules} :
    ofStored? v = some r ↔
      ∃ fs, v.fields? fieldNames = some fs ∧
        SaidBy fs r := by
  simp only [ofStored?, bind, bind_eq_some_iff, pure,
    optional_eq_some_iff, Option.some.injEq]
  constructor
  · rintro ⟨fs, hFields, hands, hHands, discards, hDiscards,
      size, hSize, selection, hSelection, money, hMoney,
      target, hTarget, growth, hGrowth, reward, hReward,
      jokers, hJokers, offers, hOffers, cost, hCost, rfl⟩
    exact ⟨fs, hFields, hHands, hDiscards, hSize, hSelection,
      hMoney, hTarget, hGrowth, hReward, hJokers, hOffers,
      hCost⟩
  · rintro ⟨fs, hFields, hSaid⟩
    exact ⟨fs, hFields, _, hSaid.handsPerRound,
      _, hSaid.discardsPerRound, _, hSaid.handSize,
      _, hSaid.maxSelection, _, hSaid.startingMoney,
      _, hSaid.startingTarget, _, hSaid.targetGrowth,
      _, hSaid.clearReward, _, hSaid.jokerSlots,
      _, hSaid.shopSlots, _, hSaid.rerollCost, rfl⟩

end RunRules

------------------------------------------------------------
-- Rules Given In Part
------------------------------------------------------------

/- Rules of a run, of which some may not be given. -/
structure PartialRules where
  handsPerRound : Option Nat
  discardsPerRound : Option Nat
  handSize : Option Nat
  maxSelection : Option Nat
  startingMoney : Option Int
  startingTarget : Option Int
  targetGrowth : Option Binary64
  clearReward : Option Int
  jokerSlots : Option Nat
  shopSlots : Option Nat
  rerollCost : Option Int

namespace PartialRules

/- The given rules, and those of `d` for the rest. -/
def override
    (p : PartialRules)
    (d : RunRules) : RunRules where
  handsPerRound := p.handsPerRound.getD d.handsPerRound
  discardsPerRound := p.discardsPerRound.getD d.discardsPerRound
  handSize := p.handSize.getD d.handSize
  maxSelection := p.maxSelection.getD d.maxSelection
  startingMoney := p.startingMoney.getD d.startingMoney
  startingTarget := p.startingTarget.getD d.startingTarget
  targetGrowth := p.targetGrowth.getD d.targetGrowth
  clearReward := p.clearReward.getD d.clearReward
  jokerSlots := p.jokerSlots.getD d.jokerSlots
  shopSlots := p.shopSlots.getD d.shopSlots
  rerollCost := p.rerollCost.getD d.rerollCost

/- The given numbers fit their fields. -/
structure InRange
    (p : PartialRules) : Prop where
  handsPerRound : ∀ n, p.handsPerRound = some n → n ≤ 255
  discardsPerRound :
    ∀ n, p.discardsPerRound = some n → n ≤ 255
  handSize :
    ∀ n, p.handSize = some n → n ≤ Numeral.largest64
  maxSelection :
    ∀ n, p.maxSelection = some n → n ≤ Numeral.largest64
  startingMoney :
    ∀ n, p.startingMoney = some n → Amount.InRange n
  startingTarget :
    ∀ n, p.startingTarget = some n → Amount.InRange n
  clearReward :
    ∀ n, p.clearReward = some n → Amount.InRange n
  jokerSlots :
    ∀ n, p.jokerSlots = some n → n ≤ Numeral.largest64
  shopSlots :
    ∀ n, p.shopSlots = some n → n ≤ Numeral.largest64
  rerollCost :
    ∀ n, p.rerollCost = some n → Amount.InRange n

/- The fields of the rules, where a growth is `growth`. -/
def rows
    (p : PartialRules)
    (growth : Json) : List (String × Option Json) :=
  [("hands_per_round",
      p.handsPerRound.map fun (n : Nat) => .whole n),
    ("discards_per_round",
      p.discardsPerRound.map fun (n : Nat) => .whole n),
    ("hand_size", p.handSize.map fun (n : Nat) => .whole n),
    ("max_selection",
      p.maxSelection.map fun (n : Nat) => .whole n),
    ("starting_money", p.startingMoney.map .whole),
    ("starting_target", p.startingTarget.map .whole),
    ("target_growth", p.targetGrowth.map fun _ => growth),
    ("clear_reward", p.clearReward.map .whole),
    ("joker_slots", p.jokerSlots.map fun (n : Nat) => .whole n),
    ("shop_slots", p.shopSlots.map fun (n : Nat) => .whole n),
    ("reroll_cost", p.rerollCost.map .whole)]

/-
  Members that write the given rules, in any order and among
  any members of other names.  A growth is written as any
  number that stands for it.
-/
def Writes
    (p : PartialRules)
    (ms : List (String × Json)) : Prop :=
  ∃ growth,
    (∀ x, p.targetGrowth = some x → growth.real? = some x) ∧
      (known RunRules.fieldNames ms).Perm
        (present (p.rows growth))

theorem nodup_map_fst_rows
    (p : PartialRules)
    (growth : Json) :
    ((p.rows growth).map Prod.fst).Nodup := by
  have hNames :
      (p.rows growth).map Prod.fst = RunRules.fieldNames := rfl
  rw [hNames]
  decide

/- Each known name stands once and says its rule. -/
theorem lookup_of_perm
    {p : PartialRules}
    {growth : Json}
    {fs : Json.Fields}
    (hPerm : fs.Perm (present (p.rows growth))) :
    (fs.map Prod.fst).Nodup ∧
      ∀ r ∈ p.rows growth, fs.lookup r.1 = r.2 := by
  have hRows := p.nodup_map_fst_rows growth
  have hOnce : (fs.map Prod.fst).Nodup :=
    (hPerm.map Prod.fst).nodup_iff.mpr
      (Json.sublist_map_fst_present.nodup hRows)
  refine ⟨hOnce, ?_⟩
  intro r hMem
  rw [Dictionary.lookup_eq_of_perm hOnce hPerm,
    Json.lookup_present hRows hMem]

/- Rules given in part are read over the standard ones. -/
theorem Writes.ofStored?_eq
    {p : PartialRules}
    {ms : List (String × Json)}
    (hWrites : p.Writes ms)
    (hRange : p.InRange) :
    RunRules.ofStored? (.object ms) =
      some (p.override RunRules.standard) := by
  rcases hWrites with ⟨growth, hGrowth, hPerm⟩
  rcases lookup_of_perm hPerm with ⟨hOnce, hRows⟩
  simp only [rows, List.forall_mem_cons] at hRows
  rcases hRows with ⟨hHands, hDiscards, hSize, hSelection,
    hMoney, hTarget, hFactor, hReward, hJokers, hOffers,
    hCost, -⟩
  refine RunRules.ofStored?_eq_some_iff.mpr ⟨_,
    Json.fields?_object_eq_some_iff.mpr ⟨hOnce, rfl⟩, ?_⟩
  exact
    { handsPerRound :=
        said_of_form .natural8 hHands hRange.handsPerRound
      discardsPerRound :=
        said_of_form .natural8 hDiscards
          hRange.discardsPerRound
      handSize :=
        said_of_form .natural64 hSize hRange.handSize
      maxSelection :=
        said_of_form .natural64 hSelection hRange.maxSelection
      startingMoney :=
        said_of_form .amount hMoney hRange.startingMoney
      startingTarget :=
        said_of_form .amount hTarget hRange.startingTarget
      targetGrowth := said_of_lookup hFactor hGrowth
      clearReward :=
        said_of_form .amount hReward hRange.clearReward
      jokerSlots :=
        said_of_form .natural64 hJokers hRange.jokerSlots
      shopSlots :=
        said_of_form .natural64 hOffers hRange.shopSlots
      rerollCost :=
        said_of_form .amount hCost hRange.rerollCost }

end PartialRules

------------------------------------------------------------
-- Rules That Are Refused
------------------------------------------------------------

namespace RunRules

/- The fields with whole numbers, and their bounds. -/
def wholeFields : Ranges :=
  [("hands_per_round", 0, 255),
    ("discards_per_round", 0, 255),
    ("hand_size", 0, Numeral.largest64),
    ("max_selection", 0, Numeral.largest64),
    ("starting_money", Amount.lowest, Amount.highest),
    ("starting_target", Amount.lowest, Amount.highest),
    ("clear_reward", Amount.lowest, Amount.highest),
    ("joker_slots", 0, Numeral.largest64),
    ("shop_slots", 0, Numeral.largest64),
    ("reroll_cost", Amount.lowest, Amount.highest)]

/- Members that are no rules of a run. -/
def Faulty
    (ms : List (String × Json)) : Prop :=
  Json.Faulty fieldNames wholeFields ms

theorem SaidBy.inRanges
    {fs : Json.Fields}
    {r : RunRules}
    (hSaid : SaidBy fs r) :
    fs.InRanges wholeFields := by
  simp only [Json.Fields.InRanges, wholeFields,
    List.forall_mem_cons]
  exact
    ⟨isWholeIn_of_said isWholeIn_of_natTo? hSaid.handsPerRound,
      isWholeIn_of_said isWholeIn_of_natTo?
        hSaid.discardsPerRound,
      isWholeIn_of_said isWholeIn_of_natTo? hSaid.handSize,
      isWholeIn_of_said isWholeIn_of_natTo? hSaid.maxSelection,
      isWholeIn_of_said isWholeIn_of_amount?
        hSaid.startingMoney,
      isWholeIn_of_said isWholeIn_of_amount?
        hSaid.startingTarget,
      isWholeIn_of_said isWholeIn_of_amount? hSaid.clearReward,
      isWholeIn_of_said isWholeIn_of_natTo? hSaid.jokerSlots,
      isWholeIn_of_said isWholeIn_of_natTo? hSaid.shopSlots,
      isWholeIn_of_said isWholeIn_of_amount? hSaid.rerollCost,
      List.forall_mem_nil _⟩

theorem Faulty.ofStored?_eq_none
    {ms : List (String × Json)}
    (hFaulty : Faulty ms) :
    ofStored? (.object ms) = none := by
  refine Option.eq_none_iff_forall_ne_some.mpr ?_
  intro r hRead
  rcases ofStored?_eq_some_iff.mp hRead with
    ⟨fs, hFields, hSaid⟩
  exact hFaulty.not_inRanges (by decide) hFields hSaid.inRanges

end RunRules

namespace HandRule

/- Members that are no rule for a hand. -/
def Faulty
    (ms : List (String × Json)) : Prop :=
  Json.Faulty ["category", "base_chips", "base_mult"]
    [("base_chips", Amount.lowest, Amount.highest),
      ("base_mult", Amount.lowest, Amount.highest)] ms

theorem Faulty.ofStored?_eq_none
    {ms : List (String × Json)}
    (hFaulty : Faulty ms) :
    ofStored? (.object ms) = none := by
  refine Option.eq_none_iff_forall_ne_some.mpr ?_
  intro r hRead
  simp only [ofStored?, bind, bind_eq_some_iff] at hRead
  rcases hRead with
    ⟨fs, hFields, category, -, chips, hChips, mult, hMult, -⟩
  refine hFaulty.not_inRanges (by decide) hFields ?_
  simp only [Json.Fields.InRanges, List.forall_mem_cons]
  exact ⟨isWholeIn_of_required isWholeIn_of_amount? hChips,
    isWholeIn_of_required isWholeIn_of_amount? hMult,
    List.forall_mem_nil _⟩

end HandRule

------------------------------------------------------------
-- Rules Of A Game
------------------------------------------------------------

namespace Rules

/-
  What a value says about the run and about the hands: an
  object by its members, each at most once, and an array by
  its first and its second item.
-/
inductive Says : Json → Option Json → Option Json → Prop where
  | object
      {ms : List (String × Json)}
      (hOnce :
        ∀ k ∈ ["run", "hands"], (ms.map Prod.fst).count k ≤ 1) :
      Says (.object ms) (ms.lookup "run") (ms.lookup "hands")
  | empty : Says (.array []) none none
  | run
      (v : Json) :
      Says (.array [v]) (some v) none
  | both
      (v w : Json) :
      Says (.array [v, w]) (some v) (some w)

theorem says_iff
    {v : Json}
    {run hands : Option Json} :
    Says v run hands ↔
      ∃ fs, v.fields? ["run", "hands"] = some fs ∧
        fs.lookup "run" = run ∧ fs.lookup "hands" = hands := by
  constructor
  · intro hSays
    cases hSays with
    | @object ms hOnce =>
        exact ⟨_, Json.fields?_object_eq_some_iff.mpr
            ⟨Json.nodup_known_iff.mpr hOnce, rfl⟩,
          Json.lookup_known (by decide),
          Json.lookup_known (by decide)⟩
    | empty => exact ⟨_, rfl, rfl, rfl⟩
    | run v => exact ⟨_, rfl, rfl, rfl⟩
    | both v w => exact ⟨_, rfl, rfl, rfl⟩
  · rintro ⟨fs, hFields, rfl, rfl⟩
    cases v with
    | object ms =>
        rcases Json.fields?_object_eq_some_iff.mp hFields with
          ⟨hOnce, rfl⟩
        rw [Json.lookup_known (by decide),
          Json.lookup_known (by decide)]
        exact .object (Json.nodup_known_iff.mp hOnce)
    | array vs =>
        rcases vs with _ | ⟨v, _ | ⟨w, _ | ⟨x, vs⟩⟩⟩
        · cases hFields
          exact .empty
        · cases hFields
          exact .run v
        · cases hFields
          exact .both v w
        · rw [Json.fields?, if_neg (by simp)] at hFields
          cases hFields
    | _ => cases hFields

/- A run and hands that are not spoken of are the usual ones. -/
theorem ofStored?_eq_some_iff
    {v : Json}
    {rules : Rules} :
    ofStored? v = some rules ↔
      ∃ run hands, Says v run hands ∧
        Said RunRules.standard RunRules.ofStored? run
          rules.run ∧
        Said [] (Json.list? HandRule.ofStored?) hands
          rules.hands := by
  simp only [ofStored?, bind, bind_eq_some_iff, pure,
    optional_eq_some_iff, Option.some.injEq, says_iff]
  constructor
  · rintro ⟨fs, hFields, run, hRun, hands, hHands, rfl⟩
    exact ⟨_, _, ⟨fs, hFields, rfl, rfl⟩, hRun, hHands⟩
  · rintro ⟨_, _, ⟨fs, hFields, rfl, rfl⟩, hRun, hHands⟩
    exact ⟨fs, hFields, _, hRun, _, hHands, rfl⟩

/-
  Members that are no rules of a game, since one of the two
  stands twice or says what is faulty.
-/
inductive Faulty
    (ms : List (String × Json)) : Prop where
  | repeated
      {k : String}
      (hKnown : k ∈ ["run", "hands"])
      (hTwice : 1 < (ms.map Prod.fst).count k)
  | run
      {rs : List (String × Json)}
      (hMember : ("run", .object rs) ∈ ms)
      (hFaulty : RunRules.Faulty rs)
  | hand
      {vs : List Json}
      {hs : List (String × Json)}
      (hMember : ("hands", .array vs) ∈ ms)
      (hItem : .object hs ∈ vs)
      (hFaulty : HandRule.Faulty hs)

theorem Faulty.ofStored?_eq_none
    {ms : List (String × Json)}
    (hFaulty : Faulty ms) :
    ofStored? (.object ms) = none := by
  refine Option.eq_none_iff_forall_ne_some.mpr ?_
  intro r hRead
  simp only [ofStored?, bind, bind_eq_some_iff,
    optional_eq_some_iff] at hRead
  rcases hRead with
    ⟨fs, hFields, run, hRun, hands, hHands, -⟩
  cases hFaulty with
  | @repeated k hKnown hTwice =>
      have hOnce :=
        (Json.fields?_object_eq_some_iff.mp hFields).1
      have hCount := Json.nodup_known_iff.mp hOnce k hKnown
      omega
  | run hMember hFaulty =>
      rw [Json.lookup_of_mem hFields (by decide) hMember,
        Said, hFaulty.ofStored?_eq_none] at hRun
      cases hRun
  | hand hMember hItem hFaulty =>
      rw [Json.lookup_of_mem hFields (by decide) hMember,
        Said, Json.list?_eq_none hItem
          hFaulty.ofStored?_eq_none] at hHands
      cases hHands

end Rules

------------------------------------------------------------
-- Texts Of Rules
------------------------------------------------------------

namespace PartialRules

/-
  Given rules override the standard ones field by field, and
  nothing else that is written with them matters.  A text of
  rules of a game stands for the standard run and for no
  rules for hands where it says nothing.  A faulty member is
  refused, whatever else is written.
-/
theorem override_field_by_field :
    (∀ (p : PartialRules) (ms : List (String × Json)),
      p.InRange →
      p.Writes ms →
      RunRules.ofStored? (.object ms) =
          some (p.override RunRules.standard) ∧
        ∀ s, Json.parse s = some (.object ms) →
          Json.readText? RunRules.ofStored? s =
            some (p.override RunRules.standard)) ∧
      (∀ s rules,
        Assets.parseRules s = .ok rules ↔
          ∃ v run hands, Json.parse s = some v ∧
            Rules.Says v run hands ∧
            Said RunRules.standard RunRules.ofStored? run
              rules.run ∧
            Said [] (Json.list? HandRule.ofStored?) hands
              rules.hands) ∧
      ∀ s ms, Json.parse s = some (.object ms) →
        (RunRules.Faulty ms →
          Json.readText? RunRules.ofStored? s = none) ∧
        (Rules.Faulty ms →
          Assets.parseRules s = .error .malformed) := by
  refine ⟨?_, ?_, ?_⟩
  · intro p ms hRange hWrites
    have hRead := hWrites.ofStored?_eq hRange
    refine ⟨hRead, ?_⟩
    intro s hParse
    rw [Json.readText?, hParse, Option.bind_some, hRead]
  · intro s rules
    rw [Assets.parseRules_eq_ok_iff]
    simp only [Rules.ofStored?_eq_some_iff]
    constructor
    · rintro ⟨v, hParse, run, hands, hSaid⟩
      exact ⟨v, run, hands, hParse, hSaid⟩
    · rintro ⟨v, run, hands, hParse, hSaid⟩
      exact ⟨v, hParse, run, hands, hSaid⟩
  · intro s ms hParse
    constructor
    · intro hFaulty
      rw [Json.readText?, hParse, Option.bind_some,
        hFaulty.ofStored?_eq_none]
    · intro hFaulty
      rw [Assets.parseRules, hParse, Option.bind_some,
        hFaulty.ofStored?_eq_none]

/- Ten to start with, and targets that double. -/
def doubling : PartialRules where
  handsPerRound := none
  discardsPerRound := none
  handSize := none
  maxSelection := none
  startingMoney := some 10
  startingTarget := none
  targetGrowth := some (Binary64.ofInt 2)
  clearReward := none
  jokerSlots := none
  shopSlots := none
  rerollCost := none

/- The same as members, in another order and with a note. -/
def doublingMembers : List (String × Json) :=
  [("note", .array [.null]), ("target_growth", .whole 2),
    ("starting_money", .whole 10)]

/- No number of slots, with something else beside it. -/
def slotless : List (String × Json) :=
  [("starting_money", .whole 10), ("joker_slots", .null)]

/- Read alone, as the run of a game, and with a fault. -/
theorem override_field_by_field_doubling :
    doubling.InRange ∧
      doubling.Writes doublingMembers ∧
      Json.readText? RunRules.ofStored?
          (Json.object doublingMembers).compact =
        some
          { RunRules.standard with
            startingMoney := 10
            targetGrowth := Binary64.ofInt 2 } ∧
      Assets.parseRules
          (Json.object
            [("run", .object doublingMembers)]).compact =
        .ok ⟨doubling.override RunRules.standard, []⟩ ∧
      RunRules.Faulty slotless ∧
      Json.readText? RunRules.ofStored?
          (Json.object slotless).compact = none := by
  have hRange : doubling.InRange := by
    constructor <;> intro n hSome <;> cases hSome
    decide
  have hWrites : doubling.Writes doublingMembers := by
    refine ⟨.whole 2, ?_, ?_⟩
    · intro x hSome
      exact hSome
    · exact List.Perm.swap _ _ _
  have hPlain : (Json.object doublingMembers).Plain := by
    simp only [doublingMembers, Json.plain_object_iff,
      List.forall_mem_cons]
    exact ⟨.array (by simp [Json.Plain.null]),
      .whole (by decide) (by decide),
      .whole (by decide) (by decide), List.forall_mem_nil _⟩
  have hGame :
      (Json.object [("run", .object doublingMembers)]).Plain :=
    Json.plain_object_iff.mpr
      (List.forall_mem_singleton.mpr hPlain)
  have hFaultyPlain : (Json.object slotless).Plain := by
    simp only [slotless, Json.plain_object_iff,
      List.forall_mem_cons]
    exact ⟨.whole (by decide) (by decide), .null,
      List.forall_mem_nil _⟩
  have hFaulty : RunRules.Faulty slotless := by
    have hField :
        ("joker_slots", (0 : Int), (Numeral.largest64 : Int)) ∈
          RunRules.wholeFields := by
      simp [RunRules.wholeFields]
    have hMember : ("joker_slots", Json.null) ∈ slotless := by
      simp [slotless]
    refine .misfit hField hMember ?_
    rintro ⟨n, hWhole, -⟩
    cases hWhole
  have hOver :
      doubling.override RunRules.standard =
        { RunRules.standard with
          startingMoney := 10
          targetGrowth := Binary64.ofInt 2 } := by
    simp only [override, doubling, Option.getD_some,
      Option.getD_none]
  rcases override_field_by_field with ⟨hPart, hGames, hFaults⟩
  rcases hPart doubling doublingMembers hRange hWrites with
    ⟨hRead, hText⟩
  rw [← hOver]
  refine ⟨hRange, hWrites, hText _ hPlain.parse_compact, ?_,
    hFaulty, (hFaults _ _ hFaultyPlain.parse_compact).1 hFaulty⟩
  refine (hGames _ _).mpr ⟨_, _, _, hGame.parse_compact,
    .object (by decide), ?_, ?_⟩
  · exact hRead
  · rfl

end PartialRules

end JokerRun
