import JokerRun.Proofs.Stored.Records

/-
  The forms of choices with data, and the round trip.

  Effects and events are objects whose one member is named
  for the choice.  An effect that multiplies holds a
  floating-point number; every other effect, and a joker
  without such an effect, is written without loss.

  Key definitions include:
    * `Effect.form`
    * `Ability.form`
    * `Event.form`

  Key theorems include:
    * `Json.stored_text_reads_back`
-/

------------------------------------------------------------
-- Effects
------------------------------------------------------------

namespace JokerRun

open Json (fields?_bind)
open Json.Fields (required_bind optional_bind
  required_inRange optional_inRange)
open Option (bind_eq_some_iff)

namespace Effect

/- The numbers of an effect fit their fields. -/
def InRange : Effect → Prop
  | .flatMult a => Amount.InRange a
  | .suitConditionalMult a _ => Amount.InRange a
  | .countScaledMult a => Amount.InRange a
  | .discardRankRebate d _ => Amount.InRange d
  | .flatChips a => Amount.InRange a
  | .multFactor _ => True
  | .heldRankMult a _ => Amount.InRange a

/- The effect does not multiply. -/
def IsExact
    (e : Effect) : Prop :=
  ∀ f, e ≠ .multFactor f

theorem plain_stored
    {e : Effect}
    (hRange : e.InRange)
    (hExact : e.IsExact) :
    e.stored.Plain := by
  cases e <;>
    simp only [stored, storedWith, Json.ofChoice,
      Json.plain_object_iff, List.forall_mem_singleton,
      List.forall_mem_cons]
  case flatMult a =>
    exact StoredForm.amount.plain hRange trivial
  case suitConditionalMult a s =>
    exact ⟨StoredForm.amount.plain hRange trivial,
      Suit.form.plain trivial trivial⟩
  case countScaledMult a =>
    exact StoredForm.amount.plain hRange trivial
  case discardRankRebate d r =>
    exact ⟨StoredForm.amount.plain hRange trivial,
      Rank.form.plain trivial trivial⟩
  case flatChips a =>
    exact StoredForm.amount.plain hRange trivial
  case multFactor f => exact absurd rfl (hExact f)
  case heldRankMult a r =>
    exact ⟨StoredForm.amount.plain hRange trivial,
      Rank.form.plain trivial trivial⟩

theorem ofStored?_stored
    {e : Effect}
    (hRange : e.InRange) :
    ofStored? e.stored = some e := by
  cases e <;>
    simp only [ofStored?, stored, storedWith, Json.ofChoice,
      Json.choice?, bind, Option.bind_some, ofChoice?]
  case flatMult a =>
    refine fields?_bind rfl (by decide) ?_
    refine required_bind .amount rfl hRange ?_
    rfl
  case suitConditionalMult a s =>
    refine fields?_bind rfl (by decide) ?_
    refine required_bind .amount rfl hRange ?_
    refine required_bind Suit.form rfl trivial ?_
    rfl
  case countScaledMult a =>
    refine fields?_bind rfl (by decide) ?_
    refine required_bind .amount rfl hRange ?_
    rfl
  case discardRankRebate d r =>
    refine fields?_bind rfl (by decide) ?_
    refine required_bind .amount rfl hRange ?_
    refine required_bind Rank.form rfl trivial ?_
    rfl
  case flatChips a =>
    refine fields?_bind rfl (by decide) ?_
    refine required_bind .amount rfl hRange ?_
    rfl
  case multFactor f => rfl
  case heldRankMult a r =>
    refine fields?_bind rfl (by decide) ?_
    refine required_bind .amount rfl hRange ?_
    refine required_bind Rank.form rfl trivial ?_
    rfl

theorem inRange_of_ofStored?
    {v : Json}
    {e : Effect}
    (hRead : ofStored? v = some e) :
    e.InRange := by
  rcases bind_eq_some_iff.mp hRead with
    ⟨⟨name, data⟩, -, hChoice⟩
  simp only [ofChoice?] at hChoice
  split at hChoice <;>
    simp only [bind, bind_eq_some_iff, pure,
      Option.some.injEq, reduceCtorEq] at hChoice
  · rcases hChoice with ⟨fs, -, a, hAmount, rfl⟩
    exact required_inRange .amount hAmount
  · rcases hChoice with ⟨fs, -, a, hAmount, s, -, rfl⟩
    exact required_inRange .amount hAmount
  · rcases hChoice with ⟨fs, -, a, hAmount, rfl⟩
    exact required_inRange .amount hAmount
  · rcases hChoice with ⟨fs, -, d, hAmount, r, -, rfl⟩
    exact required_inRange .amount hAmount
  · rcases hChoice with ⟨fs, -, a, hAmount, rfl⟩
    exact required_inRange .amount hAmount
  · rcases hChoice with ⟨fs, -, f, -, rfl⟩
    trivial
  · rcases hChoice with ⟨fs, -, a, hAmount, r, -, rfl⟩
    exact required_inRange .amount hAmount

/- The form of effects. -/
def form : StoredForm Effect where
  write := stored
  read? := ofStored?
  InRange := InRange
  IsExact := IsExact
  plain := plain_stored
  read_write := ofStored?_stored
  inRange := inRange_of_ofStored?

theorem stored_ne_null
    (e : Effect) :
    e.stored ≠ .null := by
  intro hNull
  cases e <;> contradiction

end Effect

------------------------------------------------------------
-- Jokers
------------------------------------------------------------

namespace Ability

/- The numbers of a joker fit their fields. -/
structure InRange
    (a : Ability) : Prop where
  cost : Amount.InRange a.cost
  atlasIndex : a.atlasIndex ≤ 4294967295
  effect : ∀ e, a.effect = some e → e.InRange

/- The joker does not multiply. -/
def IsExact
    (a : Ability) : Prop :=
  ∀ e, a.effect = some e → e.IsExact

/- The form of what a joker does, if anything. -/
def effectForm : StoredForm (Option Effect) :=
  Effect.form.nullable Effect.stored_ne_null

theorem stored_eq_object
    (a : Ability) :
    a.stored =
      .object
        [("id", .string a.id), ("name", .string a.name),
          ("description", .string a.description),
          ("cost", .whole a.cost),
          ("atlas_index", .whole a.atlasIndex),
          ("effect", effectForm.write a.effect)] := by
  unfold stored storedWith
  cases a.effect <;> rfl

/- The form of jokers. -/
def form : StoredForm Ability where
  write := stored
  read? := ofStored?
  InRange := InRange
  IsExact := IsExact
  plain := by
    intro a hRange hExact
    rw [stored_eq_object, Json.plain_object_iff]
    simp only [List.forall_mem_singleton,
      List.forall_mem_cons]
    refine ⟨.string a.id, .string a.name,
      .string a.description,
      StoredForm.amount.plain hRange.cost trivial,
      StoredForm.natural32.plain hRange.atlasIndex trivial,
      ?_⟩
    exact effectForm.plain hRange.effect hExact
  read_write := by
    intro a hRange
    rw [stored_eq_object]
    unfold ofStored?
    refine fields?_bind rfl (by decide) ?_
    refine required_bind .text rfl trivial ?_
    refine required_bind .text rfl trivial ?_
    refine optional_bind .text rfl trivial ?_
    refine optional_bind .amount rfl hRange.cost ?_
    refine optional_bind .natural32 rfl hRange.atlasIndex ?_
    refine optional_bind effectForm rfl hRange.effect ?_
    rfl
  inRange := by
    intro v a hRead
    simp only [ofStored?, bind, bind_eq_some_iff, pure,
      Option.some.injEq] at hRead
    rcases hRead with
      ⟨fs, -, id, -, name, -, description, -, cost, hCost,
        index, hIndex, effect, hEffect, rfl⟩
    have hZero : Amount.InRange 0 := by
      decide
    have hNone : effectForm.InRange none := by
      intro e hSome
      contradiction
    exact
      ⟨optional_inRange .amount hZero hCost,
        optional_inRange .natural32 (Nat.zero_le _) hIndex,
        optional_inRange effectForm hNone hEffect⟩

end Ability

------------------------------------------------------------
-- Events
------------------------------------------------------------

namespace Event

/- The numbers of an event fit their fields. -/
def InRange : Event → Prop
  | .roundStarted round target hands discards =>
      round ≤ 4294967295 ∧ Amount.InRange target ∧
        hands ≤ 255 ∧ discards ≤ 255
  | .handDealt count => count ≤ Numeral.largest64
  | .handScored _ chips mult total =>
      Amount.InRange chips ∧ Amount.InRange mult ∧
        Amount.InRange total
  | .discarded count dollars =>
      count ≤ Numeral.largest64 ∧ Amount.InRange dollars
  | .roundCleared score reward money =>
      Amount.InRange score ∧ Amount.InRange reward ∧
        Amount.InRange money
  | .gameOver score target =>
      Amount.InRange score ∧ Amount.InRange target
  | .shopRestocked offers money =>
      offers ≤ Numeral.largest64 ∧ Amount.InRange money
  | .jokerBought _ cost money =>
      Amount.InRange cost ∧ Amount.InRange money
  | .jokerReplaced _ _ cost money =>
      Amount.InRange cost ∧ Amount.InRange money
  | .jokerSold _ value money =>
      Amount.InRange value ∧ Amount.InRange money

theorem plain_stored
    {e : Event}
    (hRange : e.InRange) :
    e.stored.Plain := by
  cases e <;>
    simp only [stored, Json.ofChoice, Json.plain_object_iff,
      List.forall_mem_singleton, List.forall_mem_cons]
  case roundStarted round target hands discards =>
    rcases hRange with ⟨hRound, hTarget, hHands, hDiscards⟩
    exact ⟨StoredForm.natural32.plain hRound trivial,
      StoredForm.amount.plain hTarget trivial,
      StoredForm.natural8.plain hHands trivial,
      StoredForm.natural8.plain hDiscards trivial⟩
  case handDealt count =>
    exact StoredForm.natural64.plain hRange trivial
  case handScored hand chips mult total =>
    rcases hRange with ⟨hChips, hMult, hTotal⟩
    exact ⟨Category.form.plain trivial trivial,
      StoredForm.amount.plain hChips trivial,
      StoredForm.amount.plain hMult trivial,
      StoredForm.amount.plain hTotal trivial⟩
  case discarded count dollars =>
    exact ⟨StoredForm.natural64.plain hRange.1 trivial,
      StoredForm.amount.plain hRange.2 trivial⟩
  case roundCleared score reward money =>
    rcases hRange with ⟨hScore, hReward, hMoney⟩
    exact ⟨StoredForm.amount.plain hScore trivial,
      StoredForm.amount.plain hReward trivial,
      StoredForm.amount.plain hMoney trivial⟩
  case gameOver score target =>
    exact ⟨StoredForm.amount.plain hRange.1 trivial,
      StoredForm.amount.plain hRange.2 trivial⟩
  case shopRestocked offers money =>
    exact ⟨StoredForm.natural64.plain hRange.1 trivial,
      StoredForm.amount.plain hRange.2 trivial⟩
  case jokerBought id cost money =>
    exact ⟨.string id,
      StoredForm.amount.plain hRange.1 trivial,
      StoredForm.amount.plain hRange.2 trivial⟩
  case jokerReplaced sold bought cost money =>
    exact ⟨.string sold, .string bought,
      StoredForm.amount.plain hRange.1 trivial,
      StoredForm.amount.plain hRange.2 trivial⟩
  case jokerSold id value money =>
    exact ⟨.string id,
      StoredForm.amount.plain hRange.1 trivial,
      StoredForm.amount.plain hRange.2 trivial⟩

theorem ofStored?_stored
    {e : Event}
    (hRange : e.InRange) :
    ofStored? e.stored = some e := by
  cases e <;>
    simp only [ofStored?, stored, Json.ofChoice, Json.choice?,
      bind, Option.bind_some, ofChoice?]
  case roundStarted round target hands discards =>
    rcases hRange with ⟨hRound, hTarget, hHands, hDiscards⟩
    refine fields?_bind rfl (by decide) ?_
    refine required_bind .natural32 rfl hRound ?_
    refine required_bind .amount rfl hTarget ?_
    refine required_bind .natural8 rfl hHands ?_
    refine required_bind .natural8 rfl hDiscards ?_
    rfl
  case handDealt count =>
    refine fields?_bind rfl (by decide) ?_
    refine required_bind .natural64 rfl hRange ?_
    rfl
  case handScored hand chips mult total =>
    rcases hRange with ⟨hChips, hMult, hTotal⟩
    refine fields?_bind rfl (by decide) ?_
    refine required_bind Category.form rfl trivial ?_
    refine required_bind .amount rfl hChips ?_
    refine required_bind .amount rfl hMult ?_
    refine required_bind .amount rfl hTotal ?_
    rfl
  case discarded count dollars =>
    refine fields?_bind rfl (by decide) ?_
    refine required_bind .natural64 rfl hRange.1 ?_
    refine required_bind .amount rfl hRange.2 ?_
    rfl
  case roundCleared score reward money =>
    rcases hRange with ⟨hScore, hReward, hMoney⟩
    refine fields?_bind rfl (by decide) ?_
    refine required_bind .amount rfl hScore ?_
    refine required_bind .amount rfl hReward ?_
    refine required_bind .amount rfl hMoney ?_
    rfl
  case gameOver score target =>
    refine fields?_bind rfl (by decide) ?_
    refine required_bind .amount rfl hRange.1 ?_
    refine required_bind .amount rfl hRange.2 ?_
    rfl
  case shopRestocked offers money =>
    refine fields?_bind rfl (by decide) ?_
    refine required_bind .natural64 rfl hRange.1 ?_
    refine required_bind .amount rfl hRange.2 ?_
    rfl
  case jokerBought id cost money =>
    refine fields?_bind rfl (by decide) ?_
    refine required_bind .text rfl trivial ?_
    refine required_bind .amount rfl hRange.1 ?_
    refine required_bind .amount rfl hRange.2 ?_
    rfl
  case jokerReplaced sold bought cost money =>
    refine fields?_bind rfl (by decide) ?_
    refine required_bind .text rfl trivial ?_
    refine required_bind .text rfl trivial ?_
    refine required_bind .amount rfl hRange.1 ?_
    refine required_bind .amount rfl hRange.2 ?_
    rfl
  case jokerSold id value money =>
    refine fields?_bind rfl (by decide) ?_
    refine required_bind .text rfl trivial ?_
    refine required_bind .amount rfl hRange.1 ?_
    refine required_bind .amount rfl hRange.2 ?_
    rfl

theorem inRange_of_ofStored?
    {v : Json}
    {e : Event}
    (hRead : ofStored? v = some e) :
    e.InRange := by
  rcases bind_eq_some_iff.mp hRead with
    ⟨⟨name, data⟩, -, hChoice⟩
  simp only [ofChoice?] at hChoice
  split at hChoice <;>
    simp only [bind, bind_eq_some_iff, pure,
      Option.some.injEq, reduceCtorEq] at hChoice
  · rcases hChoice with
      ⟨fs, -, round, hRound, target, hTarget, hands, hHands,
        discards, hDiscards, rfl⟩
    exact
      ⟨required_inRange .natural32 hRound,
        required_inRange .amount hTarget,
        required_inRange .natural8 hHands,
        required_inRange .natural8 hDiscards⟩
  · rcases hChoice with ⟨fs, -, count, hCount, rfl⟩
    exact required_inRange .natural64 hCount
  · rcases hChoice with
      ⟨fs, -, hand, -, chips, hChips, mult, hMult, total,
        hTotal, rfl⟩
    exact
      ⟨required_inRange .amount hChips,
        required_inRange .amount hMult,
        required_inRange .amount hTotal⟩
  · rcases hChoice with
      ⟨fs, -, count, hCount, dollars, hDollars, rfl⟩
    exact
      ⟨required_inRange .natural64 hCount,
        required_inRange .amount hDollars⟩
  · rcases hChoice with
      ⟨fs, -, score, hScore, reward, hReward, money, hMoney,
        rfl⟩
    exact
      ⟨required_inRange .amount hScore,
        required_inRange .amount hReward,
        required_inRange .amount hMoney⟩
  · rcases hChoice with
      ⟨fs, -, score, hScore, target, hTarget, rfl⟩
    exact
      ⟨required_inRange .amount hScore,
        required_inRange .amount hTarget⟩
  · rcases hChoice with
      ⟨fs, -, offers, hOffers, money, hMoney, rfl⟩
    exact
      ⟨required_inRange .natural64 hOffers,
        required_inRange .amount hMoney⟩
  · rcases hChoice with
      ⟨fs, -, id, -, cost, hCost, money, hMoney, rfl⟩
    exact
      ⟨required_inRange .amount hCost,
        required_inRange .amount hMoney⟩
  · rcases hChoice with
      ⟨fs, -, sold, -, bought, -, cost, hCost, money, hMoney,
        rfl⟩
    exact
      ⟨required_inRange .amount hCost,
        required_inRange .amount hMoney⟩
  · rcases hChoice with
      ⟨fs, -, id, -, value, hValue, money, hMoney, rfl⟩
    exact
      ⟨required_inRange .amount hValue,
        required_inRange .amount hMoney⟩

/- The form of events. -/
def form : StoredForm Event where
  write := stored
  read? := ofStored?
  InRange := InRange
  IsExact _ := True
  plain hRange _ := plain_stored hRange
  read_write := ofStored?_stored
  inRange := inRange_of_ofStored?

end Event

------------------------------------------------------------
-- Round Trips
------------------------------------------------------------

/-
  What is stored of a game is read back from its text.  Only
  a factor is not exact; every other value in range is.
-/
theorem Json.stored_text_reads_back :
    RoundTrips Suit.stored Suit.ofStored?
        (fun _ => True) (fun _ => True) ∧
      RoundTrips Rank.stored Rank.ofStored?
        (fun _ => True) (fun _ => True) ∧
      RoundTrips Category.stored Category.ofStored?
        (fun _ => True) (fun _ => True) ∧
      RoundTrips Phase.stored Phase.ofStored?
        (fun _ => True) (fun _ => True) ∧
      RoundTrips RunPhase.stored RunPhase.ofStored?
        (fun _ => True) (fun _ => True) ∧
      RoundTrips Card.stored Card.ofStored?
        Card.InRange (fun _ => True) ∧
      RoundTrips HandRule.stored HandRule.ofStored?
        HandRule.InRange (fun _ => True) ∧
      RoundTrips HandResult.stored HandResult.ofStored?
        HandResult.InRange (fun _ => True) ∧
      RoundTrips PlaySummary.stored PlaySummary.ofStored?
        PlaySummary.InRange (fun _ => True) ∧
      RoundTrips DiscardSummary.stored DiscardSummary.ofStored?
        DiscardSummary.InRange (fun _ => True) ∧
      RoundTrips Progress.stored Progress.ofStored?
        Progress.InRange (fun _ => True) ∧
      RoundTrips Event.stored Event.ofStored?
        Event.InRange (fun _ => True) ∧
      RoundTrips (Area.stored .whole) (Area.ofStored? amount?)
        (Area.InRange Amount.InRange) (fun _ => True) ∧
      RoundTrips RankEntry.stored RankEntry.ofStored?
        RankEntry.InRange (fun _ => True) ∧
      RoundTrips Effect.stored Effect.ofStored?
        Effect.InRange Effect.IsExact ∧
      RoundTrips Ability.stored Ability.ofStored?
        Ability.InRange Ability.IsExact := by
  refine ⟨Suit.form.roundTrips, Rank.form.roundTrips,
    Category.form.roundTrips, Phase.form.roundTrips,
    RunPhase.form.roundTrips, Card.form.roundTrips,
    HandRule.form.roundTrips, HandResult.form.roundTrips,
    PlaySummary.form.roundTrips,
    DiscardSummary.form.roundTrips, Progress.form.roundTrips,
    Event.form.roundTrips, ?_, RankEntry.form.roundTrips,
    Effect.form.roundTrips, Ability.form.roundTrips⟩
  have hArea := (Area.form StoredForm.amount).roundTrips
  refine ⟨?_, ?_⟩
  · intro a hRange _
    exact hArea.readBack a hRange fun _ _ => trivial
  · intro s a hRead
    rcases hArea.settled s a hRead with ⟨hRange, hSettled⟩
    exact ⟨hRange, fun _ => hSettled fun _ _ => trivial⟩

end JokerRun
