import JokerRun.Content.Ranks
import JokerRun.Proofs.Hand.Reference
import JokerRun.Proofs.Stored.Form
import JokerRun.Stored.Ability
import JokerRun.Stored.Run
import JokerRun.Stored.Score

/-
  The forms of names and records.

  A record is in range if each of its numbers fits the field
  that holds it.

  Key definitions include:
    * `Suit.form`, `Rank.form`, `Category.form`, `Phase.form`
      and `RunPhase.form`
    * `Card.form`
    * `HandRule.form` and `HandResult.form`
    * `PlaySummary.form` and `DiscardSummary.form`
    * `Progress.form`
    * `RankEntry.form`
    * `Area.form`
-/

------------------------------------------------------------
-- Names
------------------------------------------------------------

namespace JokerRun

open Json (fields?_bind)
open Json.Fields (required_bind optional_bind
  required_inRange optional_inRange)
open Option (bind_eq_some_iff)

/- Suits are stored by name. -/
def Suit.form : StoredForm Suit :=
  .named Suit.all Suit.name Suit.mem_all (by decide)

/- Ranks are stored by name. -/
def Rank.form : StoredForm Rank :=
  .named Rank.all Rank.tag Rank.mem_all (by decide)

/- Categories are stored by name. -/
def Category.form : StoredForm Category :=
  .named Category.all Category.tag Category.mem_all (by decide)

theorem Phase.mem_all
    (p : Phase) :
    p ∈ Phase.all := by
  cases p <;> decide

/- Phases of effects are stored by name. -/
def Phase.form : StoredForm Phase :=
  .named Phase.all Phase.tag Phase.mem_all (by decide)

theorem RunPhase.mem_all
    (p : RunPhase) :
    p ∈ RunPhase.all := by
  cases p <;> decide

/- Phases of runs are stored by name. -/
def RunPhase.form : StoredForm RunPhase :=
  .named RunPhase.all RunPhase.name RunPhase.mem_all (by decide)

------------------------------------------------------------
-- Cards
------------------------------------------------------------

namespace Card

/- The numbers of a card fit their fields. -/
structure InRange
    (c : Card) : Prop where
  id : c.id ≤ 4294967295
  chips : Amount.InRange c.chips

/- The form of cards. -/
def form : StoredForm Card where
  write := stored
  read? := ofStored?
  InRange := InRange
  IsExact _ := True
  plain := by
    intro c hRange _
    rw [stored, Json.plain_object_iff]
    simp only [List.forall_mem_singleton,
      List.forall_mem_cons]
    exact ⟨StoredForm.natural32.plain hRange.id trivial,
      Suit.form.plain trivial trivial,
      Rank.form.plain trivial trivial,
      StoredForm.amount.plain hRange.chips trivial⟩
  read_write := by
    intro c hRange
    unfold ofStored?
    refine fields?_bind rfl (by decide) ?_
    refine optional_bind .natural32 rfl hRange.id ?_
    refine required_bind Suit.form rfl trivial ?_
    refine required_bind Rank.form rfl trivial ?_
    refine required_bind .amount rfl hRange.chips ?_
    rfl
  inRange := by
    intro v c hRead
    simp only [ofStored?, bind, bind_eq_some_iff, pure,
      Option.some.injEq] at hRead
    rcases hRead with
      ⟨fs, -, id, hId, suit, -, rank, -, chips, hChips, rfl⟩
    exact
      ⟨optional_inRange .natural32 (Nat.zero_le _) hId,
        required_inRange .amount hChips⟩

end Card

------------------------------------------------------------
-- Rules And Results
------------------------------------------------------------

namespace HandRule

/- The numbers of a rule fit their fields. -/
structure InRange
    (r : HandRule) : Prop where
  chips : Amount.InRange r.chips
  mult : Amount.InRange r.mult

/- The form of rules. -/
def form : StoredForm HandRule where
  write := stored
  read? := ofStored?
  InRange := InRange
  IsExact _ := True
  plain := by
    intro r hRange _
    rw [stored, Json.plain_object_iff]
    simp only [List.forall_mem_singleton,
      List.forall_mem_cons]
    exact ⟨Category.form.plain trivial trivial,
      StoredForm.amount.plain hRange.chips trivial,
      StoredForm.amount.plain hRange.mult trivial⟩
  read_write := by
    intro r hRange
    unfold ofStored?
    refine fields?_bind rfl (by decide) ?_
    refine required_bind Category.form rfl trivial ?_
    refine required_bind .amount rfl hRange.chips ?_
    refine required_bind .amount rfl hRange.mult ?_
    rfl
  inRange := by
    intro v r hRead
    simp only [ofStored?, bind, bind_eq_some_iff, pure,
      Option.some.injEq] at hRead
    rcases hRead with
      ⟨fs, -, category, -, chips, hChips, mult, hMult, rfl⟩
    exact
      ⟨required_inRange .amount hChips,
        required_inRange .amount hMult⟩

end HandRule

namespace HandResult

/- The numbers of a result fit their fields. -/
structure InRange
    (h : HandResult) : Prop where
  chips : Amount.InRange h.chips
  mult : Amount.InRange h.mult
  scoringIndices :
    ∀ i ∈ h.scoringIndices, i ≤ Numeral.largest64

/- The form of positions. -/
def indicesForm : StoredForm (List Nat) :=
  .list .natural64

/- The form of results. -/
def form : StoredForm HandResult where
  write := stored
  read? := ofStored?
  InRange := InRange
  IsExact _ := True
  plain := by
    intro h hRange _
    rw [stored, Json.plain_object_iff]
    simp only [List.forall_mem_singleton,
      List.forall_mem_cons]
    refine ⟨Category.form.plain trivial trivial,
      StoredForm.amount.plain hRange.chips trivial,
      StoredForm.amount.plain hRange.mult trivial, ?_⟩
    exact indicesForm.plain hRange.scoringIndices
      fun _ _ => trivial
  read_write := by
    intro h hRange
    unfold ofStored?
    refine fields?_bind rfl (by decide) ?_
    refine required_bind Category.form rfl trivial ?_
    refine required_bind .amount rfl hRange.chips ?_
    refine required_bind .amount rfl hRange.mult ?_
    refine required_bind indicesForm rfl hRange.scoringIndices ?_
    rfl
  inRange := by
    intro v h hRead
    simp only [ofStored?, bind, bind_eq_some_iff, pure,
      Option.some.injEq] at hRead
    rcases hRead with
      ⟨fs, -, category, -, chips, hChips, mult, hMult, indices,
        hIndices, rfl⟩
    exact
      ⟨required_inRange .amount hChips,
        required_inRange .amount hMult,
        required_inRange indicesForm hIndices⟩

end HandResult

------------------------------------------------------------
-- Plays And Discards
------------------------------------------------------------

/- The form of lines. -/
def StoredForm.lines : StoredForm (List String) :=
  .list .text

namespace PlaySummary

/- The numbers of a result fit their fields. -/
structure InRange
    (s : PlaySummary) : Prop where
  hand : s.hand.InRange
  chips : Amount.InRange s.chips
  mult : Amount.InRange s.mult
  score : Amount.InRange s.score

/- The form of results of plays. -/
def form : StoredForm PlaySummary where
  write := stored
  read? := ofStored?
  InRange := InRange
  IsExact _ := True
  plain := by
    intro s hRange _
    rw [stored, storedFields, Json.plain_object_iff]
    simp only [List.forall_mem_singleton,
      List.forall_mem_cons]
    refine ⟨HandResult.form.plain hRange.hand trivial,
      StoredForm.amount.plain hRange.chips trivial,
      StoredForm.amount.plain hRange.mult trivial,
      StoredForm.amount.plain hRange.score trivial, ?_⟩
    exact StoredForm.lines.plain (fun _ _ => trivial)
      fun _ _ => trivial
  read_write := by
    intro s hRange
    unfold ofStored?
    refine fields?_bind rfl (by decide) ?_
    refine required_bind HandResult.form rfl hRange.hand ?_
    refine required_bind .amount rfl hRange.chips ?_
    refine required_bind .amount rfl hRange.mult ?_
    refine required_bind .amount rfl hRange.score ?_
    refine required_bind .lines rfl (fun _ _ => trivial) ?_
    rfl
  inRange := by
    intro v s hRead
    simp only [ofStored?, bind, bind_eq_some_iff, pure,
      Option.some.injEq] at hRead
    rcases hRead with
      ⟨fs, -, hand, hHand, chips, hChips, mult, hMult, score,
        hScore, log, -, rfl⟩
    exact
      ⟨required_inRange HandResult.form hHand,
        required_inRange .amount hChips,
        required_inRange .amount hMult,
        required_inRange .amount hScore⟩

end PlaySummary

namespace DiscardSummary

/- The numbers of a result fit their fields. -/
structure InRange
    (s : DiscardSummary) : Prop where
  dollars : Amount.InRange s.dollars
  chips : Amount.InRange s.chips
  mult : Amount.InRange s.mult

/- The form of results of discards. -/
def form : StoredForm DiscardSummary where
  write := stored
  read? := ofStored?
  InRange := InRange
  IsExact _ := True
  plain := by
    intro s hRange _
    rw [stored, Json.plain_object_iff]
    simp only [List.forall_mem_singleton,
      List.forall_mem_cons]
    refine ⟨StoredForm.amount.plain hRange.dollars trivial,
      StoredForm.amount.plain hRange.chips trivial,
      StoredForm.amount.plain hRange.mult trivial, ?_⟩
    exact StoredForm.lines.plain (fun _ _ => trivial)
      fun _ _ => trivial
  read_write := by
    intro s hRange
    unfold ofStored?
    refine fields?_bind rfl (by decide) ?_
    refine required_bind .amount rfl hRange.dollars ?_
    refine required_bind .amount rfl hRange.chips ?_
    refine required_bind .amount rfl hRange.mult ?_
    refine required_bind .lines rfl (fun _ _ => trivial) ?_
    rfl
  inRange := by
    intro v s hRead
    simp only [ofStored?, bind, bind_eq_some_iff, pure,
      Option.some.injEq] at hRead
    rcases hRead with
      ⟨fs, -, dollars, hDollars, chips, hChips, mult, hMult,
        log, -, rfl⟩
    exact
      ⟨required_inRange .amount hDollars,
        required_inRange .amount hChips,
        required_inRange .amount hMult⟩

end DiscardSummary

------------------------------------------------------------
-- Progress
------------------------------------------------------------

namespace Progress

/- The numbers of progress fit their fields. -/
structure InRange
    (p : Progress) : Prop where
  round : p.round ≤ 4294967295
  score : Amount.InRange p.score
  target : Amount.InRange p.target
  handsLeft : p.handsLeft ≤ 255
  discardsLeft : p.discardsLeft ≤ 255
  money : Amount.InRange p.money

/- The form of progress. -/
def form : StoredForm Progress where
  write := stored
  read? := ofStored?
  InRange := InRange
  IsExact _ := True
  plain := by
    intro p hRange _
    rw [stored, Json.plain_object_iff]
    simp only [List.forall_mem_singleton,
      List.forall_mem_cons]
    exact ⟨RunPhase.form.plain trivial trivial,
      StoredForm.natural32.plain hRange.round trivial,
      StoredForm.amount.plain hRange.score trivial,
      StoredForm.amount.plain hRange.target trivial,
      StoredForm.natural8.plain hRange.handsLeft trivial,
      StoredForm.natural8.plain hRange.discardsLeft trivial,
      StoredForm.amount.plain hRange.money trivial⟩
  read_write := by
    intro p hRange
    unfold ofStored?
    refine fields?_bind rfl (by decide) ?_
    refine required_bind RunPhase.form rfl trivial ?_
    refine required_bind .natural32 rfl hRange.round ?_
    refine required_bind .amount rfl hRange.score ?_
    refine required_bind .amount rfl hRange.target ?_
    refine required_bind .natural8 rfl hRange.handsLeft ?_
    refine required_bind .natural8 rfl hRange.discardsLeft ?_
    refine required_bind .amount rfl hRange.money ?_
    rfl
  inRange := by
    intro v p hRead
    simp only [ofStored?, bind, bind_eq_some_iff, pure,
      Option.some.injEq] at hRead
    rcases hRead with
      ⟨fs, -, phase, -, round, hRound, score, hScore, target,
        hTarget, hands, hHands, discards, hDiscards, money,
        hMoney, rfl⟩
    exact
      ⟨required_inRange .natural32 hRound,
        required_inRange .amount hScore,
        required_inRange .amount hTarget,
        required_inRange .natural8 hHands,
        required_inRange .natural8 hDiscards,
        required_inRange .amount hMoney⟩

end Progress

------------------------------------------------------------
-- Rank Entries
------------------------------------------------------------

namespace RankEntry

/- The chips of an entry fit their field. -/
structure InRange
    (e : RankEntry) : Prop where
  chips : Amount.InRange e.chips

/- The form of entries of the table of rank chips. -/
def form : StoredForm RankEntry where
  write := stored
  read? := ofStored?
  InRange := InRange
  IsExact _ := True
  plain := by
    intro e hRange _
    rw [stored, Json.plain_object_iff]
    simp only [List.forall_mem_singleton]
    exact StoredForm.amount.plain hRange.chips trivial
  read_write := by
    intro e hRange
    unfold ofStored?
    refine fields?_bind rfl (by decide) ?_
    refine optional_bind .amount rfl hRange.chips ?_
    rfl
  inRange := by
    intro v e hRead
    simp only [ofStored?, bind, bind_eq_some_iff, pure,
      Option.some.injEq] at hRead
    rcases hRead with ⟨fs, -, chips, hChips, rfl⟩
    have hZero : Amount.InRange 0 := by
      decide
    exact ⟨optional_inRange .amount hZero hChips⟩

end RankEntry

------------------------------------------------------------
-- Areas
------------------------------------------------------------

namespace Area

variable {α : Type}

/- The capacity of an area fits, and its items do. -/
structure InRange
    (Fits : α → Prop)
    (a : Area α) : Prop where
  capacity : a.capacity ≤ Numeral.largest64
  items : ∀ x ∈ a.items, Fits x

/- The form of areas whose items have a form. -/
def form
    (f : StoredForm α) : StoredForm (Area α) where
  write := stored f.write
  read? := ofStored? f.read?
  InRange := InRange f.InRange
  IsExact a := ∀ x ∈ a.items, f.IsExact x
  plain := by
    intro a hRange hExact
    rw [stored, Json.plain_object_iff]
    simp only [List.forall_mem_singleton,
      List.forall_mem_cons]
    exact ⟨StoredForm.natural64.plain hRange.capacity trivial,
      f.list.plain hRange.items hExact⟩
  read_write := by
    intro a hRange
    unfold ofStored?
    refine fields?_bind rfl (by decide) ?_
    refine required_bind .natural64 rfl hRange.capacity ?_
    refine required_bind f.list rfl hRange.items ?_
    rfl
  inRange := by
    intro v a hRead
    simp only [ofStored?, bind, bind_eq_some_iff, pure,
      Option.some.injEq] at hRead
    rcases hRead with
      ⟨fs, -, capacity, hCapacity, items, hItems, rfl⟩
    exact
      ⟨required_inRange .natural64 hCapacity,
        required_inRange f.list hItems⟩

end Area

end JokerRun
