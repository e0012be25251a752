import JokerRun.CommandLine.Commands
import JokerRun.Proofs.Run.Refusal
import JokerRun.Proofs.Run.Toggling

/-
  Commands go by the actions of a run.

  A command reads positions, may clear the selection and
  toggle cards one after the other, and then takes one
  action.  Each of these steps can be the one that fails.
  What a failing command leaves is a reachable run that
  differs from the old one in the selection at most.

  Key definitions include:
    * `Run.Reselects`
    * `Reaction.Orderly`
    * `Run.Verb.Selects`
    * `Run.FailsCleanly`

  Key theorems include:
    * `Run.toggleAll_reselects`
    * `Run.selectAll_reselects`
    * `Run.orderly_executeVerb`
    * `Run.failed_command_keeps_table`
-/

------------------------------------------------------------
-- Selecting
------------------------------------------------------------

namespace JokerRun

namespace Run

theorem reachable_toggle
    {r : Run}
    (hReachable : Reachable r)
    (i : Nat) :
    Reachable (r.toggle i).run :=
  Reachable.perform (.toggle i) hReachable

/- A reachable run with the old one's table and hand. -/
structure Reselects (r s : Run) : Prop where
  reachable : Reachable s
  same : r.Reselected s

theorem Reselects.trans
    {r s t : Run}
    (hFirst : r.Reselects s)
    (hSecond : s.Reselects t) :
    r.Reselects t :=
  ⟨hSecond.reachable, hFirst.same.trans hSecond.same⟩

theorem reselects_toggle
    {r : Run}
    (hReachable : Reachable r)
    (i : Nat) :
    r.Reselects (r.toggle i).run :=
  ⟨reachable_toggle hReachable i, reselected_toggle r i⟩

/- Refused or not, toggles move nothing but the selection. -/
theorem toggleAll_reselects
    {r : Run}
    (hReachable : Reachable r)
    (is : List Nat) :
    r.Reselects (r.toggleAll is).2 := by
  induction is generalizing r with
  | nil => exact ⟨hReachable, Reselected.refl r⟩
  | cons i is ih =>
      have hToggle := reselects_toggle hReachable i
      unfold toggleAll
      cases hAnswer : (r.toggle i).answer with
      | error e =>
          simp only [hAnswer]
          exact hToggle
      | ok now =>
          simp only [hAnswer]
          exact hToggle.trans (ih hToggle.reachable)

theorem selectAll_reselects
    {r : Run}
    (hReachable : Reachable r)
    (is : List Nat) :
    r.Reselects (r.selectAll is).2 := by
  induction is generalizing r with
  | nil => exact ⟨hReachable, Reselected.refl r⟩
  | cons i is ih =>
      have hToggle := reselects_toggle hReachable i
      unfold selectAll
      by_cases hSelected : r.selection.contains i = true
      · simp only [hSelected, if_true]
        exact ih hReachable
      · simp only [hSelected]
        cases (r.toggle i).answer with
        | error e => exact hToggle
        | ok now =>
            exact hToggle.trans (ih hToggle.reachable)

/- Listed cards are selected anew, or the list is no list. -/
theorem selectListed_reselects
    {r : Run}
    (hReachable : Reachable r)
    (args : List String) :
    r.Reselects (r.selectListed args).2 := by
  have hSame : r.Reselects r :=
    ⟨hReachable, Reselected.refl r⟩
  cases args with
  | nil => exact hSame
  | cons arg args =>
      unfold selectListed
      cases IndexList.parse (arg :: args) with
      | error e => exact hSame
      | ok is =>
          have hCleared : r.Reselects r.clearSelection :=
            ⟨Reachable.perform .clearSelection hReachable,
              [], rfl⟩
          exact hCleared.trans
            (selectAll_reselects hCleared.reachable is)

end Run

------------------------------------------------------------
-- Reactions
------------------------------------------------------------

namespace Reaction

/-
  A reaction that leaves a reachable run.  With a complaint
  it announces nothing, and of the run it leaves `P`
  holds.
-/
structure Orderly
    (P : Run → Prop)
    (x : Reaction) : Prop where
  reachable : Run.Reachable x.run
  silent : x.complaint ≠ none → x.events = []
  left : x.complaint ≠ none → P x.run

theorem Orderly.mono
    {P Q : Run → Prop}
    {x : Reaction}
    (hOrderly : x.Orderly P)
    (hWeaker : ∀ s, P s → Q s) :
    x.Orderly Q where
  reachable := hOrderly.reachable
  silent := hOrderly.silent
  left := fun hComplaint =>
    hWeaker x.run (hOrderly.left hComplaint)

theorem orderly_showing
    {P : Run → Prop}
    {r : Run}
    (hReachable : Run.Reachable r)
    (lines : List String) :
    (showing r lines).Orderly P where
  reachable := hReachable
  silent := fun _ => rfl
  left := fun hComplaint => absurd rfl hComplaint

theorem orderly_complaining
    {P : Run → Prop}
    {r : Run}
    (hReachable : Run.Reachable r)
    (hLeft : P r)
    (c : Complaint) :
    (complaining r c).Orderly P where
  reachable := hReachable
  silent := fun _ => rfl
  left := fun _ => hLeft

/-
  The reaction to the turn of an action: a refusal is an
  action declined, which leaves the run as it was.
-/
theorem orderly_ofTurn
    {α : Type}
    {r : Run}
    {a : Action}
    {t : Turn α}
    {reply : α → Reply}
    (hReachable : Run.Reachable r)
    (hTurn : r.perform a = t.map reply)
    (lines : α → List String) :
    (ofTurn t lines).Orderly fun s => s = r := by
  have hStep := Run.step_of_reachable hReachable a
  have hAfter := Run.Reachable.perform a hReachable
  rw [hTurn] at hStep hAfter
  cases hAnswer : t.answer with
  | ok x =>
      have hReaction :
          ofTurn t lines =
            ⟨t.run, none, lines x, t.events, t.notices⟩ := by
        simp only [ofTurn, hAnswer]
      rw [hReaction]
      exact {
        reachable := hAfter
        silent := fun hComplaint => absurd rfl hComplaint
        left := fun hComplaint => absurd rfl hComplaint }
  | error e =>
      have hDeclined : Run.Declined (t.map reply).answer := by
        refine Or.inl ⟨e, ?_⟩
        simp only [Turn.map, hAnswer, Except.map]
      rcases hStep.unchanged hDeclined with
        ⟨hRun, hEvents⟩
      have hReaction :
          ofTurn t lines =
            ⟨t.run, some (.run e), [], t.events,
              t.notices⟩ := by
        simp only [ofTurn, hAnswer]
      rw [hReaction]
      exact {
        reachable := hAfter
        silent := fun _ => hEvents
        left := fun _ => hRun }

theorem orderly_withIndex
    {P : Run → Prop}
    {r : Run}
    {act : Nat → Reaction}
    (hReachable : Run.Reachable r)
    (hLeft : P r)
    (hAct : ∀ i, (act i).Orderly P)
    (args : List String) :
    (withIndex r args act).Orderly P := by
  unfold withIndex
  cases IndexList.parseOne args with
  | error e => exact orderly_complaining hReachable hLeft _
  | ok i => exact hAct i

end Reaction

------------------------------------------------------------
-- Commands
------------------------------------------------------------

namespace Run

namespace Verb

/- The words of the commands that select cards. -/
def selectingWords : List String :=
  ["sel", "select", "play", "p", "discard", "d"]

/- Whether a command selects cards. -/
def Selects
    (v : Verb) : Prop :=
  v = .select ∨ v = .play ∨ v = .discard

theorem mem_selectingWords_of_selects
    {word : String}
    {v : Verb}
    (hWord : ofWord? word = some v)
    (hSelects : v.Selects) :
    word ∈ selectingWords := by
  unfold ofWord? at hWord
  rcases hSelects with rfl | rfl | rfl <;>
    split at hWord <;> simp_all [selectingWords]

end Verb

section

variable {r : Run}
variable (hReachable : Reachable r)

include hReachable

theorem orderly_executeSelect
    (args : List String) :
    (r.executeSelect args).Orderly r.Reselected := by
  unfold executeSelect
  cases IndexList.parse args with
  | error e =>
      exact Reaction.orderly_complaining hReachable
        (Reselected.refl r) _
  | ok is =>
      have hToggled := toggleAll_reselects hReachable is
      rcases hResult : r.toggleAll is with ⟨refusal, after⟩
      rw [hResult] at hToggled
      simp only [hResult]
      cases refusal with
      | none =>
          exact Reaction.orderly_showing hToggled.reachable _
      | some e =>
          exact Reaction.orderly_complaining
            hToggled.reachable hToggled.same _

/-
  A command that selects cards and then takes an action:
  when the action is refused, the new selection stays.
-/
theorem orderly_selecting
    {α : Type}
    {a : Action}
    {reply : α → Reply}
    {args : List String}
    (act : Run → Turn α)
    (lines : Run → α → List String)
    (hAct : ∀ s : Run, s.perform a = (act s).map reply) :
    (match r.selectListed args with
      | (some c, after) => Reaction.complaining after c
      | (none, after) =>
          Reaction.ofTurn (act after)
            (lines after)).Orderly r.Reselected := by
  have hSelected := selectListed_reselects hReachable args
  rcases hResult : r.selectListed args with
    ⟨complaint, after⟩
  rw [hResult] at hSelected
  cases complaint with
  | some c =>
      exact Reaction.orderly_complaining
        hSelected.reachable hSelected.same c
  | none =>
      have hTurn :=
        Reaction.orderly_ofTurn hSelected.reachable
          (hAct after) (lines after)
      refine hTurn.mono ?_
      rintro s rfl
      exact hSelected.same

/- A command that does not select fails without a trace. -/
theorem orderly_of_not_selects
    {v : Verb}
    (hOther : ¬ v.Selects)
    (args : List String) :
    (r.executeVerb args v).Orderly fun s => s = r := by
  unfold Verb.Selects at hOther
  cases v with
  | select | play | discard => simp at hOther
  | help | hand | status | jokers | shop =>
      exact Reaction.orderly_showing hReachable _
  | cancel =>
      exact Reaction.orderly_showing
        (Reachable.perform .cancelPurchase hReachable) _
  | buy =>
      exact Reaction.orderly_withIndex
        (P := fun s => s = r) hReachable rfl
        (fun i => Reaction.orderly_ofTurn hReachable
          (a := .buy i) rfl _) args
  | replace =>
      exact Reaction.orderly_withIndex
        (P := fun s => s = r) hReachable rfl
        (fun i => Reaction.orderly_ofTurn hReachable
          (a := .replace i) rfl _) args
  | sell =>
      exact Reaction.orderly_withIndex
        (P := fun s => s = r) hReachable rfl
        (fun i => Reaction.orderly_ofTurn hReachable
          (a := .sell i) rfl _) args
  | reroll =>
      exact Reaction.orderly_ofTurn hReachable
        (a := .reroll) rfl _
  | next =>
      exact Reaction.orderly_ofTurn hReachable
        (a := .next) rfl _

/- Any command fails with the selection moved at most. -/
theorem orderly_executeVerb
    (args : List String)
    (v : Verb) :
    (r.executeVerb args v).Orderly r.Reselected := by
  by_cases hSelects : v.Selects
  · rcases hSelects with rfl | rfl | rfl
    · exact orderly_executeSelect hReachable args
    · exact orderly_selecting hReachable (a := .play) play
        (fun after s =>
          Screen.score s after.selectedCards ++
            if after.play.run.phase = .play then
              Screen.hand after.play.run
            else [])
        fun _ => rfl
    · exact orderly_selecting hReachable (a := .discard)
        discard
        (fun after s =>
          s.log.map Screen.logLine ++
            Screen.hand after.discard.run)
        fun _ => rfl
  · refine
      (orderly_of_not_selects hReachable hSelects
        args).mono ?_
    rintro s rfl
    exact Reselected.refl s

end

------------------------------------------------------------
-- Words
------------------------------------------------------------

/-
  What a failed command leaves: nothing is announced, no
  part of the run but the selection differs, nor that unless
  the command selects cards, and the selection is in order.
-/
structure FailsCleanly
    (r : Run)
    (word : String)
    (x : Reaction) : Prop where
  silent : x.events = []
  reselected :
    ∃ selection, x.run = { r with selection := selection }
  kept : word ∉ Verb.selectingWords → x.run = r
  ascending : Positions.Ascending x.run.selection
  inside : ∀ i ∈ x.run.selection, i < r.hand.size
  selected :
    x.run.selection.length ≤ r.rules.run.maxSelection

/- A word that names no command is a complaint. -/
theorem orderly_execute
    {r : Run}
    (hReachable : Reachable r)
    (word : String)
    (args : List String) :
    (r.execute word args).Orderly fun s =>
      r.Reselected s ∧
        (word ∉ Verb.selectingWords → s = r) := by
  unfold execute
  cases hWord : Verb.ofWord? word with
  | none =>
      exact Reaction.orderly_complaining hReachable
        ⟨Reselected.refl r, fun _ => rfl⟩ _
  | some v =>
      have hOrderly := orderly_executeVerb hReachable args v
      refine ⟨hOrderly.reachable, hOrderly.silent, ?_⟩
      intro hComplaint
      refine ⟨hOrderly.left hComplaint, ?_⟩
      intro hOther
      have hNotSelects : ¬ v.Selects := fun hSelects =>
        hOther
          (Verb.mem_selectingWords_of_selects hWord hSelects)
      exact (orderly_of_not_selects hReachable hNotSelects
        args).left hComplaint

/-
  Every word with every list of arguments leads from a
  reachable run to a reachable one, and when it is not
  carried out, it fails cleanly.
-/
theorem failed_command_keeps_table
    {r : Run}
    (hReachable : Reachable r)
    (word : String)
    (args : List String) :
    Reachable (r.execute word args).run ∧
      ((r.execute word args).complaint ≠ none →
        r.FailsCleanly word (r.execute word args)) := by
  have hOrderly := orderly_execute hReachable word args
  have hAfter := hOrderly.reachable
  refine ⟨hAfter, ?_⟩
  intro hComplaint
  rcases hOrderly.left hComplaint with ⟨hSame, hKept⟩
  have hOrder := inOrder_of_reachable hAfter
  have hSelected :=
    (withinLimits_of_reachable hAfter).selected
  have hHand : (r.execute word args).run.hand = r.hand := by
    rcases hSame with ⟨selection, hRun⟩
    rw [hRun]
  have hRules :
      (r.execute word args).run.rules = r.rules := by
    rcases hSame with ⟨selection, hRun⟩
    rw [hRun]
  refine ⟨hOrderly.silent hComplaint, hSame, hKept,
    hOrder.ascending, ?_, ?_⟩
  · rw [← hHand]
    exact hOrder.inside
  · rw [← hRules]
    exact hSelected

/- A position outside the hand is always refused. -/
theorem toggleAll_refused_of_outside
    {r : Run}
    {is : List Nat}
    {i : Nat}
    (hMem : i ∈ is)
    (hOutside : r.hand.size ≤ i) :
    (r.toggleAll is).1 ≠ none := by
  induction is generalizing r with
  | nil => exact absurd hMem List.not_mem_nil
  | cons j js ih =>
      unfold toggleAll
      cases hAnswer : (r.toggle j).answer with
      | error e => simp [hAnswer]
      | ok now =>
          simp only [hAnswer]
          rcases List.mem_cons.mp hMem with rfl | hLater
          · -- The first position is the one outside.
            have hNoCard : (r.hand.get? i).isNone = true :=
              (Area.get?_isNone_iff r.hand i).mpr hOutside
            unfold toggle at hAnswer
            by_cases hPhase : r.phase = .play <;>
              simp [hPhase, hNoCard, Turn.refuse] at hAnswer
          · apply ih hLater
            rcases reselected_toggle r j with
              ⟨selection, hRun⟩
            rw [hRun]
            exact hOutside

theorem execute_sel
    (r : Run)
    (args : List String) :
    r.execute "sel" args = r.executeSelect args := rfl

/- A list that names such a position is complained about. -/
theorem complaint_executeSelect_of_outside
    {r : Run}
    {args : List String}
    {is : List Nat}
    {i : Nat}
    (hParse : IndexList.parse args = .ok is)
    (hMem : i ∈ is)
    (hOutside : r.hand.size ≤ i) :
    (r.executeSelect args).complaint ≠ none := by
  have hRefused :=
    toggleAll_refused_of_outside hMem hOutside
  unfold executeSelect
  rw [hParse]
  rcases hResult : r.toggleAll is with ⟨refusal, after⟩
  rw [hResult] at hRefused
  cases refusal with
  | none => exact absurd rfl hRefused
  | some e => simp [hResult, Reaction.complaining]

/- The second card is selected before the list breaks off. -/
theorem failed_command_keeps_table_halfway :
    Reachable startedRun ∧
      (startedRun.execute "sel" ["1", "99"]).complaint ≠
        none ∧
      Reachable
        (startedRun.execute "sel" ["1", "99"]).run ∧
      startedRun.FailsCleanly "sel"
        (startedRun.execute "sel" ["1", "99"]) := by
  have hReachable : Reachable startedRun :=
    reachable_performAll (Reachable.begin _ _ _ _) [.start]
  have hSize : startedRun.hand.size = 8 := by
    rw [startedRun, size_performAll_start (Or.inl rfl)]
    rfl
  have hOutside : startedRun.hand.size ≤ 99 := by
    rw [hSize]
    decide
  have hParse :
      IndexList.parse ["1", "99"] = .ok [1, 99] := by
    decide
  have hMem : 99 ∈ [1, 99] := by decide
  have hComplaint :
      (startedRun.execute "sel" ["1", "99"]).complaint ≠
        none := by
    rw [execute_sel]
    exact complaint_executeSelect_of_outside hParse hMem
      hOutside
  rcases failed_command_keeps_table hReachable "sel"
      ["1", "99"] with ⟨hAfter, hFails⟩
  exact ⟨hReachable, hComplaint, hAfter,
    hFails hComplaint⟩

end Run

end JokerRun
