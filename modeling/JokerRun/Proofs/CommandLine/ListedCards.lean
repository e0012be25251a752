import JokerRun.Proofs.CommandLine.Commands

/-
  Cards that are listed with a command.

  Playing and discarding take a list of positions, which
  replaces the selection.  The list goes by its set: each
  position of it is selected once, wherever and however
  often it stands.  A list that cannot be selected breaks
  off at its first position that is one too many, and what
  stands before that stays selected.

  Key definitions include:
    * `Run.MaySelect`
    * `Run.BreaksOff`
    * `Run.withSelected`
    * `Run.SelectingEnds`

  Key theorems include:
    * `Run.toggle_withSelected`
    * `Run.selectingEnds_selectAll`
    * `Run.BreaksOff.unique`
    * `Run.selectListed_cases`
    * `Run.listed_cards_act_as_set`
-/

------------------------------------------------------------
-- Sets Of Positions
------------------------------------------------------------

namespace JokerRun

namespace Run

/- All positions in the hand, and not too many of them. -/
structure MaySelect
    (r : Run)
    (is : List Nat) : Prop where
  inside : ∀ i ∈ is, i < r.hand.size
  few :
    (Positions.distinct is).length ≤
      r.rules.run.maxSelection

/-
  A list that cannot be selected as a whole, with the part
  of it before the first position that is in the way.
-/
def BreaksOff
    (r : Run)
    (is before : List Nat) : Prop :=
  r.MaySelect before ∧
    ∃ i, before ++ [i] <+: is ∧
      ¬ r.MaySelect (before ++ [i])

/- The run with some positions selected, and no others. -/
def withSelected
    (r : Run)
    (is : List Nat) : Run :=
  { r with selection := Positions.distinct is }

section

variable {r : Run}

theorem MaySelect.of_subset
    {is js : List Nat}
    (hMay : r.MaySelect js)
    (hSubset : is ⊆ js) :
    r.MaySelect is where
  inside := fun i hi => hMay.inside i (hSubset hi)
  few :=
    Nat.le_trans
      (Positions.length_distinct_le_of_subset hSubset)
      hMay.few

/- Only the set of positions matters. -/
theorem maySelect_congr
    {is js : List Nat}
    (hMembers : ∀ i, i ∈ js ↔ i ∈ is) :
    r.MaySelect js ↔ r.MaySelect is :=
  ⟨fun hMay => hMay.of_subset fun i => (hMembers i).mpr,
    fun hMay => hMay.of_subset fun i => (hMembers i).mp⟩

theorem BreaksOff.isPrefix
    {is before : List Nat}
    (hBreaks : r.BreaksOff is before) :
    before <+: is := by
  rcases hBreaks with ⟨-, i, hPrefix, -⟩
  exact (List.prefix_append before [i]).trans hPrefix

theorem BreaksOff.not_maySelect
    {is before : List Nat}
    (hBreaks : r.BreaksOff is before) :
    ¬ r.MaySelect is := by
  rcases hBreaks with ⟨-, i, hPrefix, hNot⟩
  exact fun hMay => hNot (hMay.of_subset hPrefix.subset)

/- Where a list broke off, it does not get any further. -/
theorem BreaksOff.length_le
    {is first second : List Nat}
    (hFirst : r.BreaksOff is first)
    (hSecond : r.BreaksOff is second) :
    first.length ≤ second.length := by
  rcases hSecond with ⟨-, i, hPrefix, hNot⟩
  by_contra hLater
  have hShort : (second ++ [i]).length ≤ first.length := by
    rw [List.length_append, List.length_singleton]
    omega
  have hReached : second ++ [i] <+: first :=
    List.prefix_of_prefix_length_le hPrefix
      hFirst.isPrefix hShort
  exact hNot (hFirst.1.of_subset hReached.subset)

/- A list breaks off in one place only. -/
theorem BreaksOff.unique
    {is first second : List Nat}
    (hFirst : r.BreaksOff is first)
    (hSecond : r.BreaksOff is second) :
    first = second := by
  have hPrefix : first <+: second :=
    List.prefix_of_prefix_length_le hFirst.isPrefix
      hSecond.isPrefix (hFirst.length_le hSecond)
  exact hPrefix.eq_of_length_le (hSecond.length_le hFirst)

------------------------------------------------------------
-- Selecting In Order
------------------------------------------------------------

/- A new position is sorted into those selected. -/
theorem withSelected_append
    {is : List Nat}
    {i : Nat}
    (hNew : i ∉ is) :
    r.withSelected (is ++ [i]) =
      { r with
        selection :=
          Positions.sort (Positions.distinct is ++ [i]) } := by
  rw [withSelected, Positions.sort_distinct_append hNew]

/-
  One more position: it is selected when all of them may
  be, and it is refused when they may not.
-/
theorem toggle_withSelected
    (hPlay : r.phase = .play)
    {is : List Nat}
    (hMay : r.MaySelect is)
    {i : Nat}
    (hNew : i ∉ is) :
    (r.MaySelect (is ++ [i]) ∧
        (r.withSelected is).toggle i =
          .quiet (r.withSelected (is ++ [i])) true) ∨
      (¬ r.MaySelect (is ++ [i]) ∧
        ∃ e, (r.withSelected is).toggle i =
          .refuse (r.withSelected is) e) := by
  have hLength := Positions.length_distinct_append hNew
  have hToggles :=
    toggles_toggle (r := r.withSelected is) hPlay i
  generalize (r.withSelected is).toggle i = t at hToggles ⊢
  cases hToggles with
  | outside hOutside =>
      refine Or.inr ⟨?_, _, rfl⟩
      intro hAll
      have hInside := hAll.inside i (by simp)
      exact Nat.not_lt_of_le hOutside hInside
  | unselected _ hSelected =>
      exact absurd (Positions.mem_distinct_iff.mp hSelected)
        hNew
  | full _ _ hFull =>
      refine Or.inr ⟨?_, _, rfl⟩
      intro hAll
      have hFew := hAll.few
      rw [hLength] at hFew
      exact Nat.not_lt_of_le hFull hFew
  | selected hInside _ hRoom =>
      refine Or.inl ⟨⟨?_, ?_⟩, ?_⟩
      · intro j hj
        rcases List.mem_append.mp hj with hEarlier | hLast
        · exact hMay.inside j hEarlier
        · rw [List.mem_singleton.mp hLast]
          exact hInside
      · rw [hLength]
        exact hRoom
      · rw [withSelected_append hNew]
        rfl

end

/- The ways in which selecting listed positions ends. -/
inductive SelectingEnds
    (r : Run)
    (is : List Nat) : Option RunError × Run → Prop where
  | all
      (hMay : r.MaySelect is) :
      SelectingEnds r is (none, r.withSelected is)
  | refused
      (e : RunError)
      {before : List Nat}
      (hBreaks : r.BreaksOff is before) :
      SelectingEnds r is (some e, r.withSelected before)

section

variable {r : Run}

/- A position that is selected already is skipped. -/
theorem selectAll_cons_selected
    {i : Nat}
    (hSelected : i ∈ r.selection)
    (is : List Nat) :
    r.selectAll (i :: is) = r.selectAll is :=
  if_pos (List.contains_iff_mem.mpr hSelected)

/- Any other goes by its toggle. -/
theorem selectAll_cons_new
    {i : Nat}
    (hNew : i ∉ r.selection)
    (is : List Nat) :
    r.selectAll (i :: is) =
      match (r.toggle i).answer with
      | .error e => (some e, (r.toggle i).run)
      | .ok _ => (r.toggle i).run.selectAll is := by
  have hNotSelected : ¬ r.selection.contains i = true := by
    rw [List.contains_iff_mem]
    exact hNew
  exact if_neg hNotSelected

/-
  Listed positions are selected one after the other.  What
  is done of the list so far is the selection, as a set, so
  a position that is listed again is skipped.
-/
theorem selectingEnds_selectAll
    (hPlay : r.phase = .play)
    {done : List Nat}
    (hMay : r.MaySelect done)
    (is : List Nat) :
    r.SelectingEnds (done ++ is)
      ((r.withSelected done).selectAll is) := by
  induction is generalizing done with
  | nil =>
      rw [List.append_nil]
      exact SelectingEnds.all hMay
  | cons i is ih =>
      rw [List.append_cons]
      by_cases hListed : i ∈ done
      · have hSame :
            r.withSelected (done ++ [i]) =
              r.withSelected done := by
          rw [withSelected, withSelected,
            Positions.distinct_append_of_mem hListed]
        have hAll : r.MaySelect (done ++ [i]) := by
          apply hMay.of_subset
          simpa using hListed
        rw [selectAll_cons_selected
          (Positions.mem_distinct_iff.mpr hListed), ← hSame]
        exact ih hAll
      · rw [selectAll_cons_new
          (mt Positions.mem_distinct_iff.mp hListed)]
        rcases toggle_withSelected hPlay hMay hListed with
          ⟨hAll, hToggle⟩ | ⟨hNot, e, hToggle⟩
        · rw [hToggle]
          exact ih hAll
        · rw [hToggle]
          exact SelectingEnds.refused e
            ⟨hMay, i, List.prefix_append _ _, hNot⟩

------------------------------------------------------------
-- Listed Cards
------------------------------------------------------------

/- No position is too many to start with. -/
theorem maySelect_nil
    (r : Run) :
    r.MaySelect [] where
  inside := by simp
  few := Nat.zero_le _

/- A list that is read is selected in place of the rest. -/
theorem selectListed_eq
    {args : List String}
    {is : List Nat}
    (hParse : IndexList.parse args = .ok is) :
    r.selectListed args =
      (((r.withSelected []).selectAll is).1.map .run,
        ((r.withSelected []).selectAll is).2) := by
  cases args with
  | nil => cases hParse
  | cons arg args =>
      unfold selectListed
      rw [hParse]
      rfl

/- Playing and discarding select what is listed. -/
def takingWords : List String :=
  ["play", "p", "discard", "d"]

theorem execute_taking
    {word : String}
    (hTaking : word ∈ takingWords) :
    (∀ (r : Run) args,
        r.execute word args = r.executePlay args) ∨
      ∀ (r : Run) args,
        r.execute word args = r.executeDiscard args := by
  simp only [takingWords, List.mem_cons, List.not_mem_nil,
    or_false] at hTaking
  rcases hTaking with rfl | rfl | rfl | rfl
  · exact Or.inl fun _ _ => rfl
  · exact Or.inl fun _ _ => rfl
  · exact Or.inr fun _ _ => rfl
  · exact Or.inr fun _ _ => rfl

/- They go by what selecting the listed cards left. -/
theorem execute_congr
    {s : Run}
    {args others : List String}
    (hSame : s.selectListed others = r.selectListed args)
    {word : String}
    (hTaking : word ∈ takingWords) :
    s.execute word others = r.execute word args := by
  rcases execute_taking hTaking with hPlay | hDiscard
  · simp only [hPlay, executePlay, hSame]
  · simp only [hDiscard, executeDiscard, hSame]

/- When that failed, nothing is played or discarded. -/
theorem execute_of_complaint
    {args : List String}
    {c : Complaint}
    {after : Run}
    (hFailed : r.selectListed args = (some c, after))
    {word : String}
    (hTaking : word ∈ takingWords) :
    r.execute word args = .complaining after c := by
  rcases execute_taking hTaking with hPlay | hDiscard
  · simp only [hPlay, executePlay, hFailed]
  · simp only [hDiscard, executeDiscard, hFailed]

/- Listed cards are selected, or the list breaks off. -/
theorem selectListed_cases
    (hPlay : r.phase = .play)
    {args : List String}
    {is : List Nat}
    (hParse : IndexList.parse args = .ok is) :
    (r.MaySelect is ∧
        r.selectListed args = (none, r.withSelected is)) ∨
      ∃ e before, r.BreaksOff is before ∧
        r.selectListed args =
          (some (.run e), r.withSelected before) := by
  have hEnds :=
    selectingEnds_selectAll hPlay (maySelect_nil r) is
  rw [List.nil_append] at hEnds
  rw [selectListed_eq hParse]
  generalize (r.withSelected []).selectAll is = x at hEnds ⊢
  cases hEnds with
  | all hMay => exact Or.inl ⟨hMay, rfl⟩
  | refused e hBreaks =>
      exact Or.inr ⟨e, _, hBreaks, rfl⟩

/- What was selected before does not matter to a list. -/
theorem selectListed_of_reselected
    {s : Run}
    (hSame : r.Reselected s)
    {args : List String}
    {is : List Nat}
    (hParse : IndexList.parse args = .ok is) :
    s.selectListed args = r.selectListed args := by
  rcases hSame with ⟨earlier, rfl⟩
  rw [selectListed_eq hParse, selectListed_eq hParse]
  rfl

/- Lists of the same positions select the same cards. -/
theorem selectListed_congr
    (hPlay : r.phase = .play)
    {args others : List String}
    {is js : List Nat}
    (hParse : IndexList.parse args = .ok is)
    (hOthers : IndexList.parse others = .ok js)
    (hMembers : ∀ i, i ∈ js ↔ i ∈ is)
    (hMay : r.MaySelect is) :
    r.selectListed others = r.selectListed args := by
  have hSelected :
      r.withSelected js = r.withSelected is := by
    rw [withSelected, withSelected,
      Positions.distinct_eq_of_mem_iff hMembers]
  rcases selectListed_cases hPlay hParse with
    ⟨-, hListed⟩ | ⟨e, before, hBreaks, -⟩
  · rcases selectListed_cases hPlay hOthers with
      ⟨-, hSecond⟩ | ⟨e, before, hBreaks, -⟩
    · rw [hListed, hSecond, hSelected]
    · exact absurd ((maySelect_congr hMembers).mpr hMay)
        hBreaks.not_maySelect
  · exact absurd hMay hBreaks.not_maySelect

/- A list that breaks off leaves selected what it did. -/
theorem run_execute_of_breaksOff
    (hPlay : r.phase = .play)
    {args : List String}
    {is before : List Nat}
    (hParse : IndexList.parse args = .ok is)
    (hBreaks : r.BreaksOff is before)
    {word : String}
    (hTaking : word ∈ takingWords) :
    (r.execute word args).run = r.withSelected before := by
  rcases selectListed_cases hPlay hParse with
    ⟨hMay, -⟩ | ⟨e, done, hDone, hListed⟩
  · exact absurd hMay hBreaks.not_maySelect
  · rw [execute_of_complaint hListed hTaking,
      hBreaks.unique hDone]
    rfl

/-
  The listed cards are selected, and no others, exactly when
  they are in the hand and not too many.  Then any list of
  the same cards does the same, whatever was selected
  before.  A list of other cards never acts in any order; it
  selects what it names before the first that is too many.
-/
theorem listed_cards_act_as_set
    (hPlay : r.phase = .play)
    {args : List String}
    {is : List Nat}
    (hParse : IndexList.parse args = .ok is) :
    ((r.selectListed args).1 = none ↔ r.MaySelect is) ∧
      (r.MaySelect is →
        (r.selectListed args).2 = r.withSelected is) ∧
      ∀ s others js,
        r.Reselected s →
        IndexList.parse others = .ok js →
        (∀ i, i ∈ js ↔ i ∈ is) →
        ∀ word ∈ takingWords,
          (r.MaySelect is →
            s.execute word others = r.execute word args) ∧
          (¬ r.MaySelect is →
            ∃ e before, r.BreaksOff js before ∧
              s.execute word others =
                .complaining (r.withSelected before)
                  (.run e)) := by
  refine ⟨?_, ?_, ?_⟩
  · rcases selectListed_cases hPlay hParse with
      ⟨hMay, hListed⟩ | ⟨e, before, hBreaks, hListed⟩
    · simp [hListed, hMay]
    · simp [hListed, hBreaks.not_maySelect]
  · intro hMay
    rcases selectListed_cases hPlay hParse with
      ⟨-, hListed⟩ | ⟨e, before, hBreaks, -⟩
    · rw [hListed]
    · exact absurd hMay hBreaks.not_maySelect
  · intro s others js hSame hOthers hMembers word hTaking
    have hEarlier := selectListed_of_reselected hSame hOthers
    constructor
    · intro hMay
      apply execute_congr _ hTaking
      rw [hEarlier]
      exact selectListed_congr hPlay hParse hOthers hMembers
        hMay
    · intro hNot
      rw [← maySelect_congr hMembers] at hNot
      rcases selectListed_cases hPlay hOthers with
        ⟨hMay, -⟩ | ⟨e, before, hBreaks, hListed⟩
      · exact absurd hMay hNot
      · refine ⟨e, before, hBreaks, ?_⟩
        apply execute_of_complaint _ hTaking
        rw [hEarlier, hListed]

end

/- Two cards listed in two ways are the same two cards. -/
theorem listed_cards_act_as_set_startedRun :
    startedRun.phase = .play ∧
      IndexList.parse ["2,0", "2"] = .ok [2, 0, 2] ∧
      startedRun.MaySelect [2, 0, 2] ∧
      (startedRun.selectListed ["2,0", "2"]).1 = none ∧
      (startedRun.selectListed
        ["2,0", "2"]).2.selection = [0, 2] ∧
      ({ startedRun with
          selection := [7] }).execute "play" ["0", "2"] =
        startedRun.execute "play" ["2,0", "2"] := by
  have hStarted := isStarted_startedRun
  have hParse :
      IndexList.parse ["2,0", "2"] = .ok [2, 0, 2] := by
    decide
  have hOthers : IndexList.parse ["0", "2"] = .ok [0, 2] := by
    decide
  have hMembers : ∀ i, i ∈ [0, 2] ↔ i ∈ [2, 0, 2] := by
    intro i
    simp only [List.mem_cons, List.not_mem_nil, or_false]
    omega
  have hMay : startedRun.MaySelect [2, 0, 2] := by
    refine ⟨?_, ?_⟩
    · rw [hStarted.size]
      decide
    · rw [hStarted.limit]
      decide
  rcases listed_cards_act_as_set hStarted.phase hParse with
    ⟨hAccepted, hSelected, hSame⟩
  refine ⟨hStarted.phase, hParse, hMay,
    hAccepted.mpr hMay, ?_, ?_⟩
  · rw [hSelected hMay]
    decide
  · exact (hSame _ _ _ ⟨[7], rfl⟩ hOthers hMembers "play"
      (by decide)).1 hMay

/-
  A refused list goes by its order: the first card stays
  selected only where it is listed before the card that is
  not in the hand.
-/
theorem refused_list_goes_by_order :
    Reachable startedRun ∧
      startedRun.phase = .play ∧
      IndexList.parse ["0", "99"] = .ok [0, 99] ∧
      IndexList.parse ["99", "0"] = .ok [99, 0] ∧
      (∀ i, i ∈ [99, 0] ↔ i ∈ [0, 99]) ∧
      (startedRun.execute "play"
        ["0", "99"]).run.selection = [0] ∧
      (startedRun.execute "play"
        ["99", "0"]).run.selection = [] ∧
      startedRun.execute "play" ["99", "0"] ≠
        startedRun.execute "play" ["0", "99"] := by
  have hStarted := isStarted_startedRun
  have hParse : IndexList.parse ["0", "99"] = .ok [0, 99] := by
    decide
  have hOthers :
      IndexList.parse ["99", "0"] = .ok [99, 0] := by
    decide
  have hMembers : ∀ i, i ∈ [99, 0] ↔ i ∈ [0, 99] := by
    intro i
    simp only [List.mem_cons, List.not_mem_nil, or_false]
    exact Or.comm
  have hOutside :
      ∀ is, 99 ∈ is → ¬ startedRun.MaySelect is := by
    intro is hMem hMay
    have hInside := hMay.inside 99 hMem
    rw [hStarted.size] at hInside
    exact absurd hInside (by decide)
  have hFirst : startedRun.MaySelect [0] := by
    refine ⟨?_, ?_⟩
    · rw [hStarted.size]
      decide
    · rw [hStarted.limit]
      decide
  have hAfterFirst : startedRun.BreaksOff [0, 99] [0] :=
    ⟨hFirst, 99, List.prefix_rfl, hOutside _ (by decide)⟩
  have hAtOnce : startedRun.BreaksOff [99, 0] [] :=
    ⟨maySelect_nil startedRun, 99,
      List.prefix_append [99] [0], hOutside _ (by decide)⟩
  have hOne :
      (startedRun.execute "play"
        ["0", "99"]).run.selection = [0] := by
    rw [run_execute_of_breaksOff hStarted.phase hParse
      hAfterFirst (by decide)]
    decide
  have hNone :
      (startedRun.execute "play"
        ["99", "0"]).run.selection = [] := by
    rw [run_execute_of_breaksOff hStarted.phase hOthers
      hAtOnce (by decide)]
    rfl
  refine ⟨hStarted.reachable, hStarted.phase, hParse,
    hOthers, hMembers, hOne, hNone, ?_⟩
  intro hEqual
  rw [hEqual, hOne] at hNone
  cases hNone

end Run

end JokerRun
