import JokerRun.Proofs.Run.Limits
import JokerRun.Proofs.Run.Opening
import Mathlib.Algebra.Ring.Parity

/-
  Toggles flip which cards are selected.

  An accepted toggle flips one position of the selection and
  leaves all else alone; a refused one leaves everything.
  So after toggles in a row a position is selected when its
  first state, flipped once for each accepted toggle of it,
  says so, in whatever order the toggles came.

  Key definitions include:
    * `Run.Reselected`
    * `Run.toggleEach`
    * `Run.acceptedToggles`
    * `Run.flipped`
    * `Run.AnswersToggles`

  Key theorems include:
    * `Run.toggle_cases`
    * `Run.selection_toggleEach`
    * `Run.toggleEach_acceptedToggles`
    * `Run.flipped_of_parity`
    * `Run.toggles_flip_selection`
-/

------------------------------------------------------------
-- Changed Selections
------------------------------------------------------------

namespace JokerRun

namespace Run

/- A run that differs in the selection at most. -/
def Reselected
    (r s : Run) : Prop :=
  ∃ selection, s = { r with selection := selection }

theorem Reselected.refl
    (r : Run) :
    r.Reselected r :=
  ⟨r.selection, rfl⟩

theorem Reselected.trans
    {r s t : Run}
    (hFirst : r.Reselected s)
    (hSecond : s.Reselected t) :
    r.Reselected t := by
  rcases hFirst with ⟨first, rfl⟩
  rcases hSecond with ⟨second, rfl⟩
  exact ⟨second, rfl⟩

/- Toggling a card moves nothing but the selection. -/
theorem reselected_toggle
    (r : Run)
    (i : Nat) :
    r.Reselected (r.toggle i).run := by
  unfold toggle
  split_ifs
  · exact Reselected.refl r
  · exact Reselected.refl r
  · exact ⟨r.selection.erase i, rfl⟩
  · exact Reselected.refl r
  · exact ⟨Positions.sort (r.selection ++ [i]), rfl⟩

theorem Reselected.phase
    {r s : Run}
    (hSame : r.Reselected s) :
    s.phase = r.phase := by
  rcases hSame with ⟨selection, rfl⟩
  rfl

theorem Reselected.hand
    {r s : Run}
    (hSame : r.Reselected s) :
    s.hand = r.hand := by
  rcases hSame with ⟨selection, rfl⟩
  rfl

------------------------------------------------------------
-- One Toggle
------------------------------------------------------------

/- One position flipped, and what is answered to that. -/
structure Flips
    (r : Run)
    (i : Nat)
    (s : Run)
    (now : Bool) : Prop where
  answer : now = true ↔ i ∈ s.selection
  flipped : i ∈ s.selection ↔ i ∉ r.selection
  kept : ∀ j, j ≠ i → (j ∈ s.selection ↔ j ∈ r.selection)

section

variable {r : Run}

/- A selected position is taken out. -/
theorem flips_unselect
    (hOrder : r.InOrder)
    {i : Nat}
    (hSelected : i ∈ r.selection) :
    r.Flips i
      { r with selection := r.selection.erase i } false where
  answer := by
    simp [hOrder.ascending.nodup.mem_erase_iff]
  flipped := by
    simp [hOrder.ascending.nodup.mem_erase_iff, hSelected]
  kept := fun _ hOther => List.mem_erase_of_ne hOther

/- Any other is put in. -/
theorem flips_select
    {i : Nat}
    (hNew : i ∉ r.selection) :
    r.Flips i
      { r with
        selection := Positions.sort (r.selection ++ [i]) }
      true where
  answer := by simp
  flipped := by simp [hNew]
  kept := by
    intro j hOther
    simp [hOther]

/- In a round a toggle is refused, or it flips. -/
theorem toggle_cases
    (hOrder : r.InOrder)
    (hPlay : r.phase = .play)
    (i : Nat) :
    (∃ e, r.toggle i = .refuse r e) ∨
      ∃ s now, r.toggle i = .quiet s now ∧
        r.Flips i s now := by
  have hToggles := toggles_toggle hPlay i
  generalize r.toggle i = t at hToggles ⊢
  cases hToggles with
  | outside | full => exact Or.inl ⟨_, rfl⟩
  | unselected _ hSelected =>
      exact Or.inr
        ⟨_, _, rfl, flips_unselect hOrder hSelected⟩
  | selected _ hNew =>
      exact Or.inr ⟨_, _, rfl, flips_select hNew⟩

theorem inOrder_toggle
    (hOrder : r.InOrder)
    (i : Nat) :
    (r.toggle i).run.InOrder :=
  inOrder_step hOrder (step_perform hOrder (.toggle i))

end

------------------------------------------------------------
-- Toggles In A Row
------------------------------------------------------------

/- The run after toggles in a row, accepted or not. -/
def toggleEach
    (r : Run)
    (is : List Nat) : Run :=
  r.performAll (is.map .toggle)

/- Of toggles in a row, the positions of the accepted ones. -/
def acceptedToggles
    (r : Run) : List Nat → List Nat
  | [] => []
  | i :: is =>
      let t := r.toggle i
      match t.answer with
      | .error _ => t.run.acceptedToggles is
      | .ok _ => i :: t.run.acceptedToggles is

/-
  The positions of the hand that are selected once their
  state is flipped for each time that they are listed.
-/
def flipped
    (r : Run)
    (is : List Nat) : List Nat :=
  (List.range r.hand.size).filter fun i =>
    not^[is.count i] (decide (i ∈ r.selection))

theorem reselected_toggleEach
    (r : Run)
    (is : List Nat) :
    r.Reselected (r.toggleEach is) := by
  induction is generalizing r with
  | nil => exact Reselected.refl r
  | cons i is ih =>
      exact (reselected_toggle r i).trans
        (ih (r.toggle i).run)

section

variable {r : Run}

/- With nothing flipped the selection stays. -/
theorem flipped_nil
    (hOrder : r.InOrder) :
    r.flipped [] = r.selection := by
  have hAscending : Positions.Ascending (r.flipped []) :=
    List.pairwise_lt_range.filter _
  apply hAscending.ext hOrder.ascending
  intro i
  unfold flipped
  rw [List.mem_filter, List.mem_range, List.count_nil,
    Function.iterate_zero, id_eq, decide_eq_true_iff]
  constructor
  · exact And.right
  · intro hSelected
    exact ⟨hOrder.inside i hSelected, hSelected⟩

/- One flip more, made at once. -/
theorem flipped_cons
    {i : Nat}
    {s : Run}
    {now : Bool}
    (hFlips : r.Flips i s now)
    (hHand : s.hand = r.hand)
    (is : List Nat) :
    r.flipped (i :: is) = s.flipped is := by
  unfold flipped
  rw [hHand]
  apply List.filter_congr
  intro j _
  by_cases hOwn : j = i
  · subst hOwn
    have hNow :
        decide (j ∈ s.selection) =
          !decide (j ∈ r.selection) := by
      simp [hFlips.flipped]
    rw [List.count_cons_self, Function.iterate_succ_apply,
      hNow]
  · rw [List.count_cons_of_ne (Ne.symm hOwn)]
    simp only [hFlips.kept j hOwn]

/-
  After toggles in a row a position is selected when its
  first state, flipped for each accepted toggle, says so.
-/
theorem selection_toggleEach
    (hOrder : r.InOrder)
    (hPlay : r.phase = .play)
    (is : List Nat) :
    (r.toggleEach is).selection =
      r.flipped (r.acceptedToggles is) := by
  induction is generalizing r with
  | nil => exact (flipped_nil hOrder).symm
  | cons i is ih =>
      have hSame := reselected_toggle r i
      have hOrderAfter := inOrder_toggle hOrder i
      have hPlayAfter : (r.toggle i).run.phase = .play :=
        hSame.phase.trans hPlay
      have hRest := ih hOrderAfter hPlayAfter
      change ((r.toggle i).run.toggleEach is).selection = _
      rcases toggle_cases hOrder hPlay i with
        ⟨e, hRefused⟩ | ⟨s, now, hFlipped, hFlips⟩
      · rw [hRest]
        simp only [acceptedToggles, hRefused, Turn.refuse]
      · have hHand := hSame.hand
        rw [hRest]
        simp only [acceptedToggles, hFlipped, Turn.quiet]
          at hHand ⊢
        exact (flipped_cons hFlips hHand _).symm

end

/- Refused toggles leave no trace. -/
theorem toggleEach_acceptedToggles
    {r : Run}
    (hPlay : r.phase = .play)
    (is : List Nat) :
    r.toggleEach (r.acceptedToggles is) = r.toggleEach is := by
  induction is generalizing r with
  | nil => rfl
  | cons i is ih =>
      have hRest := ih
        ((reselected_toggle r i).phase.trans hPlay)
      have hToggles := toggles_toggle hPlay i
      change _ = (r.toggle i).run.toggleEach is
      rw [← hRest]
      cases hAnswer : (r.toggle i).answer with
      | error e =>
          have hKept : (r.toggle i).run = r := by
            generalize r.toggle i = t at hToggles hAnswer
            cases hToggles with
            | outside | full => rfl
            | unselected | selected => cases hAnswer
          simp only [acceptedToggles, hAnswer]
          rw [hKept]
      | ok now =>
          simp only [acceptedToggles, hAnswer]
          rfl

------------------------------------------------------------
-- The Order Of Toggles
------------------------------------------------------------

/- Flipping twice is flipping not at all. -/
theorem iterate_not_mod_two
    (n : Nat)
    (b : Bool) :
    not^[n] b = not^[n % 2] b := by
  have hTwice : not^[2 * (n / 2)] = id :=
    Bool.involutive_not.iterate_two_mul (n / 2)
  calc
    not^[n] b
      = not^[n % 2 + 2 * (n / 2)] b := by
          rw [Nat.mod_add_div]
    _ = not^[n % 2] (not^[2 * (n / 2)] b) :=
          Function.iterate_add_apply _ _ _ _
    _ = not^[n % 2] b := by rw [hTwice, id_eq]

/- Of the flips of a position only their parity counts. -/
theorem flipped_of_parity
    (r : Run)
    {is js : List Nat}
    (hParity : ∀ i, is.count i % 2 = js.count i % 2) :
    r.flipped is = r.flipped js := by
  unfold flipped
  apply List.filter_congr
  intro i _
  rw [iterate_not_mod_two, hParity i,
    ← iterate_not_mod_two]

/- Positions listed in the hand, with room for all. -/
structure HasRoom
    (r : Run)
    (is : List Nat) : Prop where
  inside : ∀ i ∈ is, i < r.hand.size
  room :
    r.selection.length + is.length ≤
      r.rules.run.maxSelection

/- With room for all of them no toggle is refused. -/
theorem acceptedToggles_of_hasRoom
    {r : Run}
    (hPlay : r.phase = .play)
    {is : List Nat}
    (hRoom : r.HasRoom is) :
    r.acceptedToggles is = is := by
  induction is generalizing r with
  | nil => rfl
  | cons i is ih =>
      have hInside := hRoom.inside i List.mem_cons_self
      have hLater : ∀ j ∈ is, j < r.hand.size :=
        fun j hj => hRoom.inside j (List.mem_cons_of_mem i hj)
      have hLength := hRoom.room
      rw [List.length_cons] at hLength
      have hToggles := toggles_toggle hPlay i
      simp only [acceptedToggles]
      generalize r.toggle i = t at hToggles ⊢
      cases hToggles with
      | outside hOutside => omega
      | full _ _ hFull => omega
      | unselected =>
          have hErased :
              (r.selection.erase i).length ≤
                r.selection.length :=
            List.length_erase_le
          refine congrArg (i :: ·)
            (ih hPlay ⟨hLater, ?_⟩)
          change (r.selection.erase i).length + is.length ≤
            r.rules.run.maxSelection
          omega
      | selected =>
          have hGrown :
              (Positions.sort (r.selection ++ [i])).length =
                r.selection.length + 1 := by
            rw [(Positions.sort_perm _).length_eq,
              List.length_append, List.length_singleton]
          refine congrArg (i :: ·)
            (ih hPlay ⟨hLater, ?_⟩)
          change
            (Positions.sort (r.selection ++ [i])).length +
                is.length ≤
              r.rules.run.maxSelection
          omega

------------------------------------------------------------
-- Toggles Of A Reachable Run
------------------------------------------------------------

/-
  What the next toggle of a run answers: it is refused
  outside the hand and for a card too many, and else it
  tells whether the position is selected then.
-/
structure AnswersToggles (r : Run) : Prop where
  refused :
    ∀ i, (∃ e, (r.toggle i).answer = .error e) ↔
      r.hand.size ≤ i ∨
        (i ∉ r.selection ∧
          r.selection.length = r.rules.run.maxSelection)
  answered :
    ∀ i now, (r.toggle i).answer = .ok now →
      now = decide (i ∈ (r.toggle i).run.selection)

theorem answersToggles_of_reachable
    {r : Run}
    (hReachable : Reachable r)
    (hPlay : r.phase = .play) :
    r.AnswersToggles where
  refused := by
    intro i
    have hSelected :=
      (withinLimits_of_reachable hReachable).selected
    have hToggles := toggles_toggle hPlay i
    generalize r.toggle i = t at hToggles
    cases hToggles with
    | outside hOutside => simp [Turn.refuse, hOutside]
    | unselected hInside hMem =>
        simp [Turn.quiet, hMem, hInside]
    | full hInside hNew hFull =>
        have hExact := Nat.le_antisymm hSelected hFull
        simp [Turn.refuse, hNew, hExact]
    | selected hInside hNew hRoom =>
        simp [Turn.quiet, hInside, Nat.ne_of_lt hRoom]
  answered := by
    intro i now hAnswer
    rcases toggle_cases (inOrder_of_reachable hReachable)
        hPlay i with
      ⟨e, hRefused⟩ | ⟨s, flag, hFlipped, hFlips⟩
    · rw [hRefused] at hAnswer
      cases hAnswer
    · rw [hFlipped] at hAnswer ⊢
      obtain rfl := Except.ok.inj hAnswer
      exact Bool.eq_iff_iff.mpr
        (hFlips.answer.trans decide_eq_true_iff.symm)

/-
  Toggles in a row, of which the refused ones can be left
  out, select the positions whose first state, flipped once
  for each accepted toggle, says so; each toggle after them
  answers whether its position is selected then.  Toggles
  that are all accepted and list each position as often, up
  to parity, lead to the same selection in any order.
-/
theorem toggles_flip_selection
    {r : Run}
    (hReachable : Reachable r)
    (hPlay : r.phase = .play)
    (is : List Nat) :
    r.toggleEach (r.acceptedToggles is) = r.toggleEach is ∧
      (r.toggleEach is).selection =
        r.flipped (r.acceptedToggles is) ∧
      Positions.Ascending (r.toggleEach is).selection ∧
      (r.toggleEach is).AnswersToggles ∧
      ∀ js, r.acceptedToggles is = is →
        r.acceptedToggles js = js →
        (∀ i, is.count i % 2 = js.count i % 2) →
        (r.toggleEach is).selection =
          (r.toggleEach js).selection := by
  have hOrder := inOrder_of_reachable hReachable
  have hReachableAfter : Reachable (r.toggleEach is) :=
    reachable_performAll hReachable _
  have hPlayAfter : (r.toggleEach is).phase = .play :=
    (reselected_toggleEach r is).phase.trans hPlay
  refine ⟨toggleEach_acceptedToggles hPlay is,
    selection_toggleEach hOrder hPlay is,
    (inOrder_of_reachable hReachableAfter).ascending,
    answersToggles_of_reachable hReachableAfter hPlayAfter,
    ?_⟩
  intro js hFirst hSecond hParity
  calc
    (r.toggleEach is).selection
      = r.flipped is := by
          rw [selection_toggleEach hOrder hPlay is, hFirst]
    _ = r.flipped js := flipped_of_parity r hParity
    _ = (r.toggleEach js).selection := by
          rw [selection_toggleEach hOrder hPlay js, hSecond]

/- The fifth card is toggled thrice and stays selected. -/
theorem toggles_flip_selection_startedRun :
    Reachable startedRun ∧
      startedRun.phase = .play ∧
      startedRun.acceptedToggles [4, 1, 4, 4] =
        [4, 1, 4, 4] ∧
      startedRun.acceptedToggles [1, 4] = [1, 4] ∧
      (startedRun.toggleEach [4, 1, 4, 4]).selection =
        [1, 4] ∧
      (startedRun.toggleEach [1, 4]).selection = [1, 4] ∧
      ∃ e, ((startedRun.toggleEach [4, 1, 4, 4]).toggle
        99).answer = .error e := by
  have hStarted := isStarted_startedRun
  have hAccepted :
      ∀ is, is.length ≤ 5 → (∀ i ∈ is, i < 8) →
        startedRun.acceptedToggles is = is := by
    intro is hLength hInside
    apply acceptedToggles_of_hasRoom hStarted.phase
    refine ⟨?_, ?_⟩
    · rw [hStarted.size]
      exact hInside
    · rw [hStarted.unselected, hStarted.limit,
        List.length_nil, Nat.zero_add]
      exact hLength
  have hThrice :=
    hAccepted [4, 1, 4, 4] (by decide) (by decide)
  have hOnce := hAccepted [1, 4] (by decide) (by decide)
  have hParity :
      ∀ i, [4, 1, 4, 4].count i % 2 = [1, 4].count i % 2 := by
    intro i
    simp only [List.count_cons, List.count_nil]
    omega
  rcases toggles_flip_selection hStarted.reachable
      hStarted.phase [4, 1, 4, 4] with
    ⟨-, hSelection, -, hAnswers, hSame⟩
  have hFlipped :
      startedRun.flipped [4, 1, 4, 4] = [1, 4] := by
    unfold flipped
    rw [hStarted.size, hStarted.unselected]
    decide
  have hHand :
      (startedRun.toggleEach [4, 1, 4, 4]).hand.size = 8 := by
    rw [(reselected_toggleEach startedRun _).hand,
      hStarted.size]
  have hOutside :
      (startedRun.toggleEach [4, 1, 4, 4]).hand.size ≤ 99 := by
    rw [hHand]
    decide
  rw [hThrice, hFlipped] at hSelection
  refine ⟨hStarted.reachable, hStarted.phase, hThrice, hOnce,
    hSelection, ?_,
    (hAnswers.refused 99).mpr (Or.inl hOutside)⟩
  rw [← hSame [1, 4] hThrice hOnce hParity, hSelection]

end Run

end JokerRun
