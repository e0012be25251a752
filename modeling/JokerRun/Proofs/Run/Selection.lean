import JokerRun.Proofs.Run.Step

/-
  The selection of a reachable run is in order.

  A selection is a list of positions beside a hand that
  shrinks, is cleared and is filled up again.  Every way in
  which an action ends keeps the positions ascending and
  inside the hand, so that on a reachable run each action
  ends in one of the ways that `Run.Step` lists.

  Key theorems include:
    * `Run.inOrder_step`
    * `Run.inOrder_of_reachable`
    * `Run.step_of_reachable`
    * `Run.Reachable.invariant`
-/

------------------------------------------------------------
-- Keeping The Order
------------------------------------------------------------

namespace JokerRun

namespace Run

/- With nothing selected the selection is in order. -/
theorem inOrder_of_empty
    {r : Run}
    (hEmpty : r.selection = []) :
    r.InOrder where
  ascending := by
    rw [hEmpty]
    exact List.Pairwise.nil
  inside := by
    intro i hi
    rw [hEmpty] at hi
    exact absurd hi List.not_mem_nil

/- Filling up the hand only adds cards behind the others. -/
theorem size_le_size_refill
    (r : Run) :
    r.hand.size ≤ r.refill.run.hand.size := by
  rw [refill_run]
  unfold Area.size
  rw [List.length_append]
  omega

theorem inOrder_refill
    {r : Run}
    (hOrder : r.InOrder) :
    r.refill.run.InOrder where
  ascending := hOrder.ascending
  inside := fun i hi =>
    Nat.lt_of_lt_of_le (hOrder.inside i hi)
      (size_le_size_refill r)

theorem inOrder_unselect
    {r : Run}
    (hOrder : r.InOrder)
    (i : Nat) :
    InOrder { r with selection := r.selection.erase i } where
  ascending :=
    hOrder.ascending.sublist List.erase_sublist
  inside := fun j hj =>
    hOrder.inside j (List.mem_of_mem_erase hj)

theorem inOrder_select
    {r : Run}
    (hOrder : r.InOrder)
    {i : Nat}
    (hInside : i < r.hand.size)
    (hNew : i ∉ r.selection) :
    InOrder
      { r with
        selection :=
          Positions.sort (r.selection ++ [i]) } where
  ascending :=
    Positions.ascending_sort_append hOrder.ascending hNew
  inside := by
    intro j hj
    rw [Positions.mem_sort_iff, List.mem_append,
      List.mem_singleton] at hj
    rcases hj with hOld | rfl
    · exact hOrder.inside j hOld
    · exact hInside

/- However an action ends, the selection stays in order. -/
theorem inOrder_step
    {r r' : Run}
    {a : Action}
    {answer : Except RunError Reply}
    {events : List Event}
    (hOrder : r.InOrder)
    (hStep : Step r a answer r' events) :
    r'.InOrder := by
  have hSame : ∀ s : Run, s.selection = r.selection →
      s.hand = r.hand → s.InOrder := by
    intro s hSelection hHand
    refine ⟨hSelection ▸ hOrder.ascending, ?_⟩
    rw [hSelection, hHand]
    exact hOrder.inside
  cases hStep with
  | refused => exact hOrder
  | started | nextStarted =>
      apply inOrder_of_empty
      rw [refill_selection, deal_eq]
  | refilled => exact inOrder_refill hOrder
  | unselected => exact inOrder_unselect hOrder _
  | selected hPhase hInside hNew hRoom =>
      exact inOrder_select hOrder hInside hNew
  | selectionCleared => exact inOrder_of_empty rfl
  | played | lost | discarded => exact inOrder_of_empty rfl
  | won =>
      apply inOrder_of_empty
      rw [clearRound_run]
  | waiting | bought | replaced | purchaseCancelled
  | rerolled | sold | added | notAdded =>
      exact hSame _ rfl rfl

------------------------------------------------------------
-- Reachable Runs
------------------------------------------------------------

theorem inOrder_of_reachable
    {r : Run}
    (hReachable : Reachable r) :
    r.InOrder := by
  induction hReachable with
  | begin => exact inOrder_of_empty rfl
  | perform a _ ih =>
      exact inOrder_step ih (step_perform ih a)

/-
  On a reachable run every action ends in one of the listed
  ways.
-/
theorem step_of_reachable
    {r : Run}
    (hReachable : Reachable r)
    (a : Action) :
    Step r a (r.perform a).answer (r.perform a).run
      (r.perform a).events :=
  step_perform (inOrder_of_reachable hReachable) a

/-
  What holds of every beginning and is kept however an
  action ends holds of every reachable run.
-/
theorem Reachable.invariant
    {P : Run → Prop}
    (hBegin :
      ∀ rules chips catalog seed,
        P (Run.begin rules chips catalog seed))
    (hStep :
      ∀ {r r' : Run} {a : Action}
        {answer : Except RunError Reply}
        {events : List Event},
        r.InOrder → P r → Step r a answer r' events → P r')
    {r : Run}
    (hReachable : Reachable r) :
    P r := by
  induction hReachable with
  | begin rules chips catalog seed =>
      exact hBegin rules chips catalog seed
  | perform a hBefore ih =>
      exact hStep (inOrder_of_reachable hBefore) ih
        (step_of_reachable hBefore a)

/- Actions in a row lead from reachable to reachable runs. -/
theorem reachable_performAll
    {r : Run}
    (hReachable : Reachable r)
    (as : List Action) :
    Reachable (r.performAll as) := by
  induction as generalizing r with
  | nil => exact hReachable
  | cons a as ih =>
      exact ih (Reachable.perform a hReachable)

/- Actions in a row change nothing a run is played with. -/
theorem sameTable_performAll
    {r : Run}
    (hReachable : Reachable r)
    (as : List Action) :
    SameTable r (r.performAll as) := by
  induction as generalizing r with
  | nil => exact ⟨rfl, rfl, rfl, rfl⟩
  | cons a as ih =>
      have hStep := step_of_reachable hReachable a
      exact hStep.sameTable.trans
        (ih (Reachable.perform a hReachable))

end Run

end JokerRun
