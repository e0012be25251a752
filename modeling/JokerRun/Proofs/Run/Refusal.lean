import JokerRun.Proofs.Run.Selection

/-
  A declined action changes nothing.

  Playing and discarding give up the selection before they
  take its cards, and purchases move an offer before they
  fill a slot.  On a reachable run none of these later steps
  can fail: the selection is in order, and the slots were
  looked at before.

  Key definitions include:
    * `Run.Declined`

  Key theorems include:
    * `Run.unchanged_of_declined`
-/

------------------------------------------------------------
-- Declined Actions
------------------------------------------------------------

namespace JokerRun

namespace Run

/- An answer that declines: an error, or no joker added. -/
def Declined
    (answer : Except RunError Reply) : Prop :=
  (∃ e, answer = .error e) ∨ answer = .ok (.added none)

theorem not_declined_ok
    {reply : Reply}
    (hReply : reply ≠ .added none) :
    ¬ Declined (.ok reply) := by
  rintro (⟨e, hError⟩ | hNone)
  · cases hError
  · exact hReply (Except.ok.inj hNone)

/- The ways of ending that decline leave the run as it was. -/
theorem Step.unchanged
    {r r' : Run}
    {a : Action}
    {answer : Except RunError Reply}
    {events : List Event}
    (hStep : Step r a answer r' events)
    (hDeclined : Declined answer) :
    r' = r ∧ events = [] := by
  cases hStep with
  | refused | notAdded => exact ⟨rfl, rfl⟩
  | started | nextStarted | refilled | unselected | selected
  | selectionCleared | played | won | lost | discarded
  | waiting | bought | replaced | purchaseCancelled
  | rerolled | sold | added =>
      exact absurd hDeclined (not_declined_ok (by simp))

/-
  On a reachable run, an action that is declined leaves the
  whole run as it was and announces nothing.
-/
theorem unchanged_of_declined
    {r : Run}
    (hReachable : Reachable r)
    {a : Action}
    (hDeclined : Declined (r.perform a).answer) :
    (r.perform a).run = r ∧ (r.perform a).events = [] :=
  (step_of_reachable hReachable a).unchanged hDeclined

theorem progress_performAll_start_toggle
    {r : Run}
    (hSetup : r.phase = .setup)
    (i : Nat) :
    (r.performAll [.start, .toggle i]).progress =
      r.deal.progress := by
  have hToggle :
      ∀ s : Run, (s.toggle i).run.progress = s.progress := by
    intro s
    unfold toggle
    split_ifs <;> rfl
  simp only [performAll, perform, Turn.map, hToggle,
    startRound, hSetup, true_or, if_true, refill_progress]

theorem declined_of_noDiscardsLeft
    {r : Run}
    (hPhase : r.phase = .play)
    (hNone : r.progress.discardsLeft = 0) :
    Declined (r.perform .discard).answer := by
  refine Or.inl ⟨.noDiscardsLeft, ?_⟩
  simp only [perform, discard, hPhase, ne_eq, not_true,
    if_false, hNone, if_true]
  rfl

/- A run, before its first round, that allows no discard. -/
def discardlessRun : Run :=
  Run.begin
    { Rules.standard with
      run :=
        { RunRules.standard with discardsPerRound := 0 } }
    RankChips.standard Catalog.empty 7

/- With a card selected, discarding it is declined. -/
theorem unchanged_of_declined_discard :
    Reachable
        (discardlessRun.performAll [.start, .toggle 0]) ∧
      Declined
        ((discardlessRun.performAll
          [.start, .toggle 0]).perform .discard).answer ∧
      ((discardlessRun.performAll
          [.start, .toggle 0]).perform .discard).run =
        discardlessRun.performAll [.start, .toggle 0] ∧
      ((discardlessRun.performAll
          [.start, .toggle 0]).perform .discard).events =
        [] := by
  have hReachable :
      Reachable
        (discardlessRun.performAll [.start, .toggle 0]) :=
    reachable_performAll (Reachable.begin _ _ _ _)
      [.start, .toggle 0]
  have hProgress :
      (discardlessRun.performAll
          [.start, .toggle 0]).progress =
        discardlessRun.deal.progress :=
    progress_performAll_start_toggle rfl 0
  have hPhase :
      (discardlessRun.performAll
        [.start, .toggle 0]).phase = .play := by
    rw [phase, hProgress, deal_eq]
  have hNone :
      (discardlessRun.performAll
        [.start, .toggle 0]).progress.discardsLeft = 0 := by
    rw [hProgress, deal_eq]
    rfl
  have hDeclined := declined_of_noDiscardsLeft hPhase hNone
  exact ⟨hReachable, hDeclined,
    unchanged_of_declined hReachable hDeclined⟩

end Run

end JokerRun
