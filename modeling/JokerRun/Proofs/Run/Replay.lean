import JokerRun.Proofs.Run.Selection

/-
  The events of a run tell its progress.

  A listener that starts from the initial progress and
  applies the events in the order in which they are
  announced always holds the progress of the run.  Each
  event agrees with the progress that the listener holds
  when the event arrives.

  Key definitions include:
    * `Progress.replay`
    * `Event.AgreesWith`
    * `Progress.Tells`
    * `Run.announced`

  Key theorems include:
    * `Run.tells_step`
    * `Run.replay_announced`
-/

------------------------------------------------------------
-- Listening To Events
------------------------------------------------------------

namespace JokerRun

/- The progress after an event. -/
def Progress.replay
    (rules : RunRules)
    (p : Progress) : Event → Progress
  | .roundStarted _ _ hands discards =>
      { p with
        score := 0
        handsLeft := hands
        discardsLeft := discards
        phase := .play }
  | .handDealt _ => p
  | .handScored _ _ _ total =>
      { p with
        score := Amount.add p.score total
        handsLeft := p.handsLeft - 1 }
  | .discarded _ dollars =>
      { p with
        money := Amount.add p.money dollars
        discardsLeft := p.discardsLeft - 1 }
  | .roundCleared _ _ money =>
      { p with
        money := money
        target := rules.nextTarget p.target
        round := p.round + 1
        phase := .shop }
  | .gameOver _ _ => { p with phase := .gameOver }
  | .shopRestocked _ money => { p with money := money }
  | .jokerBought _ _ money => { p with money := money }
  | .jokerReplaced _ _ _ money => { p with money := money }
  | .jokerSold _ _ money => { p with money := money }

/-
  What an event says of round, target, score and money is
  so, given the progress before it.
-/
def Event.AgreesWith
    (rules : RunRules)
    (p : Progress) : Event → Prop
  | .roundStarted round target hands discards =>
      round = p.round ∧ target = p.target ∧
        hands = rules.handsPerRound ∧
        discards = rules.discardsPerRound
  | .handDealt _ => True
  | .handScored _ _ _ _ => 0 < p.handsLeft
  | .discarded _ _ => 0 < p.discardsLeft
  | .roundCleared score reward money =>
      score = p.score ∧ p.target ≤ score ∧
        reward = rules.clearReward ∧
        money = Amount.add p.money reward
  | .gameOver score target =>
      score = p.score ∧ target = p.target ∧
        score < target ∧ p.handsLeft = 0
  | .shopRestocked _ money =>
      money = p.money ∨ money = p.money - rules.rerollCost
  | .jokerBought _ cost money => money = p.money - cost
  | .jokerReplaced _ _ cost money => money = p.money - cost
  | .jokerSold _ value money =>
      money = Amount.add p.money value

namespace Progress

/- Each event agrees with the progress that it meets. -/
def AllAgree
    (rules : RunRules) : Progress → List Event → Prop
  | _, [] => True
  | p, e :: es =>
      e.AgreesWith rules p ∧
        AllAgree rules (p.replay rules e) es

/- Events lead from one progress to another, truthfully. -/
structure Tells
    (rules : RunRules)
    (p : Progress)
    (es : List Event)
    (q : Progress) : Prop where
  replayed : es.foldl (Progress.replay rules) p = q
  agree : AllAgree rules p es

variable {rules : RunRules}
variable {p q s : Progress}

theorem tells_nil :
    Tells rules p [] p :=
  ⟨rfl, trivial⟩

theorem tells_cons
    {e : Event}
    {es : List Event}
    (hAgrees : e.AgreesWith rules p)
    (hRest : Tells rules (p.replay rules e) es q) :
    Tells rules p (e :: es) q :=
  ⟨hRest.replayed, hAgrees, hRest.agree⟩

/- One truthful event after the other. -/
theorem Tells.append
    {es fs : List Event}
    (hFirst : Tells rules p es q)
    (hSecond : Tells rules q fs s) :
    Tells rules p (es ++ fs) s := by
  induction es generalizing p with
  | nil =>
      have hSame : p = q := hFirst.replayed
      rw [hSame]
      exact hSecond
  | cons e es ih =>
      rcases hFirst.agree with ⟨hAgrees, hRest⟩
      exact tells_cons hAgrees
        (ih ⟨hFirst.replayed, hRest⟩)

/- One event that agrees tells its own effect. -/
theorem tells_singleton
    {e : Event}
    (hAgrees : e.AgreesWith rules p)
    (hReplay : p.replay rules e = q) :
    Tells rules p [e] q :=
  ⟨hReplay, hAgrees, trivial⟩

end Progress

------------------------------------------------------------
-- What One Action Tells
------------------------------------------------------------

namespace Run

open Progress (Tells tells_nil tells_cons tells_singleton)

/- Dealing cards is no progress. -/
theorem tells_dealt
    (rules : RunRules)
    (p : Progress)
    (n : Nat) :
    Tells rules p (dealt n) p := by
  unfold dealt
  split
  · exact tells_nil
  · exact tells_singleton trivial rfl

theorem tells_started
    (r : Run) :
    Tells r.rules.run r.progress
      (r.deal.started :: r.deal.refill.events)
      r.deal.refill.run.progress := by
  refine tells_cons ?_ ?_
  · rw [started, deal_eq]
    exact ⟨rfl, rfl, rfl, rfl⟩
  · have hReplay :
        r.progress.replay r.rules.run r.deal.started =
          r.deal.progress := by
      rw [started, deal_eq]
      rfl
    rw [hReplay, refill_progress, refill_events]
    exact tells_dealt _ _ _

theorem tells_handEvents
    {r : Run}
    (hMay : r.MayPlay) :
    Tells r.rules.run r.progress r.handEvents
      r.scoredRun.progress :=
  tells_cons hMay.handsLeft (tells_dealt _ _ _)

theorem tells_clearRound
    {r : Run}
    (hReached : r.progress.target ≤ r.progress.score) :
    Tells r.rules.run r.progress r.clearRound.events
      r.clearRound.run.progress := by
  rw [clearRound_run]
  refine tells_cons ⟨rfl, hReached, rfl, rfl⟩ ?_
  -- The next target stays closed.
  simp only [Progress.replay]
  generalize r.rules.run.nextTarget r.progress.target = next
  exact tells_singleton (Or.inl rfl) rfl

theorem tells_loseRun
    {r : Run}
    (hShort : r.progress.score < r.progress.target)
    (hNoneLeft : r.progress.handsLeft = 0) :
    Tells r.rules.run r.progress r.loseRun.events
      r.loseRun.run.progress :=
  tells_singleton ⟨rfl, rfl, hShort, hNoneLeft⟩ rfl

/-
  However an action ends, its events tell how the progress
  moved.  A listener knows the price of new offers from the
  rules.
-/
theorem tells_step
    {r r' : Run}
    {a : Action}
    {answer : Except RunError Reply}
    {events : List Event}
    (hPrice : r.shop.rerollCost = r.rules.run.rerollCost)
    (hStep : Step r a answer r' events) :
    Tells r.rules.run r.progress events r'.progress := by
  cases hStep with
  | refused | unselected | selected | selectionCleared
  | waiting | purchaseCancelled | added | notAdded =>
      exact tells_nil
  | started | nextStarted => exact tells_started r
  | refilled => exact tells_dealt _ _ _
  | played hMay => exact tells_handEvents hMay
  | won hMay hReached =>
      exact (tells_handEvents hMay).append
        (tells_clearRound (r := r.scoredRun.refill.run)
          hReached)
  | lost hMay hShort hNoneLeft =>
      exact (tells_handEvents hMay).append
        (tells_loseRun (r := r.scoredRun.refill.run)
          hShort hNoneLeft)
  | discarded hMay =>
      exact tells_cons hMay.discardsLeft (tells_dealt _ _ _)
  | bought | replaced | sold =>
      exact tells_singleton rfl rfl
  | rerolled =>
      refine tells_singleton (Or.inr ?_) rfl
      rw [hPrice]

------------------------------------------------------------
-- What A Whole Run Tells
------------------------------------------------------------

/- The events that actions in a row announce. -/
def announced
    (r : Run) : List Action → List Event
  | [] => []
  | a :: as =>
      (r.perform a).events ++ (r.perform a).run.announced as

theorem tells_announced
    {r : Run}
    (hReachable : Reachable r)
    (hPrice : r.shop.rerollCost = r.rules.run.rerollCost)
    (as : List Action) :
    Tells r.rules.run r.progress (r.announced as)
      (r.performAll as).progress := by
  induction as generalizing r with
  | nil => exact tells_nil
  | cons a as ih =>
      have hStep := step_of_reachable hReachable a
      have hSame := hStep.sameTable
      have hFirst := tells_step hPrice hStep
      have hRest := ih (Reachable.perform a hReachable)
        (by rw [hSame.rerollCost, hSame.rules, hPrice])
      rw [hSame.rules] at hRest
      exact hFirst.append hRest

/-
  Replaying the events of any actions from the beginning, in
  the order in which they are announced, gives the progress
  of the run, and every event agrees with the progress that
  is replayed so far.
-/
theorem replay_announced
    (rules : Rules)
    (chips : RankChips)
    (catalog : Catalog)
    (seed : UInt64)
    (as : List Action) :
    ((Run.begin rules chips catalog seed).announced
          as).foldl (Progress.replay rules.run)
        (Progress.initial rules.run) =
      ((Run.begin rules chips catalog seed).performAll
        as).progress ∧
    Progress.AllAgree rules.run
      (Progress.initial rules.run)
      ((Run.begin rules chips catalog seed).announced as) := by
  have hTells := tells_announced
    (Reachable.begin rules chips catalog seed) rfl as
  exact ⟨hTells.replayed, hTells.agree⟩

end Run

end JokerRun
