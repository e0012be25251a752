import JokerRun.Proofs.Run.Opening

/-
  What each phase of a run says of its progress.

  The target of a round follows from the rules and from the
  number of the round alone.  A round is played with hands
  left and the target ahead, the shop is open when the last
  target was reached, and a run is over when no hand is left
  and the target was missed.  A run that is over stays so.

  Key definitions include:
    * `RunRules.targetAfter`
    * `Progress.Staged`

  Key theorems include:
    * `Run.staged_step`
    * `Run.staged_of_reachable`
    * `Run.progress_performAll_of_gameOver`
    * `Run.phases_staged`
-/

------------------------------------------------------------
-- Stages
------------------------------------------------------------

namespace JokerRun

/- The target after a number of rounds is won. -/
def RunRules.targetAfter
    (rules : RunRules) : Nat → Int
  | 0 => rules.startingTarget
  | n + 1 => rules.nextTarget (rules.targetAfter n)

/- Progress as its phase promises. -/
structure Progress.Staged
    (rules : RunRules)
    (p : Progress) : Prop where
  round : 1 ≤ p.round
  target : p.target = rules.targetAfter (p.round - 1)
  hands : p.handsLeft ≤ rules.handsPerRound
  discards : p.discardsLeft ≤ rules.discardsPerRound
  setup : p.phase = .setup → p.round = 1 ∧ p.score = 0
  play :
    p.phase = .play →
      1 ≤ p.handsLeft ∧
        (p.score < p.target ∨
          p.handsLeft = rules.handsPerRound ∧ p.score = 0)
  shop :
    p.phase = .shop →
      2 ≤ p.round ∧
        rules.targetAfter (p.round - 2) ≤ p.score
  gameOver :
    p.phase = .gameOver →
      p.handsLeft = 0 ∧ p.score < p.target

namespace Progress

variable {rules : RunRules}
variable {p : Progress}

theorem staged_initial
    (rules : RunRules) :
    Staged rules (Progress.initial rules) where
  round := Nat.le_refl 1
  target := rfl
  hands := Nat.le_refl _
  discards := Nat.le_refl _
  setup := fun _ => ⟨rfl, rfl⟩
  play := fun hPhase => by cases hPhase
  shop := fun hPhase => by cases hPhase
  gameOver := fun hPhase => by cases hPhase

/- No promise is about money. -/
theorem Staged.withMoney
    (hStaged : Staged rules p)
    (money : Int) :
    Staged rules { p with money := money } :=
  ⟨hStaged.round, hStaged.target, hStaged.hands,
    hStaged.discards, hStaged.setup, hStaged.play,
    hStaged.shop, hStaged.gameOver⟩

/- A round starts with all its hands and no score. -/
theorem Staged.started
    (hStaged : Staged rules p)
    (hHands : 1 ≤ rules.handsPerRound) :
    Staged rules
      { p with
        score := 0
        handsLeft := rules.handsPerRound
        discardsLeft := rules.discardsPerRound
        phase := .play } where
  round := hStaged.round
  target := hStaged.target
  hands := Nat.le_refl _
  discards := Nat.le_refl _
  setup := fun hPhase => by cases hPhase
  play := fun _ => ⟨hHands, Or.inr ⟨rfl, rfl⟩⟩
  shop := fun hPhase => by cases hPhase
  gameOver := fun hPhase => by cases hPhase

/- A hand that falls short leaves the round to be played. -/
theorem Staged.played
    (hStaged : Staged rules p)
    (hPhase : p.phase = .play)
    {score : Int}
    (hShort : score < p.target)
    (hLeft : 0 < p.handsLeft - 1) :
    Staged rules
      { p with
        score := score
        handsLeft := p.handsLeft - 1 } := by
  have hFewer : p.handsLeft - 1 ≤ rules.handsPerRound :=
    Nat.le_trans (Nat.sub_le _ _) hStaged.hands
  refine ⟨hStaged.round, hStaged.target, hFewer,
    hStaged.discards, ?_, ?_, ?_, ?_⟩
  · intro hSetup
    rw [hPhase] at hSetup
    cases hSetup
  · intro _
    exact ⟨hLeft, Or.inl hShort⟩
  · intro hShop
    rw [hPhase] at hShop
    cases hShop
  · intro hOver
    rw [hPhase] at hOver
    cases hOver

/- A hand that reaches the target opens the shop. -/
theorem Staged.won
    (hStaged : Staged rules p)
    {score money : Int}
    (hReached : p.target ≤ score) :
    Staged rules
      { p with
        score := score
        handsLeft := p.handsLeft - 1
        money := money
        target := rules.nextTarget p.target
        round := p.round + 1
        phase := .shop } := by
  have hFewer : p.handsLeft - 1 ≤ rules.handsPerRound :=
    Nat.le_trans (Nat.sub_le _ _) hStaged.hands
  have hRound := hStaged.round
  have hTarget := hStaged.target
  have hNext :
      rules.targetAfter (p.round + 1 - 1) =
        rules.nextTarget p.target := by
    have hLast : p.round + 1 - 1 = p.round - 1 + 1 := by
      omega
    rw [hLast, hTarget]
    rfl
  have hBefore : p.round + 1 - 2 = p.round - 1 := by omega
  -- The next target stays closed.
  generalize rules.nextTarget p.target = next at *
  refine ⟨Nat.le_succ_of_le hRound, hNext.symm, hFewer,
    hStaged.discards, ?_, ?_, ?_, ?_⟩
  · intro hSetup
    cases hSetup
  · intro hPlay
    cases hPlay
  · intro _
    refine ⟨Nat.succ_le_succ hRound, ?_⟩
    change rules.targetAfter (p.round + 1 - 2) ≤ score
    rw [hBefore, ← hTarget]
    exact hReached
  · intro hOver
    cases hOver

/- A last hand that falls short ends the run. -/
theorem Staged.lost
    (hStaged : Staged rules p)
    {score : Int}
    (hShort : score < p.target)
    (hNoneLeft : p.handsLeft - 1 = 0) :
    Staged rules
      { p with
        score := score
        handsLeft := p.handsLeft - 1
        phase := .gameOver } where
  round := hStaged.round
  target := hStaged.target
  hands := Nat.le_trans (Nat.sub_le _ _) hStaged.hands
  discards := hStaged.discards
  setup := fun hPhase => by cases hPhase
  play := fun hPhase => by cases hPhase
  shop := fun hPhase => by cases hPhase
  gameOver := fun _ => ⟨hNoneLeft, hShort⟩

/- A discard costs one discard and may bring money. -/
theorem Staged.discarded
    (hStaged : Staged rules p)
    (money : Int) :
    Staged rules
      { p with
        money := money
        discardsLeft := p.discardsLeft - 1 } where
  round := hStaged.round
  target := hStaged.target
  hands := hStaged.hands
  discards :=
    Nat.le_trans (Nat.sub_le _ _) hStaged.discards
  setup := hStaged.setup
  play := hStaged.play
  shop := hStaged.shop
  gameOver := hStaged.gameOver

end Progress

------------------------------------------------------------
-- However An Action Ends
------------------------------------------------------------

namespace Run

/- However an action ends, the phase keeps its promises. -/
theorem staged_step
    {r r' : Run}
    {a : Action}
    {answer : Except RunError Reply}
    {events : List Event}
    (hHands : 1 ≤ r.rules.run.handsPerRound)
    (hStaged : r.progress.Staged r.rules.run)
    (hStep : Step r a answer r' events) :
    r'.progress.Staged r.rules.run := by
  cases hStep with
  | refused | refilled | unselected | selected
  | selectionCleared | waiting | purchaseCancelled | added
  | notAdded => exact hStaged
  | started | nextStarted =>
      rw [refill_progress, deal_eq]
      exact hStaged.started hHands
  | played hMay hShort hLeft =>
      exact hStaged.played hMay.phase hShort hLeft
  | won hMay hReached =>
      rw [clearRound_run]
      exact hStaged.won hReached
  | lost hMay hShort hNoneLeft =>
      exact hStaged.lost hShort hNoneLeft
  | discarded => exact hStaged.discarded _
  | bought | replaced | rerolled | sold =>
      exact hStaged.withMoney _

theorem staged_of_reachable
    {r : Run}
    (hReachable : Reachable r)
    (hHands : 1 ≤ r.rules.run.handsPerRound) :
    r.progress.Staged r.rules.run := by
  refine hReachable.invariant
    (P := fun r =>
      1 ≤ r.rules.run.handsPerRound →
        r.progress.Staged r.rules.run) ?_ ?_ hHands
  · intro rules chips catalog seed _
    exact Progress.staged_initial rules.run
  · intro r r' a answer events _ ih hStep hHands'
    have hRules := hStep.sameTable.rules
    rw [hRules] at hHands' ⊢
    exact staged_step hHands' (ih hHands') hStep

------------------------------------------------------------
-- The End Of A Run
------------------------------------------------------------

/- However an action ends, a run that is over stays so. -/
theorem Step.progress_of_gameOver
    {r r' : Run}
    {a : Action}
    {answer : Except RunError Reply}
    {events : List Event}
    (hStep : Step r a answer r' events)
    (hOver : r.phase = .gameOver) :
    r'.progress = r.progress := by
  have hNot {p : RunPhase} (hPhase : r.phase = p)
      (hOther : p ≠ .gameOver) :
      r'.progress = r.progress :=
    absurd (hPhase.symm.trans hOver) hOther
  cases hStep with
  | refused | refilled | unselected | selected
  | selectionCleared | waiting | purchaseCancelled | added
  | notAdded => rfl
  | started hPhase =>
      rcases hPhase with hSetup | hShop
      · exact hNot hSetup RunPhase.noConfusion
      · exact hNot hShop RunPhase.noConfusion
  | nextStarted hShop | bought hShop | replaced hShop
  | rerolled hShop =>
      exact hNot hShop RunPhase.noConfusion
  | played hMay | won hMay | lost hMay | discarded hMay =>
      exact hNot hMay.phase RunPhase.noConfusion
  | sold hNotOver => exact absurd hOver hNotOver

theorem progress_performAll_of_gameOver
    {r : Run}
    (hReachable : Reachable r)
    (hOver : r.phase = .gameOver)
    (as : List Action) :
    (r.performAll as).progress = r.progress := by
  induction as generalizing r with
  | nil => rfl
  | cons a as ih =>
      have hStep := step_of_reachable hReachable a
      have hSame := hStep.progress_of_gameOver hOver
      have hStill : (r.perform a).run.phase = .gameOver := by
        rw [phase, hSame]
        exact hOver
      rw [performAll,
        ih (Reachable.perform a hReachable) hStill, hSame]

------------------------------------------------------------
-- Whole Runs
------------------------------------------------------------

/-
  If rounds have hands, every run keeps what its phase
  promises.  Once it is over, no action changes its progress
  any more.
-/
theorem phases_staged
    (rules : Rules)
    (chips : RankChips)
    (catalog : Catalog)
    (seed : UInt64)
    (hHands : 1 ≤ rules.run.handsPerRound)
    (as : List Action) :
    ((Run.begin rules chips catalog seed).performAll
        as).progress.Staged rules.run ∧
      (((Run.begin rules chips catalog seed).performAll
          as).phase = .gameOver →
        ∀ bs,
          (((Run.begin rules chips catalog seed).performAll
              as).performAll bs).progress =
            ((Run.begin rules chips catalog seed).performAll
              as).progress) := by
  have hBegin := Reachable.begin rules chips catalog seed
  have hReachable := reachable_performAll hBegin as
  have hRules :
      ((Run.begin rules chips catalog seed).performAll
        as).rules = rules :=
    (sameTable_performAll hBegin as).rules
  constructor
  · have hStaged := staged_of_reachable hReachable
      (by rw [hRules]; exact hHands)
    rw [hRules] at hStaged
    exact hStaged
  · exact progress_performAll_of_gameOver hReachable

------------------------------------------------------------
-- A Run That Is Lost
------------------------------------------------------------

/- No joker, no pass changes a tally. -/
theorem passCards_of_no_jokers
    (title : String)
    (moment : Phase)
    (cards : List Card)
    (t : Tally) :
    Scoring.passCards title moment [] cards t = t := by
  induction cards with
  | nil => rfl
  | cons c cards ih => exact ih

/- Where no category has mult, cards alone score nothing. -/
theorem score_eq_zero_of_no_mult
    {rules : List HandRule}
    (hNoMult : ∀ c : Category, (c.baseUnder rules).mult = 0)
    (selected held : List Card) :
    (Scoring.play rules selected held []).score = 0 := by
  have hMult :
      (Hand.classify rules selected).mult = 0 := by
    cases selected with
    | nil => rfl
    | cons c cards => exact hNoMult _
  simp only [Scoring.play, Scoring.tally,
    passCards_of_no_jokers, Tally.pass, List.foldl_nil,
    Scoring.opening, hMult, Amount.mul, Int.mul_zero]
  rfl

/- One hand for each round, and none that scores. -/
def barrenRules : Rules where
  run := { RunRules.standard with handsPerRound := 1 }
  hands := Category.all.map fun c => ⟨c, 0, 0⟩

/- A run before its only hand, and when it has been played. -/
def barrenRun : Run :=
  Run.begin barrenRules RankChips.standard Catalog.empty 7

def lostRun : Run :=
  barrenRun.firstPlayed 0

theorem phase_lostRun :
    lostRun.phase = .gameOver := by
  have hReachable : Reachable barrenRun :=
    Reachable.begin _ _ _ _
  have hOpen : barrenRun.MayOpen 0 :=
    ⟨Or.inl rfl, by decide, by decide, by decide⟩
  have hNoMult :
      ∀ c : Category,
        (c.baseUnder barrenRules.hands).mult = 0 := by
    intro c
    cases c <;> rfl
  rcases opened_keeps hOpen with
    ⟨hJokers, -, hTable⟩
  have hNothing :
      (barrenRun.performAll
        [.start, .toggle 0]).playSummary.score = 0 := by
    unfold playSummary
    rw [hJokers, hTable.rules]
    exact score_eq_zero_of_no_mult hNoMult _ _
  have hShort :
      (barrenRun.firstScored 0).progress.score <
        (barrenRun.firstScored 0).progress.target := by
    rw [firstScored_progress hOpen, hNothing]
    decide
  exact firstPlayed_of_short hReachable hOpen rfl hShort

theorem phases_staged_lostRun :
    1 ≤ barrenRules.run.handsPerRound ∧
      lostRun.phase = .gameOver ∧
      lostRun.progress.Staged barrenRules.run ∧
      ∀ bs, (lostRun.performAll bs).progress =
        lostRun.progress := by
  have hHands : 1 ≤ barrenRules.run.handsPerRound := by
    decide
  have hOver := phase_lostRun
  have hStaged :=
    phases_staged barrenRules RankChips.standard
      Catalog.empty 7 hHands [.start, .toggle 0, .play]
  exact ⟨hHands, hOver, hStaged.1, hStaged.2 hOver⟩

end Run

end JokerRun
