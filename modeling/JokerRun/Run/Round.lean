import JokerRun.Run.Basic

/-
  The actions of a round: starting it, dealing, selecting,
  playing and discarding.

  Key definitions include:
    * `Run.startRound`
    * `Run.refill`
    * `Run.toggle`
    * `Run.play`
    * `Run.discard`
    * `Run.clearRound`
-/

------------------------------------------------------------
-- Dealing
------------------------------------------------------------

namespace JokerRun

namespace Run

/- Cards pushed into an area until it is full. -/
def pushAll : Area Card → List Card → Area Card
  | a, [] => a
  | a, c :: cs =>
      match a.push c with
      | .error _ => a
      | .ok (_, a) => pushAll a cs

/- The event of dealing a number of cards. -/
def dealt
    (n : Nat) : List Event :=
  if n = 0 then [] else [.handDealt n]

/- The hand filled up from the draw pile. -/
def refill
    (r : Run) : Turn Unit :=
  let (drawn, pile) := r.pile.draw r.hand.freeSlots
  ⟨.ok (),
    { r with pile := pile, hand := pushAll r.hand drawn },
    dealt drawn.length, []⟩

------------------------------------------------------------
-- Starting
------------------------------------------------------------

/- The run with a shuffled pile and an empty table. -/
def deal
    (r : Run) : Run :=
  let (pile, g) :=
    (DrawPile.standard r.chips).shuffle r.generator
  { r with
    generator := g
    pile := pile
    hand := r.hand.clear
    shop := r.shop.cancel
    selection := []
    progress :=
      { r.progress with
        score := 0
        handsLeft := r.rules.run.handsPerRound
        discardsLeft := r.rules.run.discardsPerRound
        phase := .play } }

/- The event of a started round. -/
def started
    (r : Run) : Event :=
  .roundStarted r.progress.round r.progress.target
    r.progress.handsLeft r.progress.discardsLeft

/- A round started, before the first one or from the shop. -/
def startRound
    (r : Run) : Turn Unit :=
  if r.phase = .setup ∨ r.phase = .shop then
    let dealtRun := r.deal
    let t := dealtRun.refill
    { t with
      events := dealtRun.started :: t.events
      notices :=
        DrawPile.standardNotices r.chips ++ t.notices }
  else
    .refuse r (.invalidPhase r.phase)

/- The next round started from the shop. -/
def nextRound
    (r : Run) : Turn Unit :=
  if r.phase = .shop then
    r.startRound
  else
    .refuse r (.invalidPhase r.phase)

------------------------------------------------------------
-- Selecting
------------------------------------------------------------

/-
  A card of the hand selected, or no longer selected; the
  answer is whether it is selected now.
-/
def toggle
    (r : Run)
    (index : Nat) : Turn Bool :=
  if r.phase ≠ .play then
    .refuse r (.invalidPhase r.phase)
  else if (r.hand.get? index).isNone then
    .refuse r (.invalidCardIndex index)
  else if index ∈ r.selection then
    .quiet { r with selection := r.selection.erase index }
      false
  else if r.rules.run.maxSelection ≤ r.selection.length then
    .refuse r (.selectionFull r.rules.run.maxSelection)
  else
    .quiet
      { r with
        selection :=
          Positions.sort (r.selection ++ [index]) }
      true

------------------------------------------------------------
-- Ending
------------------------------------------------------------

/- A round won: reward, next target and a stocked shop. -/
def clearRound
    (r : Run) : Turn Unit :=
  let p := r.progress
  let reward := r.rules.run.clearReward
  let money := Amount.add p.money reward
  let (shop, g) := r.shop.restock r.catalog r.generator
  ⟨.ok (),
    { r with
      generator := g
      shop := shop
      selection := []
      progress :=
        { p with
          money := money
          target := r.rules.run.nextTarget p.target
          round := p.round + 1
          phase := .shop } },
    [.roundCleared p.score reward money,
      .shopRestocked shop.offers.size money],
    Notice.info
        s!"round {p.round} cleared with {p.score} (target {p.target})" ::
      Shop.restockNotices r.catalog⟩

/- A run lost. -/
def loseRun
    (r : Run) : Turn Unit :=
  let p := r.progress
  ⟨.ok (),
    { r with progress := { p with phase := .gameOver } },
    [.gameOver p.score p.target],
    [Notice.info
      s!"run over in round {p.round}: {p.score} of {p.target}"]⟩

/- The round ended, if the last hand decided it. -/
def settle
    (r : Run) : Turn Unit :=
  if r.progress.target ≤ r.progress.score then
    r.clearRound
  else if r.progress.handsLeft = 0 then
    r.loseRun
  else
    .quiet r ()

------------------------------------------------------------
-- Playing
------------------------------------------------------------

/- The run after a hand is scored and before cards are dealt. -/
def scoreHand
    (r : Run)
    (hand : Area Card)
    (s : PlaySummary) : Run :=
  { r with
    hand := hand
    selection := []
    progress :=
      { r.progress with
        score := Amount.add r.progress.score s.score
        handsLeft := r.progress.handsLeft - 1 } }

/- What playing the selected cards gives. -/
def playSummary
    (r : Run) : PlaySummary :=
  Scoring.play r.rules.hands r.selectedCards
    r.unselectedCards r.jokers.items

/- The notice of a scored hand. -/
def scoredNotice
    (s : PlaySummary) : Notice :=
  Notice.debug
    s!"{s.hand.category.title} scored {s.score} ({s.chips} x {s.mult})"

/- The event of a scored hand. -/
def scored
    (s : PlaySummary) : Event :=
  .handScored s.hand.category s.chips s.mult s.score

/-
  The selected cards played: scored, removed and replaced
  from the pile; the round ends when it is decided.
-/
def play
    (r : Run) : Turn PlaySummary :=
  if r.phase ≠ .play then
    .refuse r (.invalidPhase r.phase)
  else if r.progress.handsLeft = 0 then
    .refuse r .noHandsLeft
  else if r.selection = [] then
    .refuse r .emptySelection
  else
    match r.hand.takeMany r.selection with
    | .error e => .refuse r.clearSelection (.area e)
    | .ok (_, hand) =>
        let s := r.playSummary
        let dealing := (r.scoreHand hand s).refill
        let ending := dealing.run.settle
        ⟨.ok s, ending.run,
          scored s :: dealing.events ++ ending.events,
          scoredNotice s :: dealing.notices ++ ending.notices⟩

------------------------------------------------------------
-- Discarding
------------------------------------------------------------

/- The run after a discard and before cards are dealt. -/
def payDiscard
    (r : Run)
    (hand : Area Card)
    (s : DiscardSummary) : Run :=
  { r with
    hand := hand
    selection := []
    progress :=
      { r.progress with
        money := Amount.add r.progress.money s.dollars
        discardsLeft := r.progress.discardsLeft - 1 } }

/- What discarding the selected cards gives. -/
def discardSummary
    (r : Run) : DiscardSummary :=
  Scoring.discard r.selectedCards r.jokers.items

/- The selected cards discarded and replaced from the pile. -/
def discard
    (r : Run) : Turn DiscardSummary :=
  if r.phase ≠ .play then
    .refuse r (.invalidPhase r.phase)
  else if r.progress.discardsLeft = 0 then
    .refuse r .noDiscardsLeft
  else if r.selection = [] then
    .refuse r .emptySelection
  else
    match r.hand.takeMany r.selection with
    | .error e => .refuse r.clearSelection (.area e)
    | .ok (_, hand) =>
        let s := r.discardSummary
        let dealing := (r.payDiscard hand s).refill
        ⟨.ok s, dealing.run,
          .discarded r.selectedCards.length s.dollars ::
            dealing.events,
          dealing.notices⟩

end Run

end JokerRun
