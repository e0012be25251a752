import JokerRun.CommandLine.Program
import JokerRun.Proofs.Content.Assets
import JokerRun.Proofs.Json.RoundTrip
import JokerRun.Proofs.Run.Limits
import JokerRun.Proofs.Run.Opening
import JokerRun.Proofs.Scoring.Monotone
import JokerRun.Proofs.Scoring.Triggers
import Mathlib.Data.List.Nodup

/-
  Every held card reaches the jokers for held cards.

  The pass over the held cards leaves out what is among the
  scoring cards, and cards are compared by all they are,
  numbers included.  Both callers keep the numbers apart: a
  run deals one numbered deck, and the command line goes on
  counting where the played cards end.  So nothing is left
  out, and each joker for a held rank acts once for each
  held card of its rank.  The summary that a caller has from
  a hand holds the numbers and the lines of these triggers.

  Key definitions include:
    * `Scoring.playTriggers` and `Scoring.firedTally`
    * `PlaySummary.Sums`
    * `Scoring.HeldInFull`
    * `Program.Accepts`

  Key theorems include:
    * `Scoring.play_sums`
    * `Scoring.heldInFull_of_disjoint`
    * `Run.played_iff_of_reachable`
    * `Program.Accepts.numbered`
    * `held_pass_skips_nothing`
-/

------------------------------------------------------------
-- Held Cards Apart From Played Ones
------------------------------------------------------------

namespace JokerRun

/- A summary with the numbers and the lines of a tally. -/
structure PlaySummary.Sums
    (s : PlaySummary)
    (t : Tally) : Prop where
  chips : s.chips = t.chips
  mult : s.mult = t.mult
  score : s.score = Amount.mul t.chips t.mult
  log :
    s.log =
      t.log ++ [s!"Final: {t.chips} x {t.mult} = {s.score}"]

namespace Scoring

/- All triggers of playing cards while others are held. -/
def playTriggers
    (rules : List HandRule)
    (selected held : List Card)
    (board : List Ability) : List Trigger :=
  let scoring :=
    (Hand.classify rules selected).scoringCards selected
  triggers scoring (idleHeld scoring held) board

/- The tally that these triggers leave. -/
def firedTally
    (rules : List HandRule)
    (selected held : List Card)
    (board : List Ability) : Tally :=
  let hand := Hand.classify rules selected
  (playTriggers rules selected held board).foldl Tally.fire
    (opening hand (hand.scoringCards selected))

/-
  Held cards that the jokers meet in full: none is a selected
  card, none is skipped, the tally and the summary are those
  of the triggers, and among them each joker for a held rank
  has one for each held card of its rank and none for a
  selected card.
-/
structure HeldInFull
    (rules : List HandRule)
    (selected held : List Card)
    (board : List Ability)
    (s : PlaySummary) : Prop where
  apart : List.Disjoint selected held
  complete :
    idleHeld
        ((Hand.classify rules selected).scoringCards selected)
        held =
      held
  fired :
    tally (Hand.classify rules selected)
        ((Hand.classify rules selected).scoringCards selected)
        held board =
      (playTriggers rules selected held board).foldl
        Tally.fire
        (opening (Hand.classify rules selected)
          ((Hand.classify rules selected).scoringCards
            selected))
  summed : s.Sums (firedTally rules selected held board)
  once :
    ∀ (slot : Nat) (a : Ability) (n : Int) (rank : Rank),
      board[slot]? = some a →
      a.effect = some (.heldRankMult n rank) →
        (playTriggers rules selected held board).filter
            (fun x => x.slot = slot) =
          (held.filter fun c => c.rank = rank).map
            (heldRankTrigger slot a n rank)
  never :
    ∀ (slot : Nat) (a : Ability) (n : Int) (rank : Rank),
      board[slot]? = some a →
      a.effect = some (.heldRankMult n rank) →
        ∀ x ∈ playTriggers rules selected held board,
          x.slot = slot →
            ∀ c ∈ selected, x.card ≠ some c

/- What is reported of a hand is what its triggers leave. -/
theorem play_sums
    (rules : List HandRule)
    (selected held : List Card)
    (board : List Ability) :
    (play rules selected held board).Sums
      (firedTally rules selected held board) := by
  unfold play firedTally playTriggers
  dsimp only
  rw [tally_eq_foldl_fire]
  exact ⟨rfl, rfl, rfl, rfl⟩

section

variable {selected held : List Card}

/- What no selected card equals, no scoring card equals. -/
theorem idleHeld_of_disjoint
    (hApart : List.Disjoint selected held)
    (hand : HandResult) :
    idleHeld (hand.scoringCards selected) held = held := by
  apply List.filter_eq_self.mpr
  intro c hHeld
  have hNew : c ∉ hand.scoringCards selected := by
    intro hScoring
    exact hApart (mem_of_mem_scoringCards hScoring) hHeld
  simpa using hNew

/- A scoring card that were held, too, would be skipped. -/
example :
    idleHeld [⟨1, .hearts, .king, 10⟩]
        [⟨1, .hearts, .king, 10⟩, ⟨2, .hearts, .king, 10⟩] =
      [⟨2, .hearts, .king, 10⟩] := by
  decide

/- Held cards that are no selected cards are met in full. -/
theorem heldInFull_of_disjoint
    (hApart : List.Disjoint selected held)
    (rules : List HandRule)
    (board : List Ability) :
    HeldInFull rules selected held board
      (play rules selected held board) := by
  have hIdle :=
    idleHeld_of_disjoint hApart
      (Hand.classify rules selected)
  have hOnce
      (slot : Nat)
      (a : Ability)
      (n : Int)
      (rank : Rank)
      (hJoker : board[slot]? = some a)
      (hEffect : a.effect = some (.heldRankMult n rank)) :
      (playTriggers rules selected held board).filter
          (fun x => x.slot = slot) =
        (held.filter fun c => c.rank = rank).map
          (heldRankTrigger slot a n rank) := by
    unfold playTriggers
    dsimp only
    rw [hIdle]
    exact filter_slot_triggers_heldRank hJoker hEffect _ _
  refine ⟨hApart, hIdle, tally_eq_foldl_fire _ _ _ _,
    play_sums _ _ _ _, hOnce, ?_⟩
  intro slot a n rank hJoker hEffect x hx hSlot c hSelected
  have hOwn :
      x ∈ (playTriggers rules selected held board).filter
        (fun x => x.slot = slot) :=
    List.mem_filter.mpr ⟨hx, decide_eq_true hSlot⟩
  rw [hOnce slot a n rank hJoker hEffect] at hOwn
  rcases List.mem_map.mp hOwn with ⟨d, hd, rfl⟩
  have hHeld := (List.mem_filter.mp hd).1
  intro hSame
  cases hSame
  exact hApart hSelected hHeld

end

end Scoring

------------------------------------------------------------
-- The Hand Of A Run
------------------------------------------------------------

namespace Run

variable {r : Run}

/- A reachable run plays and holds cards of one hand. -/
theorem heldInFull_of_reachable
    (hReachable : r.Reachable) :
    Scoring.HeldInFull r.rules.hands r.selectedCards
      r.unselectedCards r.jokers.items r.playSummary :=
  Scoring.heldInFull_of_disjoint
    (splitsHand_of_reachable hReachable).disjoint _ _

/- Playing answers with that summary, when it may be done. -/
theorem played_iff_of_reachable
    (hReachable : r.Reachable)
    (s : PlaySummary) :
    (r.perform .play).answer = .ok (.played s) ↔
      r.MayPlay ∧ s = r.playSummary := by
  constructor
  · intro hPlayed
    have hStep := step_of_reachable hReachable .play
    generalize r.perform .play = t at hPlayed hStep
    rcases t with ⟨answer, r', events, notices⟩
    cases hPlayed
    cases hStep with
    | played hMay | won hMay | lost hMay => exact ⟨hMay, rfl⟩
  · rintro ⟨hMay, rfl⟩
    exact (perform_play (inOrder_of_reachable hReachable)
      hMay).1

end Run

------------------------------------------------------------
-- Cards Of The Command Line
------------------------------------------------------------

/- Cards are numbered one after the other. -/
theorem CardList.ids_number
    (chips : RankChips)
    (first : Nat)
    (fs : List (Suit × Rank)) :
    (number chips first fs).map Card.id =
      List.range' first fs.length := by
  induction fs generalizing first with
  | nil => rfl
  | cons f fs ih =>
      rw [List.length_cons, List.range'_succ, ← ih]
      rfl

namespace Program

/- Written cards bear the numbers from the first one on. -/
theorem ids_cards
    {text : String}
    {chips : RankChips}
    {first : Nat}
    {cs : List Card}
    (hCards : cards text chips first = .ok cs) :
    cs.map Card.id = List.range' first cs.length := by
  unfold cards CardList.parse at hCards
  cases hFaces : CardList.faces (CardList.tokens text) with
  | error w =>
      rw [hFaces] at hCards
      cases hCards
  | ok fs =>
      rw [hFaces] at hCards
      cases hCards
      have hIds := CardList.ids_number chips first fs
      have hLength := congrArg List.length hIds
      rw [List.length_map, List.length_range'] at hLength
      rw [hIds, hLength]

/- The content, cards and jokers of a call to score. -/
structure ScoreCall where
  content : Assets
  text : String
  selected : List Card
  held : List Card
  jokers : List Ability

/- The hand of a call, scored. -/
def ScoreCall.summary
    (x : ScoreCall) : PlaySummary :=
  Scoring.play x.content.rules.hands x.selected x.held
    x.jokers

/-
  What the score command reads from a call that it accepts,
  and what it writes.
-/
structure Accepts
    (o : Options)
    (file : String → FileState)
    (lines : List String)
    (x : ScoreCall) : Prop where
  written : o.cards = some x.text
  loaded : load o file = .ok x.content
  played :
    cards x.text x.content.chips 1 = .ok x.selected
  kept :
    cards (o.held.getD "") x.content.chips
        (x.selected.length + 1) =
      .ok x.held
  owned : board x.content.catalog o.jokers = .ok x.jokers
  output : lines = report o.json x.summary x.selected

section

variable {o : Options}
variable {file : String → FileState}
variable {lines : List String}
variable {x : ScoreCall}

/- With content at hand, its cards alone are left to read. -/
theorem score_of_load
    {text : String}
    {content : Assets}
    (hText : o.cards = some text)
    (hLoad : load o file = .ok content) :
    (score o file).1 = (scoreWith o content text).1 := by
  simp only [score, hText, hLoad]

/- A call that gives a result is read and scored so. -/
theorem accepts_of_score
    (hScore : (score o file).1 = .ok lines) :
    ∃ x, Accepts o file lines x := by
  cases hText : o.cards with
  | none =>
      simp only [score, hText] at hScore
      cases hScore
  | some text =>
      cases hLoad : load o file with
      | error e =>
          simp only [score, hText, hLoad] at hScore
          cases hScore
      | ok content =>
          rw [score_of_load hText hLoad] at hScore
          unfold scoreWith at hScore
          dsimp only at hScore
          split at hScore
          · cases hScore
          · rename_i selected hPlayed
            split at hScore
            · cases hScore
            · rename_i held hKept
              split at hScore
              · cases hScore
              · rename_i jokers hOwned
                cases hScore
                exact ⟨⟨content, text, selected, held, jokers⟩,
                  hText, hLoad, hPlayed, hKept, hOwned, rfl⟩

/-
  The cards of an accepted call are counted through: the
  played ones from one on, then the held ones.
-/
theorem Accepts.numbered
    (hAccepts : Accepts o file lines x) :
    (x.selected ++ x.held).map Card.id =
      List.range' 1 (x.selected ++ x.held).length := by
  rw [List.map_append, ids_cards hAccepts.played,
    ids_cards hAccepts.kept, List.length_append,
    ← List.range'_append_1, Nat.add_comm 1]

/- So no held card is a played one, however it is written. -/
theorem Accepts.heldInFull
    (hAccepts : Accepts o file lines x) :
    Scoring.HeldInFull x.content.rules.hands x.selected
      x.held x.jokers x.summary := by
  have hIds :
      ((x.selected ++ x.held).map Card.id).Nodup := by
    rw [hAccepts.numbered]
    exact List.nodup_range'
  exact Scoring.heldInFull_of_disjoint
    (List.disjoint_of_nodup_append (hIds.of_map Card.id))
    _ _

end

end Program

------------------------------------------------------------
-- Both Callers
------------------------------------------------------------

/-
  In every reachable run, and for every call that the score
  command accepts, the held cards are met in full.  A run
  answers with the summary of exactly these cards, and the
  command writes it.
-/
theorem held_pass_skips_nothing :
    (∀ r : Run, r.Reachable →
      Scoring.HeldInFull r.rules.hands r.selectedCards
        r.unselectedCards r.jokers.items r.playSummary ∧
      ∀ s, (r.perform .play).answer = .ok (.played s) ↔
        r.MayPlay ∧ s = r.playSummary) ∧
    ∀ (o : Options) (file : String → FileState)
        (lines : List String),
      (Program.score o file).1 = .ok lines →
        ∃ x : Program.ScoreCall,
          Program.Accepts o file lines x ∧
          (x.selected ++ x.held).map Card.id =
            List.range' 1 (x.selected ++ x.held).length ∧
          Scoring.HeldInFull x.content.rules.hands
            x.selected x.held x.jokers x.summary := by
  constructor
  · intro r hReachable
    exact ⟨Run.heldInFull_of_reachable hReachable,
      Run.played_iff_of_reachable hReachable⟩
  · intro o file lines hScore
    rcases Program.accepts_of_score hScore with
      ⟨x, hAccepts⟩
    exact ⟨x, hAccepts, hAccepts.numbered,
      hAccepts.heldInFull⟩

/- A run with a joker for fours, given at its start. -/
def foursRun : Run :=
  ((Run.begin Rules.standard RankChips.standard
      (Catalog.ofList
        [Scoring.jokerOf (.heldRankMult 5 .four)])
      7).perform (.addJoker "joker")).run

/- The run with one card of its first hand selected. -/
def foursHeld : Run :=
  foursRun.performAll [.start, .toggle 0]

theorem reachable_foursHeld : foursHeld.Reachable :=
  Run.reachable_performAll
    (.perform _ (.begin _ _ _ _)) [.start, .toggle 0]

theorem mayPlay_foursHeld : foursHeld.MayPlay :=
  Run.mayPlay_opened
    ⟨Or.inl rfl, by decide, by decide, by decide⟩

/- Two triggers of five each, on top of a mult of one. -/
theorem fours_are_met :
    (Scoring.playTriggers foursHeld.rules.hands
        foursHeld.selectedCards foursHeld.unselectedCards
        foursHeld.jokers.items).length = 2 ∧
      foursHeld.playSummary.mult = 11 := by
  decide +kernel

/- A joker for held kings. -/
def crown : Ability :=
  ⟨"crown", "Crown", "", 0, 0, some (.heldRankMult 5 .king)⟩

/- A table with that joker alone. -/
def crownTable : Json :=
  .object
    [("crown", .object
      [("name", .string "Crown"),
        ("effect_id", .string "HeldRankMult"),
        ("params", .object
          [("amount", .whole 5),
            ("rank", .string "King")])])]

theorem plain_crownTable : crownTable.Plain := by
  refine .object fun m hMem => ?_
  rw [List.mem_singleton.mp hMem]
  refine .object fun m hMem => ?_
  simp only [List.mem_cons, List.not_mem_nil, or_false] at hMem
  rcases hMem with rfl | rfl | rfl
  · exact .string "Crown"
  · exact .string "HeldRankMult"
  · refine .object fun m hMem => ?_
    simp only [List.mem_cons, List.not_mem_nil, or_false] at hMem
    rcases hMem with rfl | rfl
    · exact .whole (by decide) (by decide)
    · exact .string "King"

/- Files of which only the one of the jokers is there. -/
def jokersAlone
    (f : FileState)
    (path : String) : FileState :=
  if path = "assets/jokers.json" then f else .missing

/- A call that plays a king and holds one written alike. -/
def sameKings : Options :=
  { Options.standard with
    command := .score
    cards := some "KH"
    held := some "KH"
    jokers := ["crown"] }

/- The lines of that call. -/
def sameKingsLines : List String :=
  ["High Card [K♥]", "  Base: 5 x 1",
    "  Held (Crown): +5 Mult (King held)",
    "  Final: 5 x 6 = 30", "score: 30"]

/-
  The files are read as far as their text, which no longer
  matters then.
-/
theorem score_sameKings
    {f : FileState}
    (hText : f.text = .ok crownTable.compact) :
    (Program.score sameKings (jokersAlone f)).1 =
      .ok sameKingsLines := by
  let warnings :=
    (Assets.ranksOf "assets/ranks.json" .missing).2
  have hRecords :
      JokerTable.records? crownTable.compact =
        crownTable.dictionary? (JokerRecord.ofStored? 1) := by
    rw [JokerTable.records?, plain_crownTable.parse_compact]
    rfl
  have hJokers :
      Assets.jokersOf "assets/jokers.json" f =
        (Catalog.ofList [crown], []) := by
    rw [Assets.jokersOf, Assets.readJokers, hText]
    dsimp only
    rw [Assets.parseJokers, JokerTable.parse, hRecords]
    rfl
  have hLoad :
      Program.load sameKings (jokersAlone f) =
        .ok ⟨Rules.standard, RankChips.empty,
          Catalog.ofList [crown], warnings ++ []⟩ := by
    have hParts :
        Assets.load "assets" (jokersAlone f) =
          .ok ⟨Rules.standard, RankChips.empty,
            (Assets.jokersOf "assets/jokers.json" f).1,
            warnings ++
              (Assets.jokersOf "assets/jokers.json" f).2⟩ :=
      rfl
    rw [hJokers] at hParts
    exact congrArg (Except.mapError _) hParts
  rw [Program.score_of_load rfl hLoad]
  -- The warnings are left out before the lines are computed.
  have hScored :
      (Program.scoreWith sameKings
          ⟨Rules.standard, RankChips.empty,
            Catalog.ofList [crown], warnings ++ []⟩
          "KH").1.toOption =
        some sameKingsLines := by
    change
      (Program.scoreWith sameKings
          ⟨Rules.standard, RankChips.empty,
            Catalog.ofList [crown], []⟩
          "KH").1.toOption = _
    decide +kernel
  generalize
    (Program.scoreWith sameKings _ "KH").1 = result
    at hScored ⊢
  cases result with
  | error e => cases hScored
  | ok lines =>
      cases hScored
      rfl

/-
  A joker meets both fours of a hand, and a king is met that
  is written like the one that is played.
-/
theorem held_pass_skips_nothing_sameKings :
    (foursHeld.Reachable ∧
      Scoring.HeldInFull foursHeld.rules.hands
        foursHeld.selectedCards foursHeld.unselectedCards
        foursHeld.jokers.items foursHeld.playSummary ∧
      (foursHeld.perform .play).answer =
        .ok (.played foursHeld.playSummary) ∧
      (Scoring.playTriggers foursHeld.rules.hands
        foursHeld.selectedCards foursHeld.unselectedCards
        foursHeld.jokers.items).length = 2 ∧
      foursHeld.playSummary.mult = 11) ∧
    ∃ f : FileState,
      (Program.score sameKings (jokersAlone f)).1 =
          .ok sameKingsLines ∧
        ∃ x : Program.ScoreCall,
          Program.Accepts sameKings (jokersAlone f)
            sameKingsLines x ∧
          (x.selected ++ x.held).map Card.id =
            List.range' 1 (x.selected ++ x.held).length ∧
          Scoring.HeldInFull x.content.rules.hands
            x.selected x.held x.jokers x.summary := by
  rcases held_pass_skips_nothing with ⟨hRuns, hCalls⟩
  rcases hRuns foursHeld reachable_foursHeld with
    ⟨hFull, hPlayed⟩
  have hScore :=
    score_sameKings (Assets.text_bytes crownTable.compact)
  refine ⟨⟨reachable_foursHeld, hFull,
    (hPlayed _).mpr ⟨mayPlay_foursHeld, rfl⟩,
    fours_are_met⟩, _, hScore, ?_⟩
  exact hCalls sameKings _ sameKingsLines hScore

end JokerRun
