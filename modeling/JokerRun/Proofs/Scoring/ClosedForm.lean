import JokerRun.Proofs.Scoring.Gain

/-
  The score of a played hand in closed form.

  The bonuses of jokers for single cards only ever gain, so
  that their order does not matter: mult stands at the plain
  sum of all of them, up to the largest amount, when the
  jokers act on the whole hand.  That last pass depends on
  the order of the board.

  Key definitions include:
    * `Scoring.bonuses`
    * `Scoring.globalStep`
    * `Scoring.closedForm`

  Key theorems include:
    * `Scoring.passCards_eq`
    * `Scoring.pass_global_eq`
    * `Scoring.play_eq_closedForm`
-/

------------------------------------------------------------
-- Bonuses For Cards
------------------------------------------------------------

namespace JokerRun

namespace Scoring

/- Mult that a joker offers for one card, as it is shown. -/
structure Bonus where
  amount : Int
  text : String

/- What a joker offers for a scoring card. -/
def suitBonus?
    (c : Card)
    (a : Ability) : Option Bonus :=
  match a.effect with
  | some (.suitConditionalMult n suit) =>
      if c.suit = suit then
        some ⟨n, s!"+{n} Mult ({suit.name})"⟩
      else
        none
  | _ => none

/- What a joker offers for a held card. -/
def rankBonus?
    (c : Card)
    (a : Ability) : Option Bonus :=
  match a.effect with
  | some (.heldRankMult n rank) =>
      if c.rank = rank then
        some ⟨n, s!"+{n} Mult ({rank.name} held)"⟩
      else
        none
  | _ => none

/- What the jokers offer, card by card, in board order. -/
def bonuses
    (bonus? : Card → Ability → Option Bonus)
    (board : List Ability)
    (cards : List Card) : List (Ability × Bonus) :=
  cards.flatMap fun c =>
    board.filterMap fun a =>
      (bonus? c a).map fun b => (a, b)

/- The sum of what is offered; an offered loss counts as 0. -/
def total
    (bs : List (Ability × Bonus)) : Int :=
  (bs.map fun b => max b.2.amount 0).sum

/- The line that says what a joker does. -/
def jokerLine
    (title : String)
    (a : Ability)
    (text : String) : String :=
  s!"{title} ({a.name}): {text}"

/- The line that an offer leaves. -/
def bonusLine
    (title : String)
    (b : Ability × Bonus) : String :=
  jokerLine title b.1 b.2.text

------------------------------------------------------------
-- The Pass Over The Board
------------------------------------------------------------

/- Chips and mult between two jokers. -/
structure Standing where
  chips : Int
  mult : Int

/- What a joker makes of the whole hand. -/
def globalStep
    (jokers : Nat)
    (v : Standing)
    (a : Ability) : Standing :=
  match a.effect with
  | some (.flatChips n) =>
      { v with chips := Amount.add v.chips (max n 0) }
  | some (.flatMult n) =>
      { v with mult := Amount.add v.mult (max n 0) }
  | some (.countScaledMult n) =>
      { v with
        mult :=
          Amount.add v.mult
            (max (Amount.clamp (n * jokers)) 0) }
  | some (.multFactor f) =>
      if f.exceedsOne then
        { v with
          mult :=
            ((Binary64.ofInt v.mult).mul f).floorAmount }
      else
        v
  | _ => v

/- What is written of a joker's act on the whole hand. -/
def globalText?
    (jokers : Nat)
    (a : Ability) : Option String :=
  match a.effect with
  | some (.flatChips n) => some s!"+{n} Chips"
  | some (.flatMult n) => some s!"+{n} Mult"
  | some (.countScaledMult n) =>
      let m := Amount.clamp (n * jokers)
      some s!"+{m} Mult ({jokers} Jokers)"
  | some (.multFactor f) =>
      if f.exceedsOne then
        some s!"X{f.plain}"
      else
        some s!"X{f.plain} Mult"
  | _ => none

/- The line of a joker's act on the whole hand. -/
def globalLine?
    (jokers : Nat)
    (a : Ability) : Option String :=
  (globalText? jokers a).map (jokerLine "Global" a)

------------------------------------------------------------
-- The Closed Form
------------------------------------------------------------

/- Chips and mult after the cards, when the last pass begins. -/
def cardStanding
    (hand : HandResult)
    (scoring idle : List Card)
    (board : List Ability) : Standing :=
  ⟨scoring.foldl
      (fun n c => Amount.add n c.chips) hand.chips,
    min Amount.highest
      (hand.mult +
        total (bonuses suitBonus? board scoring) +
        total (bonuses rankBonus? board idle))⟩

/- The lines of a played hand up to the final one. -/
def lines
    (hand : HandResult)
    (scoring idle : List Card)
    (board : List Ability) : List String :=
  [s!"Base: {hand.chips} x {hand.mult}"] ++
    (bonuses suitBonus? board scoring).map
      (bonusLine "Joker") ++
    (bonuses rankBonus? board idle).map
      (bonusLine "Held") ++
    board.filterMap (globalLine? board.length)

/-
  The result of playing cards, with one sum for the cards
  and one pass over the board.
-/
def closedForm
    (rules : List HandRule)
    (selected held : List Card)
    (board : List Ability) : PlaySummary :=
  let hand := Hand.classify rules selected
  let scoring := hand.scoringCards selected
  let idle := held.filter fun c => c ∉ scoring
  let v :=
    board.foldl (globalStep board.length)
      (cardStanding hand scoring idle board)
  let score := Amount.clamp (v.chips * v.mult)
  ⟨hand, v.chips, v.mult, score,
    lines hand scoring idle board ++
      [s!"Final: {v.chips} x {v.mult} = {score}"]⟩

------------------------------------------------------------
-- Passes Over Cards
------------------------------------------------------------

/- The tally after a bonus. -/
def grant
    (title : String)
    (t : Tally)
    (b : Ability × Bonus) : Tally :=
  ⟨t.chips, Tally.gain t.mult b.2.amount,
    t.log ++ [bonusLine title b]⟩

/-
  In a phase jokers do nothing but grant their bonuses, each
  for the card at hand.
-/
def Grants
    (title : String)
    (phase : Phase)
    (bonus? : Card → Ability → Option Bonus) : Prop :=
  ∀ (t : Tally) (c : Card) (jokers : Nat) (a : Ability),
    t.trigger title ⟨phase, some c, jokers⟩ a =
      match (bonus? c a).map fun b => (a, b) with
      | some b => grant title t b
      | none => t

/- An outcome of added mult adds to mult and to the log. -/
theorem apply_ofMult
    (t : Tally)
    (title : String)
    (a : Ability)
    (n : Int)
    (text : String) :
    t.apply title a (.ofMult n text) =
      ⟨t.chips, Tally.gain t.mult n,
        t.log ++ [jokerLine title a text]⟩ := by
  have hFactor :
      (Outcome.ofMult n text).hasFactor = false := by
    simp only [Outcome.hasFactor, Outcome.ofMult,
      Outcome.silent, Binary64.exceedsOne_ofInt_one]
  simp only [Tally.apply, hFactor]
  rfl

theorem trigger_of_outcome
    {t : Tally}
    {title : String}
    {m : Moment}
    {a : Ability}
    {o : Outcome}
    (hOutcome : a.outcome? m = some o) :
    t.trigger title m a = t.apply title a o := by
  simp only [Tally.trigger, hOutcome]

theorem trigger_of_silence
    {t : Tally}
    {title : String}
    {m : Moment}
    {a : Ability}
    (hSilence : a.outcome? m = none) :
    t.trigger title m a = t := by
  simp only [Tally.trigger, hSilence]

/- A joker without an effect is silent. -/
theorem outcome?_of_inert
    {a : Ability}
    (hInert : a.effect = none)
    (m : Moment) :
    a.outcome? m = none := by
  simp only [Ability.outcome?, hInert, Option.bind_none]

/- A joker is silent outside the phase of its effect. -/
theorem outcome?_of_phase_ne
    {a : Ability}
    {e : Effect}
    {m : Moment}
    (hEffect : a.effect = some e)
    (hPhase : m.phase ≠ e.phase) :
    a.outcome? m = none := by
  simp only [Ability.outcome?, hEffect, Option.bind_some,
    Effect.outcome?, hPhase, if_false]

/- In its phase a joker yields what its effect does. -/
theorem outcome?_of_phase_eq
    {a : Ability}
    {e : Effect}
    {m : Moment}
    (hEffect : a.effect = some e)
    (hPhase : m.phase = e.phase) :
    a.outcome? m = e.yield? m := by
  simp only [Ability.outcome?, hEffect, Option.bind_some,
    Effect.outcome?, hPhase, if_true]

/- Mult that is offered for some cards only. -/
theorem trigger_onCard
    (t : Tally)
    (title : String)
    {phase : Phase}
    {c : Card}
    {jokers : Nat}
    {a : Ability}
    {e : Effect}
    {applies : Card → Bool}
    {n : Int}
    {text : String}
    (hEffect : a.effect = some e)
    (hYield :
      e.yield? ⟨phase, some c, jokers⟩ =
        Effect.onCard? ⟨phase, some c, jokers⟩ applies
          (.ofMult n text))
    (hPhase : phase = e.phase) :
    t.trigger title ⟨phase, some c, jokers⟩ a =
      if applies c then
        ⟨t.chips, Tally.gain t.mult n,
          t.log ++ [jokerLine title a text]⟩
      else
        t := by
  have hOutcome :
      a.outcome? ⟨phase, some c, jokers⟩ =
        if applies c then some (.ofMult n text) else none := by
    rw [outcome?_of_phase_eq hEffect hPhase, hYield]
    rfl
  cases hApplies : applies c with
  | false =>
      rw [hApplies] at hOutcome
      exact trigger_of_silence hOutcome
  | true =>
      rw [hApplies] at hOutcome
      rw [trigger_of_outcome hOutcome, apply_ofMult]
      rfl

/-
  Jokers grant what they offer when the effects of a phase
  yield mult for some cards, and no other effect offers.
-/
theorem grants_of_offers
    {title : String}
    {phase : Phase}
    {bonus? : Card → Ability → Option Bonus}
    (hOwn :
      ∀ (a : Ability) (e : Effect) (c : Card) (jokers : Nat),
        a.effect = some e → e.phase = phase →
          ∃ (applies : Card → Bool) (n : Int)
            (text : String),
            e.yield? ⟨phase, some c, jokers⟩ =
                Effect.onCard? ⟨phase, some c, jokers⟩
                  applies (.ofMult n text) ∧
              bonus? c a =
                if applies c then some ⟨n, text⟩ else none)
    (hOther :
      ∀ (a : Ability) (c : Card),
        (∀ e, a.effect = some e → e.phase ≠ phase) →
          bonus? c a = none) :
    Grants title phase bonus? := by
  intro t c jokers a
  cases hEffect : a.effect with
  | none =>
      have hNone : bonus? c a = none := by
        apply hOther
        intro e hSome
        rw [hEffect] at hSome
        cases hSome
      rw [trigger_of_silence (outcome?_of_inert hEffect _),
        hNone]
      rfl
  | some e =>
      by_cases hPhase : e.phase = phase
      · rcases hOwn a e c jokers hEffect hPhase with
          ⟨applies, n, text, hYield, hBonus⟩
        rw [trigger_onCard t title hEffect hYield
          hPhase.symm, hBonus]
        cases applies c with
        | false => rfl
        | true => rfl
      · have hNone : bonus? c a = none := by
          apply hOther
          intro e' hSome
          rw [hEffect] at hSome
          cases hSome
          exact hPhase
        rw [trigger_of_silence
            (outcome?_of_phase_ne hEffect (Ne.symm hPhase)),
          hNone]
        rfl

theorem grants_individual :
    Grants "Joker" .individual suitBonus? := by
  apply grants_of_offers
  · intro a e c jokers hEffect hPhase
    cases e with
    | suitConditionalMult n suit =>
        refine ⟨fun c => c.suit == suit, n, _, rfl, ?_⟩
        simp [suitBonus?, hEffect]
    | flatMult | countScaledMult | discardRankRebate
    | flatChips | multFactor | heldRankMult =>
        cases hPhase
  · intro a c hOther
    unfold suitBonus?
    split
    · rename_i n suit hEffect
      exact absurd rfl (hOther _ hEffect)
    · rfl

theorem grants_heldInHand :
    Grants "Held" .heldInHand rankBonus? := by
  apply grants_of_offers
  · intro a e c jokers hEffect hPhase
    cases e with
    | heldRankMult n rank =>
        refine ⟨fun c => c.rank == rank, n, _, rfl, ?_⟩
        simp [rankBonus?, hEffect]
    | flatMult | suitConditionalMult | countScaledMult
    | discardRankRebate | flatChips | multFactor =>
        cases hPhase
  · intro a c hOther
    unfold rankBonus?
    split
    · rename_i n rank hEffect
      exact absurd rfl (hOther _ hEffect)
    · rfl

/- Passes over cards grant bonuses one after the other. -/
theorem passCards_eq
    {title : String}
    {phase : Phase}
    {bonus? : Card → Ability → Option Bonus}
    (hGrants : Grants title phase bonus?)
    (board : List Ability)
    (cards : List Card)
    (t : Tally) :
    passCards title phase board cards t =
      (bonuses bonus? board cards).foldl (grant title) t := by
  unfold passCards bonuses
  rw [List.foldl_flatMap]
  congr
  funext t c
  unfold Tally.pass
  rw [List.foldl_filterMap]
  congr
  funext t a
  rw [hGrants t c board.length a]
  cases bonus? c a with
  | none => rfl
  | some b => rfl

/- Granted bonuses add up and each leaves a line. -/
theorem foldl_grant
    (title : String)
    (bs : List (Ability × Bonus))
    (t : Tally)
    (hRange : Amount.InRange t.mult) :
    bs.foldl (grant title) t =
      ⟨t.chips, min Amount.highest (t.mult + total bs),
        t.log ++ bs.map (bonusLine title)⟩ := by
  have hFold : ∀ t : Tally,
      bs.foldl (grant title) t =
        ⟨t.chips,
          (bs.map fun b => b.2.amount).foldl Tally.gain
            t.mult,
          t.log ++ bs.map (bonusLine title)⟩ := by
    induction bs with
    | nil =>
        intro t
        simp only [List.foldl_nil, List.map_nil,
          List.append_nil]
    | cons b bs ih =>
        intro t
        rw [List.foldl_cons, ih]
        simp only [grant, List.map_cons, List.foldl_cons,
          List.append_assoc, List.singleton_append]
  rw [hFold, Tally.foldl_gain _ hRange, List.map_map]
  rfl

------------------------------------------------------------
-- The Pass Over The Board
------------------------------------------------------------

/- The tally of a standing, after some lines. -/
def Standing.tally
    (v : Standing)
    (log : List String) : Tally :=
  ⟨v.chips, v.mult, log⟩

/- Chips and mult that are amounts. -/
structure Standing.InRange (v : Standing) : Prop where
  chips : Amount.InRange v.chips
  mult : Amount.InRange v.mult

theorem inRange_globalStep
    {v : Standing}
    (hRange : v.InRange)
    (jokers : Nat)
    (a : Ability) :
    (globalStep jokers v a).InRange := by
  unfold globalStep
  split
  · exact ⟨Amount.inRange_add _ _, hRange.mult⟩
  · exact ⟨hRange.chips, Amount.inRange_add _ _⟩
  · exact ⟨hRange.chips, Amount.inRange_add _ _⟩
  · split_ifs
    · refine ⟨hRange.chips, ?_⟩
      dsimp only
      exact Binary64.inRange_floorAmount _
    · exact hRange
  · exact hRange

/- An outcome of added chips adds to chips and to the log. -/
theorem apply_ofChips
    (t : Tally)
    (title : String)
    (a : Ability)
    (n : Int)
    (text : String) :
    t.apply title a (.ofChips n text) =
      ⟨Tally.gain t.chips n, t.mult,
        t.log ++ [jokerLine title a text]⟩ := by
  have hFactor :
      (Outcome.ofChips n text).hasFactor = false := by
    simp only [Outcome.hasFactor, Outcome.ofChips,
      Outcome.silent, Binary64.exceedsOne_ofInt_one]
  simp only [Tally.apply, hFactor]
  rfl

/- A factor is written without the joker's own text. -/
theorem factor_line
    (title : String)
    (a : Ability)
    (text : String) :
    s!"{title} ({a.name}): X{text}" =
      jokerLine title a s!"X{text}" := by
  change
    title ++ " (" ++ a.name ++ ("): " ++ "X") ++ text =
      title ++ " (" ++ a.name ++ "): " ++ ("X" ++ text)
  simp only [String.append_assoc]

/- A factor acts on mult only when it exceeds one. -/
theorem apply_ofFactor
    (t : Tally)
    (title : String)
    (a : Ability)
    (f : Binary64)
    (text : String) :
    t.apply title a (.ofFactor f text) =
      if f.exceedsOne then
        ⟨t.chips, Binary64.scale t.mult f,
          t.log ++ [jokerLine title a s!"X{f.plain}"]⟩
      else
        ⟨t.chips, t.mult,
          t.log ++ [jokerLine title a text]⟩ := by
  rw [← factor_line]
  simp only [Tally.apply, Outcome.hasFactor,
    Outcome.ofFactor, Outcome.silent, Tally.gain,
    Int.lt_irrefl, if_false, Tally.write]
  rfl

/- What a joker does to the tally for the whole hand. -/
theorem trigger_global
    {v : Standing}
    (hRange : v.InRange)
    (log : List String)
    (jokers : Nat)
    (a : Ability) :
    (v.tally log).trigger "Global"
        ⟨.global, none, jokers⟩ a =
      (globalStep jokers v a).tally
        (log ++ (globalLine? jokers a).toList) := by
  cases hEffect : a.effect with
  | none =>
      rw [trigger_of_silence (outcome?_of_inert hEffect _)]
      simp only [globalStep, globalLine?, globalText?,
        hEffect, Option.map_none, Option.toList_none,
        List.append_nil]
  | some e =>
      cases e with
      | flatMult n =>
          have hOutcome :
              a.outcome? ⟨.global, none, jokers⟩ =
                some (.ofMult n s!"+{n} Mult") :=
            outcome?_of_phase_eq hEffect rfl
          rw [trigger_of_outcome hOutcome, apply_ofMult]
          simp only [globalStep, globalLine?, globalText?,
            hEffect, Standing.tally,
            Tally.gain_eq_add hRange.mult]
          rfl
      | countScaledMult n =>
          have hOutcome :
              a.outcome? ⟨.global, none, jokers⟩ =
                some (.ofMult (Amount.mul n jokers)
                  s!"+{Amount.mul n jokers} Mult ({jokers} Jokers)") :=
            outcome?_of_phase_eq hEffect rfl
          rw [trigger_of_outcome hOutcome, apply_ofMult]
          simp only [globalStep, globalLine?, globalText?,
            hEffect, Standing.tally,
            Tally.gain_eq_add hRange.mult]
          rfl
      | flatChips n =>
          have hOutcome :
              a.outcome? ⟨.global, none, jokers⟩ =
                some (.ofChips n s!"+{n} Chips") :=
            outcome?_of_phase_eq hEffect rfl
          rw [trigger_of_outcome hOutcome, apply_ofChips]
          simp only [globalStep, globalLine?, globalText?,
            hEffect, Standing.tally,
            Tally.gain_eq_add hRange.chips]
          rfl
      | multFactor f =>
          have hOutcome :
              a.outcome? ⟨.global, none, jokers⟩ =
                some (.ofFactor f s!"X{f.plain} Mult") :=
            outcome?_of_phase_eq hEffect rfl
          rw [trigger_of_outcome hOutcome, apply_ofFactor]
          cases hFactor : f.exceedsOne with
          | false =>
              simp only [globalStep, globalLine?,
                globalText?, hEffect, hFactor,
                Bool.false_eq_true, if_false,
                Option.map_some, Option.toList_some]
              rfl
          | true =>
              simp only [globalStep, globalLine?,
                globalText?, hEffect, hFactor, if_true,
                Standing.tally, Binary64.scale,
                Option.map_some, Option.toList_some]
      | suitConditionalMult | discardRankRebate
      | heldRankMult =>
          rw [trigger_of_silence
            (outcome?_of_phase_ne hEffect Phase.noConfusion)]
          simp only [globalStep, globalLine?, globalText?,
            hEffect, Option.map_none, Option.toList_none,
            List.append_nil]

/- The last pass takes the steps in board order. -/
theorem pass_global_eq
    {v : Standing}
    (hRange : v.InRange)
    (log : List String)
    (board : List Ability) :
    (v.tally log).pass "Global" .global none board =
      (board.foldl (globalStep board.length) v).tally
        (log ++
          board.filterMap (globalLine? board.length)) := by
  unfold Tally.pass
  generalize board.length = jokers
  induction board generalizing v log with
  | nil =>
      rw [List.filterMap_nil, List.append_nil]
      rfl
  | cons a board ih =>
      rw [List.foldl_cons, trigger_global hRange,
        ih (inRange_globalStep hRange jokers a),
        List.foldl_cons, List.append_assoc]
      congr 2
      cases hLine : globalLine? jokers a with
      | none => rw [List.filterMap_cons_none hLine]; rfl
      | some line => rw [List.filterMap_cons_some hLine]; rfl

------------------------------------------------------------
-- Played Hands
------------------------------------------------------------

theorem total_nonneg
    (bs : List (Ability × Bonus)) :
    0 ≤ total bs := by
  have hGains :=
    Tally.sum_gains_nonneg (bs.map fun b => b.2.amount)
  rw [List.map_map] at hGains
  exact hGains

theorem inRange_cardStanding
    {hand : HandResult}
    (hChips : Amount.InRange hand.chips)
    (hMult : Amount.InRange hand.mult)
    (scoring idle : List Card)
    (board : List Ability) :
    (cardStanding hand scoring idle board).InRange where
  chips := Amount.inRange_foldl_add Card.chips scoring hChips
  mult := by
    have hSuits :=
      total_nonneg (bonuses suitBonus? board scoring)
    have hRanks :=
      total_nonneg (bonuses rankBonus? board idle)
    have hStanding :=
      Amount.inRange_min_highest hMult
        (Int.add_nonneg hSuits hRanks)
    rw [← Int.add_assoc] at hStanding
    exact hStanding

/- The tally after the passes over the cards. -/
theorem passCards_opening_eq
    {hand : HandResult}
    (hMult : Amount.InRange hand.mult)
    (scoring idle : List Card)
    (board : List Ability) :
    passCards "Held" .heldInHand board idle
        (passCards "Joker" .individual board scoring
          (opening hand scoring)) =
      (cardStanding hand scoring idle board).tally
        ([s!"Base: {hand.chips} x {hand.mult}"] ++
          (bonuses suitBonus? board scoring).map
            (bonusLine "Joker") ++
          (bonuses rankBonus? board idle).map
            (bonusLine "Held")) := by
  have hSuits :=
    total_nonneg (bonuses suitBonus? board scoring)
  have hRanks :=
    total_nonneg (bonuses rankBonus? board idle)
  have hAfterSuits :
      Amount.InRange
        (min Amount.highest
          (hand.mult +
            total (bonuses suitBonus? board scoring))) :=
    Amount.inRange_min_highest hMult hSuits
  rw [passCards_eq grants_individual,
    foldl_grant "Joker" _ (opening hand scoring) hMult,
    passCards_eq grants_heldInHand,
    foldl_grant "Held" _ _ hAfterSuits]
  unfold opening cardStanding Standing.tally
  congr 1
  change
    min Amount.highest
        (min Amount.highest
            (hand.mult +
              total (bonuses suitBonus? board scoring)) +
          total (bonuses rankBonus? board idle)) =
      min Amount.highest
        (hand.mult +
          total (bonuses suitBonus? board scoring) +
          total (bonuses rankBonus? board idle))
  -- Once the sum has stopped, further gains are lost.
  omega

/- The tally of a played hand. -/
theorem tally_eq
    {hand : HandResult}
    (hChips : Amount.InRange hand.chips)
    (hMult : Amount.InRange hand.mult)
    (scoring held : List Card)
    (board : List Ability) :
    tally hand scoring held board =
      (board.foldl (globalStep board.length)
          (cardStanding hand scoring
            (idleHeld scoring held) board)).tally
        (lines hand scoring (idleHeld scoring held)
          board) := by
  simp only [tally]
  rw [passCards_opening_eq hMult]
  exact pass_global_eq
    (inRange_cardStanding hChips hMult scoring _ board) _
    board

/-
  A played hand scores what the closed form says, and its
  log has the lines that the closed form lists.
-/
theorem play_eq_closedForm
    (rules : List HandRule)
    (selected held : List Card)
    (board : List Ability)
    (hRules :
      ∀ rule ∈ rules,
        Amount.InRange rule.chips ∧
          Amount.InRange rule.mult) :
    play rules selected held board =
      closedForm rules selected held board := by
  have hBase := Hand.inRange_classify hRules selected
  have hIdle : ∀ scoring : List Card,
      idleHeld scoring held =
        held.filter fun c => c ∉ scoring := by
    intro scoring
    unfold idleHeld
    congr
    funext c
    simp
  unfold play closedForm
  simp only
  rw [tally_eq hBase.1 hBase.2, hIdle]
  rfl

/- A joker that has an effect. -/
def jokerOf
    (effect : Effect) : Ability :=
  ⟨"joker", "Joker", "", 4, 0, some effect⟩

/- The cards, the rule and the jokers of one played hand. -/
def twoKings : List Card :=
  [⟨1, .hearts, .king, 10⟩, ⟨2, .spades, .king, 10⟩]

def oneQueen : List Card :=
  [⟨3, .clubs, .queen, 10⟩]

def pairRule : HandRule :=
  ⟨.pair, 15, 3⟩

def fiveJokers : List Ability :=
  [jokerOf (.suitConditionalMult 4 .hearts),
    jokerOf (.heldRankMult 5 .queen),
    jokerOf (.flatMult (-6)),
    jokerOf (.multFactor (Binary64.ofInt 2)),
    jokerOf (.flatMult 7)]

/-
  Two kings are played and a queen is held.  One joker loses
  and counts as nothing, one comes too late to be doubled.
-/
theorem play_eq_closedForm_twoKings :
    (∀ rule ∈ [pairRule],
        Amount.InRange rule.chips ∧
          Amount.InRange rule.mult) ∧
      play [pairRule] twoKings oneQueen fiveJokers =
        closedForm [pairRule] twoKings oneQueen
          fiveJokers ∧
      (closedForm [pairRule] twoKings oneQueen
          fiveJokers).score = 35 * ((3 + 4 + 5) * 2 + 7) ∧
      (closedForm [pairRule] twoKings oneQueen
          fiveJokers).log =
        ["Base: 15 x 3",
          "Joker (Joker): +4 Mult (Hearts)",
          "Held (Joker): +5 Mult (Queen held)",
          "Global (Joker): +-6 Mult",
          "Global (Joker): X2",
          "Global (Joker): +7 Mult",
          "Final: 35 x 31 = 1085"] := by
  have hRules :
      ∀ rule ∈ [pairRule],
        Amount.InRange rule.chips ∧
          Amount.InRange rule.mult := by
    decide
  refine ⟨hRules, play_eq_closedForm _ _ _ _ hRules,
    ?_, ?_⟩
  · decide +kernel
  · decide +kernel

end Scoring

end JokerRun
