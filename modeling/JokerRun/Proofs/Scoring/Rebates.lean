import JokerRun.Proofs.Scoring.ClosedForm
import JokerRun.Scoring.Discard
import Mathlib.Data.List.Perm.Basic

/-
  What a discard pays.

  Only jokers that rebate a rank act on discarded cards, and
  each pays for every card of its rank.  Payments only ever
  gain, so that the money is a plain sum, up to the largest
  amount, and has no order.

  Key definitions include:
    * `Rebate`
    * `Scoring.rebates`
    * `Scoring.payments`
    * `Scoring.payout`

  Key theorems include:
    * `Scoring.discard_eq_foldl_pay`
    * `Scoring.sum_payments`
    * `Scoring.discard_eq_payout`
    * `Scoring.discard_pays_each_match`
-/

------------------------------------------------------------
-- Rebates
------------------------------------------------------------

namespace JokerRun

/- Money that a joker pays for each discard of a rank. -/
structure Rebate where
  owner : Ability
  dollars : Int
  rank : Rank
  gains : 0 < dollars

/- The line that a payment leaves. -/
def Rebate.line
    (x : Rebate) : String :=
  s!"Discard ({x.owner.name}): +${x.dollars}"

namespace Ability

/- The rebate of a joker, if it pays one. -/
def rebate?
    (a : Ability) : Option Rebate :=
  match a.effect with
  | some (.discardRankRebate d rank) =>
      if hGains : 0 < d then
        some ⟨a, d, rank, hGains⟩
      else
        none
  | _ => none

/- Whether a joker pays for discards. -/
def paysForDiscards
    (a : Ability) : Bool :=
  match a.effect with
  | some (.discardRankRebate d _) => decide (0 < d)
  | _ => false

theorem isSome_rebate?
    (a : Ability) :
    a.rebate?.isSome = a.paysForDiscards := by
  unfold rebate? paysForDiscards
  split
  · split_ifs with hGains
    · simp only [hGains, decide_true, Option.isSome_some]
    · simp only [hGains, decide_false, Option.isSome_none]
  · rfl

end Ability

namespace Scoring

/- The rebates of a board, in board order. -/
def rebates
    (board : List Ability) : List Rebate :=
  board.filterMap Ability.rebate?

/- What is paid for a card, in board order. -/
def paymentsFor
    (xs : List Rebate)
    (c : Card) : List Rebate :=
  xs.filter fun x => x.rank = c.rank

/- All payments, card by card. -/
def payments
    (xs : List Rebate)
    (cards : List Card) : List Rebate :=
  cards.flatMap (paymentsFor xs)

/- The number of cards of a rank. -/
def countOfRank
    (rank : Rank)
    (cards : List Card) : Nat :=
  cards.countP fun c => c.rank = rank

/-
  What a discard brings: each rebate as often as there are
  cards of its rank, and a line for each payment.
-/
def payout
    (xs : List Rebate)
    (cards : List Card) : DiscardSummary where
  dollars :=
    min Amount.highest
      (xs.map fun x =>
        x.dollars * (countOfRank x.rank cards : Int)).sum
  chips := 0
  mult := 0
  log := (payments xs cards).map Rebate.line

------------------------------------------------------------
-- Payments In A Row
------------------------------------------------------------

/- The summary after a payment. -/
def pay
    (s : DiscardSummary)
    (x : Rebate) : DiscardSummary :=
  ⟨Tally.gain s.dollars x.dollars, s.chips, s.mult,
    s.log ++ [x.line]⟩

/- The payment of a joker for a card, if it pays for it. -/
def paymentFor?
    (c : Card)
    (a : Ability) : Option Rebate :=
  a.rebate?.filter fun x => x.rank = c.rank

section

variable {a : Ability}
variable {d : Int}
variable {rank : Rank}

/- A joker for a rank pays for the cards of that rank only. -/
theorem paymentFor?_of_rank
    (hEffect : a.effect = some (.discardRankRebate d rank))
    (c : Card) :
    paymentFor? c a =
      if c.rank = rank then a.rebate? else none := by
  simp only [paymentFor?, Ability.rebate?, hEffect]
  by_cases hGains : 0 < d
  · by_cases hRank : c.rank = rank
    · simp [hGains, hRank, Option.filter_some]
    · simp [hGains, hRank, Ne.symm hRank,
        Option.filter_some]
  · simp [hGains]

/- Earned money is paid; no money leaves no trace. -/
theorem apply_ofDollars
    (s : DiscardSummary)
    (hEffect : a.effect = some (.discardRankRebate d rank))
    (text : String) :
    s.apply a (.ofDollars d text) =
      a.rebate?.elim s (pay s) := by
  simp only [DiscardSummary.apply, DiscardSummary.lines,
    Outcome.ofDollars, Outcome.silent, Ability.rebate?,
    hEffect]
  by_cases hGains : 0 < d
  · simp only [hGains, if_true, dite_true,
      Option.elim_some]
    rfl
  · simp only [hGains, if_false, dite_false,
      Option.elim_none, Tally.gain, Int.lt_irrefl,
      List.append_nil]

end

/-
  On a discarded card a joker pays what it has to pay for
  it, and does nothing else.
-/
theorem trigger_discard
    (s : DiscardSummary)
    (c : Card)
    (jokers : Nat)
    (a : Ability) :
    s.trigger ⟨.discard, some c, jokers⟩ a =
      (paymentFor? c a).elim s (pay s) := by
  unfold DiscardSummary.trigger
  cases hEffect : a.effect with
  | none =>
      rw [outcome?_of_inert hEffect]
      simp only [paymentFor?, Ability.rebate?, hEffect,
        Option.filter_none, Option.elim_none]
  | some e =>
      cases e with
      | discardRankRebate d rank =>
          have hOutcome :
              a.outcome? ⟨.discard, some c, jokers⟩ =
                if c.rank == rank then
                  some (.ofDollars d s!"+${d}")
                else
                  none :=
            outcome?_of_phase_eq hEffect rfl
          rw [hOutcome, paymentFor?_of_rank hEffect c]
          by_cases hRank : c.rank = rank
          · simp only [hRank, beq_self_eq_true, if_true]
            exact apply_ofDollars s hEffect _
          · simp only [hRank, beq_iff_eq, if_false,
              Option.elim_none]
      | flatMult | suitConditionalMult | countScaledMult
      | flatChips | multFactor | heldRankMult =>
          rw [outcome?_of_phase_ne hEffect
            Phase.noConfusion]
          simp only [paymentFor?, Ability.rebate?, hEffect,
            Option.filter_none, Option.elim_none]

/- The payments for a card, found joker by joker. -/
theorem paymentsFor_rebates
    (board : List Ability)
    (c : Card) :
    paymentsFor (rebates board) c =
      board.filterMap (paymentFor? c) := by
  unfold paymentsFor rebates
  rw [List.filter_filterMap]
  rfl

/- A discard makes its payments one after the other. -/
theorem discard_eq_foldl_pay
    (cards : List Card)
    (board : List Ability) :
    discard cards board =
      (payments (rebates board) cards).foldl pay
        .empty := by
  unfold discard payments
  rw [List.foldl_flatMap]
  congr
  funext s c
  rw [paymentsFor_rebates, List.foldl_filterMap]
  congr
  funext s a
  rw [trigger_discard s c board.length a]
  cases paymentFor? c a with
  | none => rfl
  | some x => rfl

/- Payments add up and each leaves a line. -/
theorem foldl_pay
    (xs : List Rebate)
    (s : DiscardSummary) :
    xs.foldl pay s =
      ⟨(xs.map Rebate.dollars).foldl Tally.gain s.dollars,
        s.chips, s.mult, s.log ++ xs.map Rebate.line⟩ := by
  induction xs generalizing s with
  | nil =>
      simp only [List.foldl_nil, List.map_nil,
        List.append_nil]
  | cons x xs ih =>
      rw [List.foldl_cons, ih]
      simp only [pay, List.map_cons, List.foldl_cons,
        List.append_assoc, List.singleton_append]

------------------------------------------------------------
-- Payments Added Up
------------------------------------------------------------

/- No payment is a loss, so that each counts in full. -/
theorem map_max_dollars
    (xs : List Rebate) :
    (xs.map Rebate.dollars).map (fun d => max d 0) =
      xs.map Rebate.dollars := by
  rw [List.map_map]
  apply List.map_congr_left
  intro x _
  exact max_eq_left x.gains.le

/- One more card adds what is paid for it. -/
theorem sum_paymentsFor
    (xs : List Rebate)
    (c : Card) :
    ((paymentsFor xs c).map Rebate.dollars).sum =
      (xs.map fun x =>
        if c.rank = x.rank then x.dollars else 0).sum := by
  induction xs with
  | nil => rfl
  | cons x xs ih =>
      unfold paymentsFor at ih ⊢
      by_cases hRank : x.rank = c.rank
      · rw [List.filter_cons_of_pos (by simp [hRank])]
        simp only [List.map_cons, List.sum_cons, ih, hRank,
          if_true]
      · rw [List.filter_cons_of_neg (by simp [hRank]), ih]
        simp only [List.map_cons, List.sum_cons,
          Ne.symm hRank, if_false, Int.zero_add]

/- One more card of its rank pays a rebate once more. -/
theorem dollars_mul_countOfRank_cons
    (x : Rebate)
    (c : Card)
    (cards : List Card) :
    x.dollars * (countOfRank x.rank (c :: cards) : Int) =
      (if c.rank = x.rank then x.dollars else 0) +
        x.dollars * (countOfRank x.rank cards : Int) := by
  unfold countOfRank
  by_cases hRank : c.rank = x.rank
  · rw [List.countP_cons_of_pos (by simp [hRank]),
      Int.natCast_add, Int.natCast_one, Int.mul_add,
      Int.mul_one, Int.add_comm, if_pos hRank]
  · rw [List.countP_cons_of_neg (by simp [hRank]),
      if_neg hRank, Int.zero_add]

/- Each rebate is paid as often as its rank occurs. -/
theorem sum_payments
    (xs : List Rebate)
    (cards : List Card) :
    ((payments xs cards).map Rebate.dollars).sum =
      (xs.map fun x =>
        x.dollars * (countOfRank x.rank cards : Int)).sum := by
  induction cards with
  | nil => simp [payments, countOfRank]
  | cons c cards ih =>
      have hSplit :
          payments xs (c :: cards) =
            paymentsFor xs c ++ payments xs cards :=
        List.flatMap_cons
      simp only [hSplit, List.map_append, List.sum_append,
        sum_paymentsFor, ih, dollars_mul_countOfRank_cons,
        List.sum_map_add]

/- A discard brings what its rebates pay. -/
theorem discard_eq_payout
    (cards : List Card)
    (board : List Ability) :
    discard cards board = payout (rebates board) cards := by
  have hZero : Amount.InRange 0 := by decide
  rw [discard_eq_foldl_pay, foldl_pay]
  unfold payout DiscardSummary.empty
  dsimp only
  rw [Tally.foldl_gain _ hZero, map_max_dollars,
    sum_payments, Int.zero_add, List.nil_append]

------------------------------------------------------------
-- Other Cards And Other Boards
------------------------------------------------------------

section

variable {cards others : List Card}
variable {board other : List Ability}

/- Money has no order, of cards or of jokers. -/
theorem dollars_payout_perm
    {xs ys : List Rebate}
    (hRebates : xs.Perm ys)
    (hCards : cards.Perm others) :
    (payout xs cards).dollars =
      (payout ys others).dollars := by
  have hCount
      (rank : Rank) :
      countOfRank rank cards = countOfRank rank others :=
    hCards.countP_eq _
  unfold payout
  dsimp only
  simp only [hCount]
  rw [(hRebates.map _).sum_eq]

/- Jokers that do not pay leave no rebate out. -/
theorem rebates_filter_paysForDiscards
    (board : List Ability) :
    rebates (board.filter Ability.paysForDiscards) =
      rebates board := by
  unfold rebates
  rw [List.filterMap_filter]
  congr
  funext a
  rw [← Ability.isSome_rebate?]
  cases a.rebate? with
  | none => rfl
  | some x => rfl

end

/-
  A discard pays each rebate for each card of its rank and
  brings nothing else.  The money is the same in any order
  of the cards and of the jokers, and jokers that do not pay
  leave no trace.
-/
theorem discard_pays_each_match
    (cards : List Card)
    (board : List Ability) :
    discard cards board = payout (rebates board) cards ∧
      (∀ (others : List Card) (other : List Ability),
        cards.Perm others → board.Perm other →
          (discard others other).dollars =
            (discard cards board).dollars) ∧
      discard cards (board.filter Ability.paysForDiscards) =
        discard cards board := by
  refine ⟨discard_eq_payout cards board, ?_, ?_⟩
  · intro others other hCards hBoard
    have hRebates :
        (rebates board).Perm (rebates other) :=
      hBoard.filterMap _
    rw [discard_eq_payout, discard_eq_payout]
    exact (dollars_payout_perm hRebates hCards).symm
  · rw [discard_eq_payout, discard_eq_payout,
      rebates_filter_paysForDiscards]

/- Cards and jokers of one discard. -/
def acesAndKing : List Card :=
  [⟨1, .spades, .ace, 11⟩, ⟨2, .hearts, .king, 10⟩,
    ⟨3, .clubs, .ace, 11⟩]

def rebatingBoard : List Ability :=
  [jokerOf (.discardRankRebate 3 .ace),
    jokerOf (.flatMult 4),
    jokerOf (.discardRankRebate (-2) .king),
    jokerOf (.discardRankRebate Amount.highest .king)]

/-
  Two aces and a king bring all that an amount can hold,
  also when cards and jokers are turned around.
-/
theorem discard_pays_each_match_acesAndKing :
    discard acesAndKing rebatingBoard =
        payout (rebates rebatingBoard) acesAndKing ∧
      (discard acesAndKing.reverse
          rebatingBoard.reverse).dollars =
        (discard acesAndKing rebatingBoard).dollars ∧
      (discard acesAndKing rebatingBoard).dollars =
        Amount.highest ∧
      (discard acesAndKing rebatingBoard).log =
        ["Discard (Joker): +$3",
          "Discard (Joker): +$9223372036854775807",
          "Discard (Joker): +$3"] := by
  rcases discard_pays_each_match acesAndKing
      rebatingBoard with ⟨hPayout, hPerm, -⟩
  refine ⟨hPayout, ?_, ?_, ?_⟩
  · exact hPerm _ _ (List.reverse_perm acesAndKing).symm
      (List.reverse_perm rebatingBoard).symm
  · decide +kernel
  · decide +kernel

end Scoring

end JokerRun
