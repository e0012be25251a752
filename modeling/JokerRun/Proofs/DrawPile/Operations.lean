import JokerRun.Proofs.DrawPile
import Mathlib.Data.List.Induction

/-
  The cards that a pile has ever held.

  Cards are shuffled, drawn and added in any order.  Each
  operation moves cards or adds one, so the cards drawn so
  far and those left are the first ones and the added ones.
  Added cards are numbered upwards, above all numbers that
  there are, until the numbers run out.

  Key definitions include:
    * `DrawPile.Operation`
    * `DrawPile.operateAll`
    * `DrawPile.drawn`
    * `DrawPile.added`
    * `DrawPile.NumbersLast`
    * `DrawPile.DrawsFromTop`

  Key theorems include:
    * `DrawPile.draw_add`
    * `DrawPile.drawn_append_cards_perm`
    * `DrawPile.map_id_added`
    * `DrawPile.NumbersLast.room`
    * `DrawPile.operations_keep_cards_apart`
-/

------------------------------------------------------------
-- Drawing In Parts
------------------------------------------------------------

namespace JokerRun

namespace DrawPile

/- The pile is what is left and, reversed, what is drawn. -/
theorem cards_eq_append_draw
    (p : DrawPile)
    (n : Nat) :
    p.cards = (p.draw n).2.cards ++ (p.draw n).1.reverse := by
  simp only [draw, List.reverse_reverse,
    List.take_append_drop]

/- Cards can be drawn in two parts. -/
theorem draw_add
    (p : DrawPile)
    (a b : Nat) :
    p.draw (a + b) =
      ((p.draw a).1 ++ ((p.draw a).2.draw b).1,
        ((p.draw a).2.draw b).2) := by
  let keep := p.cards.length - a
  have hLess : p.cards.length - (a + b) = keep - b :=
    Nat.sub_add_eq p.cards.length a b
  have hLength : (p.cards.take keep).length = keep :=
    List.length_take_of_le (Nat.sub_le _ _)
  have hStays : keep - b ≤ (p.cards.take keep).length := by
    rw [hLength]
    exact Nat.sub_le keep b
  have hDrawn :
      p.cards.drop (keep - b) =
        (p.cards.take keep).drop (keep - b) ++
          p.cards.drop keep := by
    rw [← List.drop_append_of_le_length hStays,
      List.take_append_drop]
  have hLeft :
      p.cards.take (keep - b) =
        (p.cards.take keep).take (keep - b) := by
    rw [List.take_take, Nat.min_eq_left (Nat.sub_le keep b)]
  simp only [draw, hLess, hDrawn, hLeft, List.reverse_append]
  rw [hLength]

------------------------------------------------------------
-- Operations In A Row
------------------------------------------------------------

/- What is done to a pile. -/
inductive Operation where
  | shuffle (g : Generator)
  | draw (count : Nat)
  | add (suit : Suit) (rank : Rank) (chips : RankChips)

/- Whether a card is added. -/
def Operation.adds : Operation → Bool
  | .add _ _ _ => true
  | _ => false

/- The pile after an operation. -/
def operate
    (p : DrawPile) : Operation → DrawPile
  | .shuffle g => (p.shuffle g).1
  | .draw n => (p.draw n).2
  | .add suit rank chips => p.add suit rank chips

/- The pile after operations in a row. -/
def operateAll
    (p : DrawPile) : List Operation → DrawPile
  | [] => p
  | op :: ops => (p.operate op).operateAll ops

/- The cards that an operation hands out. -/
def drawnBy
    (p : DrawPile) : Operation → List Card
  | .shuffle _ => []
  | .draw n => (p.draw n).1
  | .add _ _ _ => []

/- The cards that an operation puts in. -/
def addedBy
    (p : DrawPile) : Operation → List Card
  | .shuffle _ => []
  | .draw _ => []
  | .add suit rank chips => [p.nextCard suit rank chips]

/- What is noted of each operation in a row, put together. -/
def collect
    (note : DrawPile → Operation → List Card)
    (p : DrawPile) : List Operation → List Card
  | [] => []
  | op :: ops => note p op ++ collect note (p.operate op) ops

/- The cards that operations in a row hand out. -/
def drawn
    (p : DrawPile)
    (ops : List Operation) : List Card :=
  collect drawnBy p ops

/- The cards that operations in a row put in. -/
def added
    (p : DrawPile)
    (ops : List Operation) : List Card :=
  collect addedBy p ops

/- At most one card is put in at a time. -/
theorem length_addedBy
    (p : DrawPile)
    (op : Operation) :
    (p.addedBy op).length = op.adds.toNat := by
  cases op with
  | shuffle | draw | add => rfl

theorem added_append
    (p : DrawPile)
    (ops later : List Operation) :
    p.added (ops ++ later) =
      p.added ops ++ (p.operateAll ops).added later := by
  induction ops generalizing p with
  | nil => rfl
  | cons op ops ih =>
      change p.addedBy op ++ (p.operate op).added (ops ++ later) =
        (p.addedBy op ++ (p.operate op).added ops) ++ _
      rw [ih, List.append_assoc]
      rfl

/- One operation neither loses nor doubles a card. -/
theorem drawnBy_append_cards_perm
    (p : DrawPile)
    (op : Operation) :
    (p.drawnBy op ++ (p.operate op).cards).Perm
      (p.cards ++ p.addedBy op) := by
  cases op with
  | shuffle g =>
      rw [addedBy, List.append_nil]
      exact p.shuffle_cards_perm g
  | draw n =>
      rw [addedBy, List.append_nil]
      exact p.draw_perm n
  | add suit rank chips => exact List.Perm.refl _

/- Nor do operations in a row. -/
theorem drawn_append_cards_perm
    (p : DrawPile)
    (ops : List Operation) :
    (p.drawn ops ++ (p.operateAll ops).cards).Perm
      (p.cards ++ p.added ops) := by
  induction ops generalizing p with
  | nil => exact List.perm_append_comm
  | cons op ops ih =>
      have hFirst := p.drawnBy_append_cards_perm op
      have hRest := ih (p.operate op)
      change
        (p.drawnBy op ++ (p.operate op).drawn ops ++
            ((p.operate op).operateAll ops).cards).Perm
          (p.cards ++
            (p.addedBy op ++ (p.operate op).added ops))
      calc
        (p.drawnBy op ++ (p.operate op).drawn ops ++
            ((p.operate op).operateAll ops).cards).Perm
            (p.drawnBy op ++ ((p.operate op).cards ++
              (p.operate op).added ops)) := by
          rw [List.append_assoc]
          exact hRest.append_left (p.drawnBy op)
        _ |>.Perm
            (p.cards ++ p.addedBy op ++
              (p.operate op).added ops) := by
          rw [← List.append_assoc]
          exact hFirst.append_right _
        _ |>.Perm
            (p.cards ++
              (p.addedBy op ++ (p.operate op).added ops)) := by
          rw [List.append_assoc]

------------------------------------------------------------
-- Numbers
------------------------------------------------------------

/-
  The cards of a pile have different numbers, and the next
  number is above them.
-/
structure Numbered
    (p : DrawPile) : Prop where
  distinct : (p.cards.map Card.id).Nodup
  below : ∀ c ∈ p.cards, c.id < p.nextId
  bounded : p.nextId ≤ largestId

theorem numbered_empty :
    empty.Numbered where
  distinct := List.nodup_nil
  below _ hMem := absurd hMem List.not_mem_nil
  bounded := Nat.zero_le _

theorem numbered_standard
    (chips : RankChips) :
    (standard chips).Numbered where
  distinct := by
    rw [map_id_standard]
    exact List.nodup_range'
  below := by
    intro c hMem
    have hId := List.mem_map_of_mem (f := Card.id) hMem
    rw [map_id_standard, List.mem_range'_1] at hId
    rw [standard_eq]
    exact hId.2
  bounded := by
    rw [standard_eq]
    change 53 ≤ largestId
    decide

/-
  A number is left for the last card that is added.
-/
def NumbersLast
    (p : DrawPile)
    (ops : List Operation) : Prop :=
  ∀ before op after,
    ops = before ++ op :: after →
    op.adds = true →
    (∀ later ∈ after, later.adds = false) →
      (p.operateAll before).nextId ≠ largestId

section

variable {p : DrawPile}
variable {ops : List Operation}

/- Each added card takes a number while there are some. -/
theorem nextId_operate
    (hBounded : p.nextId ≤ largestId)
    (op : Operation) :
    (p.operate op).nextId =
      min (p.nextId + (p.addedBy op).length) largestId := by
  cases op with
  | shuffle | draw => exact (Nat.min_eq_left hBounded).symm
  | add => rfl

theorem nextId_operateAll
    (hBounded : p.nextId ≤ largestId)
    (ops : List Operation) :
    (p.operateAll ops).nextId =
      min (p.nextId + (p.added ops).length) largestId := by
  induction ops generalizing p with
  | nil => exact (Nat.min_eq_left hBounded).symm
  | cons op ops ih =>
      have hNext := nextId_operate hBounded op
      have hStill : (p.operate op).nextId ≤ largestId := by
        rw [hNext]
        exact Nat.min_le_right _ _
      change ((p.operate op).operateAll ops).nextId =
        min (p.nextId +
          (p.addedBy op ++ (p.operate op).added ops).length)
          largestId
      rw [ih hStill, hNext, List.length_append]
      omega

/- Added cards are numbered upwards from the next number. -/
theorem map_id_added
    (hRoom : p.nextId + (p.added ops).length ≤ largestId) :
    (p.added ops).map Card.id =
      List.range' p.nextId (p.added ops).length := by
  induction ops generalizing p with
  | nil => rfl
  | cons op ops ih =>
      cases op with
      | shuffle | draw => exact ih hRoom
      | add suit rank chips =>
          change
            p.nextId +
                ((p.add suit rank chips).added ops).length.succ ≤
              largestId at hRoom
          change
            p.nextId ::
                ((p.add suit rank chips).added ops).map Card.id =
              List.range' p.nextId
                ((p.add suit rank chips).added ops).length.succ
          have hNext :
              (p.add suit rank chips).nextId = p.nextId + 1 := by
            simp only [add]
            omega
          rw [List.range'_succ, ih (by omega), hNext]

theorem length_added_le
    (p : DrawPile)
    (ops : List Operation) :
    (p.added ops).length ≤ ops.length := by
  induction ops generalizing p with
  | nil => exact Nat.le_refl 0
  | cons op ops ih =>
      have hRest := ih (p.operate op)
      have hOne := op.adds.toNat_le
      change
        (p.addedBy op ++ (p.operate op).added ops).length ≤
          ops.length + 1
      rw [List.length_append, length_addedBy]
      omega

/- As many operations as there are numbers are no problem. -/
theorem numbersLast_of_room
    (hRoom : p.nextId + ops.length ≤ largestId) :
    p.NumbersLast ops := by
  rintro before op after rfl - -
  have hAdded := p.length_added_le before
  rw [List.length_append, List.length_cons] at hRoom
  rw [nextId_operateAll (by omega)]
  omega

/- Nothing changes behind the last card that is added. -/
theorem NumbersLast.of_append_singleton
    {op : Operation}
    (hLast : p.NumbersLast (ops ++ [op]))
    (hNoAdd : op.adds = false) :
    p.NumbersLast ops := by
  intro before o after hOps hAdds hLater
  refine hLast before o (after ++ [op]) ?_ hAdds ?_
  · rw [hOps, List.append_assoc, List.cons_append]
  · exact List.forall_mem_append.mpr
      ⟨hLater, List.forall_mem_singleton.mpr hNoAdd⟩

/- If the last added card finds a number, all of them do. -/
theorem NumbersLast.room
    (hLast : p.NumbersLast ops)
    (hBounded : p.nextId ≤ largestId) :
    p.nextId + (p.added ops).length ≤ largestId := by
  induction ops using List.reverseRecOn with
  | nil => exact hBounded
  | append_singleton ops op ih =>
      have hOne :
          ((p.operateAll ops).added [op]).length =
            op.adds.toNat := by
        change ((p.operateAll ops).addedBy op ++ []).length = _
        rw [List.append_nil, length_addedBy]
      rw [added_append, List.length_append, hOne]
      cases hAdds : op.adds with
      | true =>
          have hLeft :=
            hLast ops op [] rfl hAdds
              fun later hMem => absurd hMem List.not_mem_nil
          rw [nextId_operateAll hBounded] at hLeft
          rw [Bool.toNat_true]
          omega
      | false => exact ih (hLast.of_append_singleton hAdds)

/- Then no two cards have one number. -/
theorem Numbered.distinct_ids
    (hNumbered : p.Numbered)
    (hLast : p.NumbersLast ops) :
    ((p.drawn ops ++
      (p.operateAll ops).cards).map Card.id).Nodup := by
  have hIds := map_id_added (hLast.room hNumbered.bounded)
  rw [((p.drawn_append_cards_perm ops).map
      Card.id).nodup_iff, List.map_append, hIds,
    List.nodup_append]
  refine ⟨hNumbered.distinct, List.nodup_range', ?_⟩
  intro i hOld j hNew
  rcases List.mem_map.mp hOld with ⟨c, hMem, rfl⟩
  have hBelow := hNumbered.below c hMem
  have hAbove := (List.mem_range'_1.mp hNew).1
  omega

end

------------------------------------------------------------
-- Cards Kept Apart
------------------------------------------------------------

/-
  Drawing takes as many cards as asked for, or all of them,
  from the end of the pile.  The last one comes first, and
  the front of the pile stays.
-/
structure DrawsFromTop
    (p : DrawPile) : Prop where
  count : ∀ n, (p.draw n).1.length = min n p.remaining
  split :
    ∀ n, p.cards = (p.draw n).2.cards ++ (p.draw n).1.reverse
  nextId : ∀ n, (p.draw n).2.nextId = p.nextId
  inParts :
    ∀ a b, p.draw (a + b) =
      ((p.draw a).1 ++ ((p.draw a).2.draw b).1,
        ((p.draw a).2.draw b).2)

theorem drawsFromTop
    (p : DrawPile) :
    p.DrawsFromTop where
  count := p.length_draw
  split := p.cards_eq_append_draw
  nextId _ := rfl
  inParts := p.draw_add

/-
  Whatever is done to a pile, its cards and the drawn ones
  are those it had and those added, and no two of them have
  one number as long as the numbers last.
-/
theorem operations_keep_cards_apart
    {p : DrawPile}
    (hStart : p = empty ∨ ∃ chips, p = standard chips)
    (ops : List Operation) :
    (p.NumbersLast ops →
      ((p.drawn ops ++
        (p.operateAll ops).cards).map Card.id).Nodup) ∧
    (p.drawn ops ++ (p.operateAll ops).cards).Perm
      (p.cards ++ p.added ops) ∧
    ∀ q : DrawPile, q.DrawsFromTop := by
  have hNumbered : p.Numbered := by
    rcases hStart with rfl | ⟨chips, rfl⟩
    · exact numbered_empty
    · exact numbered_standard chips
  exact ⟨hNumbered.distinct_ids,
    p.drawn_append_cards_perm ops, drawsFromTop⟩

/- Cards are drawn, one is added, and all others drawn. -/
def handsAround : List Operation :=
  [.draw 2, .add .hearts .ace .standard,
    .shuffle (.ofSeed 3), .draw 60]

/- A second ace of hearts is told from the first. -/
theorem operations_keep_cards_apart_secondAce :
    (standard .standard).NumbersLast handsAround ∧
      (((standard .standard).drawn handsAround ++
        ((standard .standard).operateAll
          handsAround).cards).map Card.id).Nodup ∧
      ((standard .standard).drawn handsAround ++
        ((standard .standard).operateAll
          handsAround).cards).Perm
        ((standard .standard).cards ++
          [⟨53, .hearts, .ace, 11⟩]) := by
  have hLast :
      (standard .standard).NumbersLast handsAround := by
    apply numbersLast_of_room
    rw [standard_eq]
    change 53 + 4 ≤ largestId
    decide
  have hAdded :
      (standard .standard).added handsAround =
        [⟨53, .hearts, .ace, 11⟩] := by
    rw [standard_eq]
    rfl
  rcases operations_keep_cards_apart
      (Or.inr ⟨.standard, rfl⟩) handsAround with
    ⟨hApart, hPerm, -⟩
  rw [hAdded] at hPerm
  exact ⟨hLast, hApart hLast, hPerm⟩

end DrawPile

end JokerRun
