import JokerRun.DrawPile

/-
  Laws of the draw pile.

  Shuffling only reorders and drawing only splits, so that
  no card comes or goes.  The standard pile is every suit
  with every rank, numbered from 1 and worth what the table
  says.

  Key definitions include:
    * `DrawPile.Complete`

  Key theorems include:
    * `Generator.shuffle_perm`
    * `DrawPile.draw_perm`
    * `DrawPile.standard_eq`
    * `DrawPile.complete_of_perm`
-/

------------------------------------------------------------
-- Shuffling
------------------------------------------------------------

namespace JokerRun

namespace Generator

variable {α : Type}

/- Exchanging two items only reorders. -/
theorem swap_perm
    (xs : List α)
    (i j : Nat) :
    (swap xs i j).Perm xs := by
  unfold swap
  split
  · rename_i x y hx hy
    rcases List.getElem?_eq_some_iff.mp hx with ⟨hi, rfl⟩
    rcases List.getElem?_eq_some_iff.mp hy with ⟨hj, rfl⟩
    exact List.set_set_perm hi hj
  · exact List.Perm.refl xs

/- Whatever positions are chosen, a shuffle only reorders. -/
theorem shuffleFrom_perm
    (i : Nat)
    (xs : List α)
    (g : Generator) :
    (shuffleFrom i xs g).1.Perm xs := by
  induction i generalizing xs g with
  | zero => exact List.Perm.refl xs
  | succ i ih =>
      exact (ih _ _).trans (swap_perm xs (i + 1) _)

theorem shuffle_perm
    (g : Generator)
    (xs : List α) :
    (g.shuffle xs).1.Perm xs :=
  shuffleFrom_perm (xs.length - 1) xs g

end Generator

namespace DrawPile

/- A shuffled pile has the same cards. -/
theorem shuffle_cards_perm
    (p : DrawPile)
    (g : Generator) :
    (p.shuffle g).1.cards.Perm p.cards :=
  Generator.shuffle_perm g p.cards

------------------------------------------------------------
-- Drawing
------------------------------------------------------------

/- What is drawn and what is left make up the pile. -/
theorem draw_perm
    (p : DrawPile)
    (n : Nat) :
    ((p.draw n).1 ++ (p.draw n).2.cards).Perm p.cards := by
  let keep := p.cards.length - n
  have hSplit :
      (p.cards.drop keep ++ p.cards.take keep).Perm
        p.cards := by
    have hSwap :
        (p.cards.drop keep ++ p.cards.take keep).Perm
          (p.cards.take keep ++ p.cards.drop keep) :=
      List.perm_append_comm
    rwa [List.take_append_drop] at hSwap
  exact
    ((List.reverse_perm (p.cards.drop keep)).append_right
      (p.cards.take keep)).trans hSplit

/- As many cards are drawn as asked for, or all of them. -/
theorem length_draw
    (p : DrawPile)
    (n : Nat) :
    (p.draw n).1.length = min n p.cards.length := by
  simp only [draw, List.length_reverse, List.length_drop]
  omega

------------------------------------------------------------
-- The Standard Pile
------------------------------------------------------------

/- The card of a face with a number. -/
def numbered
    (chips : RankChips)
    (f : (Suit × Rank) × Nat) : Card :=
  ⟨f.2, f.1.1, f.1.2, chips.chipsFor f.1.2⟩

/-
  Cards added one after the other are numbered upwards from
  the pile's next number, as long as the numbers last.
-/
theorem foldl_add_eq
    (chips : RankChips)
    (fs : List (Suit × Rank))
    (p : DrawPile)
    (hRoom : p.nextId + fs.length ≤ largestId) :
    fs.foldl (fun p f => p.add f.1 f.2 chips) p =
      ⟨p.cards ++ (fs.zipIdx p.nextId).map (numbered chips),
        p.nextId + fs.length⟩ := by
  induction fs generalizing p with
  | nil => simp
  | cons f fs ih =>
      rw [List.length_cons] at hRoom
      have hNext :
          (p.add f.1 f.2 chips).nextId = p.nextId + 1 := by
        simp only [add]
        omega
      rw [List.foldl_cons, ih _ (by omega), hNext]
      simp only [add, nextCard, List.zipIdx_cons,
        List.map_cons, numbered, List.length_cons,
        List.append_assoc, List.cons_append,
        List.nil_append, DrawPile.mk.injEq, true_and]
      omega

/- The standard pile: every face once, numbered from 1. -/
theorem standard_eq
    (chips : RankChips) :
    standard chips =
      ⟨(faces.zipIdx 1).map (numbered chips), 53⟩ := by
  have hRoom : 1 + faces.length ≤ largestId := by decide
  rw [standard, foldl_add_eq chips faces ⟨[], 1⟩ hRoom]
  rfl

/- The numbers of the standard pile are 1 to 52. -/
theorem map_id_standard
    (chips : RankChips) :
    (standard chips).cards.map Card.id =
      List.range' 1 52 := by
  have hIds :
      (Card.id ∘ numbered chips) = Prod.snd := rfl
  rw [standard_eq, List.map_map, hIds, List.zipIdx_map_snd]
  rfl

/- The standard pile has every face once. -/
theorem map_face_standard
    (chips : RankChips) :
    (standard chips).cards.map
      (fun c => (c.suit, c.rank)) = faces := by
  have hFaces :
      ((fun c : Card => (c.suit, c.rank)) ∘
        numbered chips) = Prod.fst := rfl
  rw [standard_eq, List.map_map, hFaces,
    List.zipIdx_map_fst]

/- Each card of the standard pile is worth its table chips. -/
theorem chips_of_mem_standard
    {chips : RankChips}
    {c : Card}
    (hMem : c ∈ (standard chips).cards) :
    c.chips = chips.chipsFor c.rank := by
  rw [standard_eq, List.mem_map] at hMem
  rcases hMem with ⟨f, -, rfl⟩
  rfl

/- All cards of a round, each of them once. -/
structure Complete
    (chips : RankChips)
    (cs : List Card) : Prop where
  perm : cs.Perm (standard chips).cards
  size : cs.length = 52
  numbers : (cs.map Card.id).Perm (List.range' 1 52)
  distinct : (cs.map Card.id).Nodup
  faces :
    (cs.map fun c => (c.suit, c.rank)).Perm DrawPile.faces
  priced : ∀ c ∈ cs, c.chips = chips.chipsFor c.rank

theorem complete_of_perm
    {chips : RankChips}
    {cs : List Card}
    (hPerm : cs.Perm (standard chips).cards) :
    Complete chips cs where
  perm := hPerm
  size := by
    have hLength := congrArg List.length
      (map_id_standard chips)
    rw [List.length_map, List.length_range'] at hLength
    rw [hPerm.length_eq, hLength]
  numbers := by
    rw [← map_id_standard chips]
    exact hPerm.map Card.id
  distinct := by
    rw [(hPerm.map Card.id).nodup_iff, map_id_standard]
    exact List.nodup_range'
  faces := by
    rw [← map_face_standard chips]
    exact hPerm.map _
  priced := fun _ hc =>
    chips_of_mem_standard (hPerm.mem_iff.mp hc)

end DrawPile

end JokerRun
