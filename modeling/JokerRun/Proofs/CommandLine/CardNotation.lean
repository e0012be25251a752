import JokerRun.CommandLine.Program
import JokerRun.Proofs.Hand.Groups
import JokerRun.Proofs.Text.Pieces

/-
  Written cards.

  A text of cards is read piece by piece, where blanks and
  commas stand between the pieces.  It is accepted if each
  piece is a card, and then gives one card for each, with
  numbers in order and chips from the table.  Otherwise the
  first piece that is no card is the error.

  Key definitions include:
    * `CardList.Lists`
    * `CardList.isBad`

  Key theorems include:
    * `CardList.cards_eq_ok_iff`
    * `CardList.cards_eq_error_iff`
    * `CardList.cards_append_gap`
    * `CardList.cards_written`
    * `CardList.cards_read_piece_by_piece`
-/

------------------------------------------------------------
-- Lists Of Cards
------------------------------------------------------------

namespace JokerRun

namespace CardList

/-
  Cards that pieces stand for, one for each, in order: their
  numbers count on from the first one, and their chips are
  those of the table.
-/
inductive Lists
    (chips : RankChips) :
    Nat → List (List Char) → List Card → Prop where
  | nil
      {first : Nat} :
      Lists chips first [] []
  | cons
      {first : Nat}
      {w : List Char}
      {suit : Suit}
      {rank : Rank}
      {ws : List (List Char)}
      {cs : List Card}
      (hCard : Card.ofNotation? w = some (suit, rank))
      (hRest : Lists chips (first + 1) ws cs) :
      Lists chips first (w :: ws)
        (⟨first, suit, rank, chips.chipsFor rank⟩ :: cs)

/- A piece that is no card. -/
def isBad
    (w : List Char) : Bool :=
  (Card.ofNotation? w).isNone

------------------------------------------------------------
-- Faces
------------------------------------------------------------

section

variable {chips : RankChips}
variable {first : Nat}
variable {ws : List (List Char)}

/- A piece that is no card ends the reading. -/
theorem faces_cons_bad
    {w : List Char}
    (hBad : Card.ofNotation? w = none) :
    faces (w :: ws) = .error (String.ofList w) := by
  rw [faces, hBad]

theorem faces_cons_good
    {w : List Char}
    {f : Suit × Rank}
    (hCard : Card.ofNotation? w = some f) :
    faces (w :: ws) = (faces ws).map (f :: ·) := by
  rw [faces, hCard]

/- Pieces that are cards give the cards that they list. -/
theorem faces_eq_ok_iff
    {cs : List Card} :
    (faces ws).map (number chips first) = .ok cs ↔
      Lists chips first ws cs := by
  induction ws generalizing first cs with
  | nil =>
      constructor
      · intro hRead
        cases hRead
        exact .nil
      · intro hLists
        cases hLists
        rfl
  | cons w ws ih =>
      constructor
      · intro hRead
        cases hCard : Card.ofNotation? w with
        | none =>
            rw [faces_cons_bad hCard] at hRead
            cases hRead
        | some f =>
            rw [faces_cons_good hCard] at hRead
            cases hRest : faces ws with
            | error e =>
                rw [hRest] at hRead
                cases hRead
            | ok fs =>
                rw [hRest] at hRead
                cases hRead
                refine .cons hCard (ih.mp ?_)
                rw [hRest]
                rfl
      · intro hLists
        cases hLists with
        | cons hCard hRest =>
            have hRead := ih.mpr hRest
            rw [faces_cons_good hCard]
            cases hFaces : faces ws with
            | error e =>
                rw [hFaces] at hRead
                cases hRead
            | ok fs =>
                rw [hFaces] at hRead
                cases hRead
                rfl

/- The first piece that is no card is the error. -/
theorem faces_eq_error_iff
    {e : String} :
    faces ws = .error e ↔
      ∃ w, ws.find? isBad = some w ∧ e = String.ofList w := by
  induction ws with
  | nil =>
      constructor
      · intro hRead
        cases hRead
      · rintro ⟨w, hFirst, -⟩
        cases hFirst
  | cons w ws ih =>
      cases hCard : Card.ofNotation? w with
      | none =>
          have hBad : isBad w = true := by
            rw [isBad, hCard, Option.isNone_none]
          rw [faces_cons_bad hCard, List.find?_cons_of_pos hBad]
          constructor
          · intro hRead
            cases hRead
            exact ⟨w, rfl, rfl⟩
          · rintro ⟨v, hFirst, rfl⟩
            cases hFirst
            rfl
      | some f =>
          have hGood : ¬ isBad w = true := by
            rw [isBad, hCard, Option.isNone_some]
            exact Bool.false_ne_true
          rw [faces_cons_good hCard, List.find?_cons_of_neg hGood,
            ← ih]
          cases faces ws with
          | error e' =>
              constructor <;>
              · intro hRead
                cases hRead
                rfl
          | ok fs =>
              constructor <;>
              · intro hRead
                cases hRead

theorem faces_append
    (ws vs : List (List Char)) :
    faces (ws ++ vs) =
      (faces ws).bind fun fs => (faces vs).map (fs ++ ·) := by
  induction ws with
  | nil =>
      rw [List.nil_append]
      cases faces vs <;> rfl
  | cons w ws ih =>
      rw [List.cons_append]
      cases hCard : Card.ofNotation? w with
      | none =>
          rw [faces_cons_bad hCard, faces_cons_bad hCard]
          rfl
      | some f =>
          rw [faces_cons_good hCard, faces_cons_good hCard, ih]
          cases faces ws with
          | error e => rfl
          | ok fs => cases faces vs <;> rfl

/- The later cards are numbered behind the earlier ones. -/
theorem number_append
    (fs gs : List (Suit × Rank)) :
    number chips first (fs ++ gs) =
      number chips first fs ++
        number chips (first + fs.length) gs := by
  induction fs generalizing first with
  | nil => rfl
  | cons f fs ih =>
      rw [List.cons_append, number, number, ih,
        List.cons_append, List.length_cons,
        Nat.add_assoc, Nat.add_comm 1]

theorem length_number
    (fs : List (Suit × Rank)) :
    (number chips first fs).length = fs.length := by
  induction fs generalizing first with
  | nil => rfl
  | cons f fs ih =>
      rw [number, List.length_cons, ih, List.length_cons]

/- Exactly the pieces that are all cards list some. -/
theorem exists_lists_iff :
    (∃ cs, Lists chips first ws cs) ↔
      ∀ w ∈ ws, Card.ofNotation? w ≠ none := by
  constructor
  · rintro ⟨cs, hLists⟩
    induction hLists with
    | nil => exact fun w hMem => absurd hMem List.not_mem_nil
    | cons hCard _ ih =>
        refine List.forall_mem_cons.mpr ⟨?_, ih⟩
        rw [hCard]
        exact Option.some_ne_none _
  · intro hGood
    induction ws generalizing first with
    | nil => exact ⟨[], .nil⟩
    | cons w ws ih =>
        rcases List.forall_mem_cons.mp hGood with
          ⟨hFirst, hLater⟩
        rcases Option.ne_none_iff_exists'.mp hFirst with
          ⟨⟨suit, rank⟩, hCard⟩
        have hRest : ∃ cs, Lists chips (first + 1) ws cs :=
          ih hLater
        rcases hRest with ⟨cs, hRest⟩
        exact ⟨_, .cons hCard hRest⟩

------------------------------------------------------------
-- Texts
------------------------------------------------------------

/- What is read of a text, by the pieces that it has. -/
theorem cards_eq
    (text : String) :
    Program.cards text chips first =
      ((faces (tokens text)).map (number chips first)).mapError
        .badCard := rfl

theorem cards_eq_ok_iff
    {text : String}
    {cs : List Card} :
    Program.cards text chips first = .ok cs ↔
      Lists chips first (tokens text) cs := by
  rw [← faces_eq_ok_iff, cards_eq]
  cases (faces (tokens text)).map (number chips first) with
  | error e =>
      constructor <;>
      · intro hRead
        cases hRead
  | ok cs' =>
      constructor <;>
      · intro hRead
        cases hRead
        rfl

theorem cards_eq_error_iff
    {text : String}
    {e : Failure} :
    Program.cards text chips first = .error e ↔
      ∃ w, (tokens text).find? isBad = some w ∧
        e = .badCard (String.ofList w) := by
  have hFirst (v : String) :
      faces (tokens text) = .error v ↔
        ∃ w, (tokens text).find? isBad = some w ∧
          v = String.ofList w :=
    faces_eq_error_iff
  rw [cards_eq]
  cases hFaces : faces (tokens text) with
  | error v =>
      rcases (hFirst v).mp hFaces with ⟨w, hBad, rfl⟩
      constructor
      · intro hRead
        cases hRead
        exact ⟨w, hBad, rfl⟩
      · rintro ⟨w', hBad', rfl⟩
        rw [hBad] at hBad'
        cases hBad'
        rfl
  | ok fs =>
      constructor
      · intro hRead
        cases hRead
      · rintro ⟨w, hBad, -⟩
        rw [(hFirst _).mpr ⟨w, hBad, rfl⟩] at hFaces
        cases hFaces

/-
  A text behind another one and a gap is read on its own,
  with numbers that count on.
-/
theorem cards_append_gap
    (a b : String)
    {g : List Char}
    (hGap : Text.IsGap isBreak g)
    (hSome : g ≠ []) :
    Program.cards (a ++ String.ofList g ++ b) chips first =
      (Program.cards a chips first).bind fun cs =>
        (Program.cards b chips (first + cs.length)).map
          (cs ++ ·) := by
  have hTokens :
      tokens (a ++ String.ofList g ++ b) =
        tokens a ++ tokens b := by
    rw [tokens, String.toList_append, String.toList_append,
      String.toList_ofList, List.append_assoc,
      Text.pieces_append_gap a.toList hGap hSome]
    rfl
  rw [cards_eq, hTokens, faces_append, cards_eq]
  simp only [cards_eq]
  cases faces (tokens a) with
  | error e => rfl
  | ok fs =>
      cases hBack : faces (tokens b) with
      | error e => rfl
      | ok gs =>
          have hLength :
              (number chips first fs).length = fs.length :=
            length_number fs
          simp only [Except.map, Except.bind, Except.mapError,
            number_append, hLength]

end

------------------------------------------------------------
-- Written Cards
------------------------------------------------------------

theorem toList_text
    (c : Card) :
    c.text.toList = c.rank.short.toList ++ [c.suit.symbol] := by
  rw [Card.text, String.toList_append,
    String.toList_singleton]

/- A written card is a piece. -/
theorem isPiece_text
    (c : Card) :
    Text.IsPiece isBreak c.text.toList := by
  rw [toList_text]
  refine ⟨List.append_ne_nil_of_right_ne_nil _
    (List.cons_ne_nil _ _), ?_⟩
  have hNone : c.rank.short.toList.any isBreak = false := by
    cases c.rank <;> rfl
  have hRank :
      ∀ x ∈ c.rank.short.toList, isBreak x = false := by
    intro x hMem
    exact Bool.eq_false_iff.mpr
      (List.any_eq_false.mp hNone x hMem)
  have hSuit : isBreak c.suit.symbol = false := by
    cases c.suit <;> decide
  intro x hMem
  rcases List.mem_append.mp hMem with hFront | hLast
  · exact hRank x hFront
  · rw [List.mem_singleton.mp hLast]
    exact hSuit

/- A written card is read back. -/
theorem ofNotation?_text
    (c : Card) :
    Card.ofNotation? c.text.toList =
      some (c.suit, c.rank) := by
  rw [toList_text]
  cases c.suit <;> cases c.rank <;> decide

/- The cards that written cards list have their faces. -/
theorem Lists.faces_eq
    {chips : RankChips}
    {first : Nat}
    {xs cs : List Card}
    (hLists :
      Lists chips first (xs.map fun c => c.text.toList) cs) :
    cs.map Card.face = xs.map Card.face := by
  induction xs generalizing first cs with
  | nil =>
      cases hLists
      rfl
  | cons x xs ih =>
      cases hLists with
      | cons hCard hRest =>
          rw [ofNotation?_text] at hCard
          cases hCard
          rw [List.map_cons, List.map_cons, ih hRest]
          rfl

/-
  Cards are read back from a text in which they are written
  with gaps between them.
-/
theorem cards_written
    (chips : RankChips)
    (first : Nat)
    {front : List Char}
    {xs : List (Card × List Char)}
    (hFront : Text.IsGap isBreak front)
    (hGaps : ∀ x ∈ xs, Text.IsGap isBreak x.2)
    (hApart : ∀ x ∈ xs.dropLast, x.2 ≠ []) :
    ∃ cs,
      Program.cards
          (String.ofList
            (Text.spaced front
              (xs.map fun x => (x.1.text.toList, x.2))))
          chips first =
        .ok cs ∧
      cs.map Card.face = xs.map fun x => x.1.face := by
  have hTokens :
      tokens
          (String.ofList
            (Text.spaced front
              (xs.map fun x => (x.1.text.toList, x.2)))) =
        (xs.map Prod.fst).map fun c => c.text.toList := by
    rw [tokens, String.toList_ofList]
    refine (Text.divides_spaced hFront ?_ ?_ ?_).pieces_eq.trans ?_
    · intro w hMem
      rcases List.mem_map.mp hMem with ⟨x, -, rfl⟩
      exact isPiece_text x.1
    · intro w hMem
      rcases List.mem_map.mp hMem with ⟨x, hItem, rfl⟩
      exact hGaps x hItem
    · intro w hMem
      rw [← List.map_dropLast] at hMem
      rcases List.mem_map.mp hMem with ⟨x, hItem, rfl⟩
      exact hApart x hItem
    · rw [List.map_map, List.map_map]
      rfl
  have hGood :
      ∀ w ∈ (xs.map Prod.fst).map fun c => c.text.toList,
        Card.ofNotation? w ≠ none := by
    intro w hMem
    rcases List.mem_map.mp hMem with ⟨c, -, rfl⟩
    rw [ofNotation?_text]
    exact Option.some_ne_none _
  rcases exists_lists_iff.mpr hGood with ⟨cs, hLists⟩
  refine ⟨cs, cards_eq_ok_iff.mpr ?_, ?_⟩
  · rw [hTokens]
    exact hLists
  · rw [hLists.faces_eq, List.map_map]
    rfl

/-
  A text has its pieces in one way and is read piece by
  piece, written cards are read back, and texts with a gap
  between them are read one after the other.
-/
theorem cards_read_piece_by_piece :
    (∀ text : String,
      ∃! ws, Text.Divides isBreak text.toList ws) ∧
    (∀ (text : String) (ws : List (List Char))
        (chips : RankChips) (first : Nat),
      Text.Divides isBreak text.toList ws →
        ((∃ cs, Program.cards text chips first = .ok cs) ↔
          ∀ w ∈ ws, Card.ofNotation? w ≠ none) ∧
        (∀ cs, Program.cards text chips first = .ok cs →
          Lists chips first ws cs) ∧
        ∀ e, Program.cards text chips first = .error e →
          ∃ w, ws.find? isBad = some w ∧
            e.message =
              s!"invalid card '{String.ofList w}'") ∧
    (∀ (front : List Char) (xs : List (Card × List Char))
        (chips : RankChips) (first : Nat),
      Text.IsGap isBreak front →
      (∀ x ∈ xs, Text.IsGap isBreak x.2) →
      (∀ x ∈ xs.dropLast, x.2 ≠ []) →
        ∃ cs,
          Program.cards
              (String.ofList
                (Text.spaced front
                  (xs.map fun x => (x.1.text.toList, x.2))))
              chips first =
            .ok cs ∧
          cs.map Card.face = xs.map fun x => x.1.face) ∧
    ∀ (a b : String) (g : List Char) (chips : RankChips)
        (first : Nat),
      Text.IsGap isBreak g → g ≠ [] →
        Program.cards (a ++ String.ofList g ++ b) chips first =
          (Program.cards a chips first).bind fun cs =>
            (Program.cards b chips (first + cs.length)).map
              (cs ++ ·) := by
  refine ⟨?_, ?_, ?_, ?_⟩
  · intro text
    exact ⟨tokens text, Text.divides_pieces text.toList,
      fun ws hDivides => hDivides.pieces_eq.symm⟩
  · intro text ws chips first hDivides
    have hTokens : tokens text = ws := hDivides.pieces_eq
    subst hTokens
    refine ⟨?_, fun cs => cards_eq_ok_iff.mp, ?_⟩
    · rw [← exists_lists_iff]
      exact exists_congr fun cs => cards_eq_ok_iff
    · intro e hError
      rcases cards_eq_error_iff.mp hError with
        ⟨w, hFirst, rfl⟩
      exact ⟨w, hFirst, rfl⟩
  · intro front xs chips first hFront hGaps hApart
    exact cards_written chips first hFront hGaps hApart
  · intro a b g chips first hGap hSome
    exact cards_append_gap a b hGap hSome

/- A comma and a blank, as they stand between cards. -/
def commaBlank : List Char :=
  [',', ' ']

/- The ten and the jack of diamonds. -/
def tenAndJack : List (Card × List Char) :=
  [(⟨0, .diamonds, .ten, 0⟩, commaBlank),
    (⟨0, .diamonds, .jack, 0⟩, [])]

/- Two cards are read and read back, and a third behind them. -/
theorem cards_read_piece_by_piece_diamonds :
    Text.Divides isBreak "10D, JD".toList
        ["10D".toList, "JD".toList] ∧
      (∃ cs, Program.cards "10D, JD" .standard 5 = .ok cs ∧
        Lists .standard 5 ["10D".toList, "JD".toList] cs) ∧
      Text.IsGap isBreak commaBlank ∧ commaBlank ≠ [] ∧
      (∃ cs,
        Program.cards
            (String.ofList
              (Text.spaced commaBlank
                (tenAndJack.map fun x =>
                  (x.1.text.toList, x.2))))
            .standard 5 =
          .ok cs ∧
        cs.map Card.face =
          [(.diamonds, .ten), (.diamonds, .jack)]) ∧
      Program.cards
          ("10D JD" ++ String.ofList commaBlank ++ "QD")
          .standard 5 =
        .ok
          [⟨5, .diamonds, .ten, 10⟩, ⟨6, .diamonds, .jack, 10⟩,
            ⟨7, .diamonds, .queen, 10⟩] := by
  have hGap : Text.IsGap isBreak commaBlank :=
    List.all_eq_true.mp rfl
  have hSome : commaBlank ≠ [] := List.cons_ne_nil _ _
  have hNone : Text.IsGap isBreak [] :=
    List.all_eq_true.mp rfl
  have hDivides :
      Text.Divides isBreak "10D, JD".toList
        ["10D".toList, "JD".toList] :=
    Text.divides_iff.mpr rfl
  have hGood :
      ∀ w ∈ ["10D".toList, "JD".toList],
        Card.ofNotation? w ≠ none := by
    decide
  rcases cards_read_piece_by_piece with
    ⟨-, hPieces, hWritten, hBehind⟩
  rcases hPieces _ _ .standard 5 hDivides with
    ⟨hAccepted, hLists, -⟩
  rcases hAccepted.mpr hGood with ⟨cs, hRead⟩
  refine ⟨hDivides, ⟨cs, hRead, hLists cs hRead⟩, hGap, hSome,
    ?_, ?_⟩
  · refine hWritten commaBlank tenAndJack .standard 5 hGap
      ?_ ?_
    · exact List.forall_mem_cons.mpr
        ⟨hGap, List.forall_mem_singleton.mpr hNone⟩
    · exact List.forall_mem_singleton.mpr hSome
  · rw [hBehind "10D JD" "QD" commaBlank .standard 5 hGap
      hSome]
    rfl

/- The first of two bad pieces is the one that is named. -/
example :
    Program.cards "10D ZZ,1X" .standard 1 =
      .error (.badCard "ZZ") := by
  rfl

end CardList

end JokerRun
