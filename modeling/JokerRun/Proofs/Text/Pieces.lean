import JokerRun.Text.Blank
import Mathlib.Data.List.Basic

/-
  The pieces of a text.

  Characters of a class stand in gaps, and the stretches
  between the gaps are the pieces.  Every text divides into
  gaps and pieces in exactly one way, and its pieces are the
  ones that cutting it leaves.  So texts with a gap between
  them have their pieces one after the other.

  Key definitions include:
    * `Text.IsGap`
    * `Text.IsPiece`
    * `Text.Divides`
    * `Text.spaced`

  Key theorems include:
    * `Text.cut_eq_splitOnP`
    * `Text.divides_iff`
    * `Text.pieces_append_gap`
    * `Text.divides_spaced`
-/

------------------------------------------------------------
-- Gaps And Pieces
------------------------------------------------------------

namespace JokerRun

namespace Text

/- Characters of the class and no others. -/
def IsGap
    (isCut : Char → Bool)
    (g : List Char) : Prop :=
  ∀ c ∈ g, isCut c = true

/- At least one character, and none of the class. -/
structure IsPiece
    (isCut : Char → Bool)
    (w : List Char) : Prop where
  nonempty : w ≠ []
  whole : ∀ c ∈ w, isCut c = false

/- What ends, or goes on with a character of the class. -/
def EndsPiece
    (isCut : Char → Bool)
    (cs : List Char) : Prop :=
  ∀ c, cs.head? = some c → isCut c = true

/-
  A text with its pieces in order: each of them goes as far
  as it can, and gaps stand between them and at the ends.
-/
inductive Divides
    (isCut : Char → Bool) :
    List Char → List (List Char) → Prop where
  | gap
      {g : List Char}
      (hGap : IsGap isCut g) :
      Divides isCut g []
  | piece
      {g w rest : List Char}
      {ws : List (List Char)}
      (hGap : IsGap isCut g)
      (hPiece : IsPiece isCut w)
      (hEnd : EndsPiece isCut rest)
      (hRest : Divides isCut rest ws) :
      Divides isCut (g ++ (w ++ rest)) (w :: ws)

/- Pieces, each with the gap behind it, after a first gap. -/
def spaced
    (front : List Char)
    (ws : List (List Char × List Char)) : List Char :=
  front ++ ws.flatMap fun w => w.1 ++ w.2

section

variable {isCut : Char → Bool}

/- A gap ends what stands before it. -/
theorem IsGap.endsPiece
    {g : List Char}
    (hGap : IsGap isCut g) :
    EndsPiece isCut g :=
  fun c hHead => hGap c (List.mem_of_head? hHead)

------------------------------------------------------------
-- Cuts
------------------------------------------------------------

theorem cut_eq_splitOnP
    (cs : List Char) :
    cut isCut cs = cs.splitOnP isCut := by
  induction cs with
  | nil => rfl
  | cons c cs ih =>
      have hSome := List.splitOnP_ne_nil isCut cs
      rw [cut, ih, List.splitOnP_cons_eq_if_modifyHead]
      split
      · rfl
      · cases hRest : cs.splitOnP isCut with
        | nil => exact absurd hRest hSome
        | cons s ss => rfl

theorem cut_ne_nil
    (cs : List Char) :
    cut isCut cs ≠ [] := by
  rw [cut_eq_splitOnP]
  exact List.splitOnP_ne_nil isCut cs

/- Cutting goes on afresh behind a character of the class. -/
theorem cut_append_cons
    (front : List Char)
    {c : Char}
    (hCut : isCut c = true)
    (back : List Char) :
    cut isCut (front ++ c :: back) =
      cut isCut front ++ cut isCut back := by
  simp only [cut_eq_splitOnP]
  exact List.splitOnP_append_cons front back hCut

/- A text without characters of the class stays in one. -/
theorem cut_of_whole
    {w : List Char}
    (hWhole : ∀ c ∈ w, isCut c = false) :
    cut isCut w = [w] := by
  rw [cut_eq_splitOnP]
  exact List.splitOnP_eq_singleton hWhole

/- No stretch has a character of the class. -/
theorem whole_of_mem_cut
    {cs s : List Char}
    (hMem : s ∈ cut isCut cs) :
    ∀ c ∈ s, isCut c = false := by
  induction cs generalizing s with
  | nil =>
      rw [cut, List.mem_singleton] at hMem
      subst hMem
      exact fun c hNone => absurd hNone List.not_mem_nil
  | cons d cs ih =>
      rw [cut] at hMem
      split at hMem
      case isTrue =>
        rcases List.mem_cons.mp hMem with rfl | hLater
        · exact fun c hNone => absurd hNone List.not_mem_nil
        · exact ih hLater
      case isFalse hWhole =>
        have hFirst : isCut d = false :=
          Bool.eq_false_iff.mpr hWhole
        cases hRest : cut isCut cs with
        | nil => exact absurd hRest (cut_ne_nil cs)
        | cons v vs =>
            simp only [hRest] at hMem ih
            rcases List.mem_cons.mp hMem with rfl | hLater
            · exact List.forall_mem_cons.mpr
                ⟨hFirst, ih List.mem_cons_self⟩
            · exact ih (List.mem_cons_of_mem v hLater)

------------------------------------------------------------
-- Pieces
------------------------------------------------------------

/- Texts with such a character between them. -/
theorem pieces_append_cons
    (front : List Char)
    {c : Char}
    (hCut : isCut c = true)
    (back : List Char) :
    pieces isCut (front ++ c :: back) =
      pieces isCut front ++ pieces isCut back := by
  rw [pieces, cut_append_cons front hCut back,
    List.filter_append]
  rfl

/- A gap at the front has no pieces. -/
theorem pieces_gap_append
    {g : List Char}
    (hGap : IsGap isCut g)
    (cs : List Char) :
    pieces isCut (g ++ cs) = pieces isCut cs := by
  induction g with
  | nil => rfl
  | cons c g ih =>
      have hFirst := hGap c List.mem_cons_self
      have hRest :=
        ih fun d hMem => hGap d (List.mem_cons_of_mem c hMem)
      have hCons :=
        pieces_append_cons [] hFirst (g ++ cs)
      rw [List.cons_append, ← hRest]
      exact hCons

theorem pieces_gap
    {g : List Char}
    (hGap : IsGap isCut g) :
    pieces isCut g = [] := by
  have hAll := pieces_gap_append hGap []
  rw [List.append_nil] at hAll
  exact hAll

/- Texts with a gap between them. -/
theorem pieces_append_gap
    (front : List Char)
    {g : List Char}
    (hGap : IsGap isCut g)
    (hSome : g ≠ [])
    (back : List Char) :
    pieces isCut (front ++ (g ++ back)) =
      pieces isCut front ++ pieces isCut back := by
  cases g with
  | nil => exact absurd rfl hSome
  | cons c g =>
      have hRest : IsGap isCut g := fun d hMem =>
        hGap d (List.mem_cons_of_mem c hMem)
      rw [List.cons_append,
        pieces_append_cons front
          (hGap c List.mem_cons_self),
        pieces_gap_append hRest]

/- A piece ends where what follows lets it end. -/
theorem pieces_piece_append
    {w rest : List Char}
    (hPiece : IsPiece isCut w)
    (hEnd : EndsPiece isCut rest) :
    pieces isCut (w ++ rest) = w :: pieces isCut rest := by
  have hAlone : pieces isCut w = [w] := by
    rw [pieces, cut_of_whole hPiece.whole]
    simp [hPiece.nonempty]
  cases rest with
  | nil =>
      rw [List.append_nil, hAlone]
      rfl
  | cons c rest =>
      have hCut := hEnd c rfl
      have hRest : pieces isCut (c :: rest) =
          pieces isCut rest :=
        pieces_append_cons [] hCut rest
      rw [pieces_append_cons w hCut rest, hAlone, hRest]
      rfl

------------------------------------------------------------
-- Divided Texts
------------------------------------------------------------

theorem Divides.pieces_eq
    {cs : List Char}
    {ws : List (List Char)}
    (hDivides : Divides isCut cs ws) :
    pieces isCut cs = ws := by
  induction hDivides with
  | gap hGap => exact pieces_gap hGap
  | piece hGap hPiece hEnd hRest ih =>
      rw [pieces_gap_append hGap,
        pieces_piece_append hPiece hEnd, ih]

/- Another character of the class widens the first gap. -/
theorem Divides.cons_cut
    {cs : List Char}
    {ws : List (List Char)}
    (hDivides : Divides isCut cs ws)
    {c : Char}
    (hCut : isCut c = true) :
    Divides isCut (c :: cs) ws := by
  cases hDivides with
  | gap hGap =>
      exact .gap (List.forall_mem_cons.mpr ⟨hCut, hGap⟩)
  | @piece g w rest ws hGap hPiece hEnd hRest =>
      exact .piece (g := c :: g)
        (List.forall_mem_cons.mpr ⟨hCut, hGap⟩) hPiece hEnd
        hRest

/- Another character makes a piece or lengthens the first. -/
theorem Divides.exists_cons_whole
    {cs : List Char}
    {ws : List (List Char)}
    (hDivides : Divides isCut cs ws)
    {c : Char}
    (hWhole : isCut c = false) :
    ∃ vs, Divides isCut (c :: cs) vs := by
  have hNone : IsGap isCut [] := fun d hMem =>
    absurd hMem List.not_mem_nil
  have hAlone : IsPiece isCut [c] :=
    ⟨List.cons_ne_nil c [], List.forall_mem_singleton.mpr
      hWhole⟩
  cases hDivides with
  | gap hGap =>
      exact ⟨_, .piece hNone hAlone hGap.endsPiece
        (.gap hGap)⟩
  | @piece g w rest ws hGap hPiece hEnd hRest =>
      cases g with
      | nil =>
          have hLonger : IsPiece isCut (c :: w) :=
            ⟨List.cons_ne_nil c w,
              List.forall_mem_cons.mpr
                ⟨hWhole, hPiece.whole⟩⟩
          exact ⟨_, .piece hNone hLonger hEnd hRest⟩
      | cons d g =>
          have hStop :
              EndsPiece isCut (d :: g ++ (w ++ rest)) := by
            intro e hHead
            cases hHead
            exact hGap d List.mem_cons_self
          exact ⟨_, .piece hNone hAlone hStop
            (.piece hGap hPiece hEnd hRest)⟩

/- Every text divides into gaps and pieces. -/
theorem divides_pieces
    (cs : List Char) :
    Divides isCut cs (pieces isCut cs) := by
  have hSome : ∃ ws, Divides isCut cs ws := by
    induction cs with
    | nil =>
        exact ⟨[], .gap fun c hMem =>
          absurd hMem List.not_mem_nil⟩
    | cons c cs ih =>
        rcases ih with ⟨ws, hDivides⟩
        cases hFirst : isCut c with
        | true => exact ⟨ws, hDivides.cons_cut hFirst⟩
        | false => exact hDivides.exists_cons_whole hFirst
  rcases hSome with ⟨ws, hDivides⟩
  rw [hDivides.pieces_eq]
  exact hDivides

/- The pieces of a text are those that it divides into. -/
theorem divides_iff
    {cs : List Char}
    {ws : List (List Char)} :
    Divides isCut cs ws ↔ pieces isCut cs = ws := by
  constructor
  · exact Divides.pieces_eq
  · rintro rfl
    exact divides_pieces cs

------------------------------------------------------------
-- Spaced Texts
------------------------------------------------------------

/-
  Spaced pieces are the pieces of the text, if there is a
  gap behind each of them but the last one.
-/
theorem divides_spaced
    {front : List Char}
    {ws : List (List Char × List Char)}
    (hFront : IsGap isCut front)
    (hPieces : ∀ w ∈ ws, IsPiece isCut w.1)
    (hGaps : ∀ w ∈ ws, IsGap isCut w.2)
    (hApart : ∀ w ∈ ws.dropLast, w.2 ≠ []) :
    Divides isCut (spaced front ws) (ws.map Prod.fst) := by
  induction ws generalizing front with
  | nil =>
      rw [spaced, List.flatMap_nil, List.append_nil]
      exact .gap hFront
  | cons w ws ih =>
      have hGap := hGaps w List.mem_cons_self
      have hRest :
          Divides isCut (spaced w.2 ws) (ws.map Prod.fst) := by
        refine ih hGap
          (fun v hMem => hPieces v (List.mem_cons_of_mem w hMem))
          (fun v hMem => hGaps v (List.mem_cons_of_mem w hMem))
          ?_
        intro v hMem
        apply hApart v
        cases ws with
        | nil => exact absurd hMem List.not_mem_nil
        | cons u us => exact List.mem_cons_of_mem w hMem
      have hEnd : EndsPiece isCut (spaced w.2 ws) := by
        cases ws with
        | nil =>
            rw [spaced, List.flatMap_nil, List.append_nil]
            exact hGap.endsPiece
        | cons u us =>
            have hSome := hApart w List.mem_cons_self
            rcases List.exists_cons_of_ne_nil hSome with
              ⟨c, g, hCons⟩
            rw [spaced, hCons]
            intro d hHead
            cases hHead
            apply hGap
            rw [hCons]
            exact List.mem_cons_self
      rw [spaced, List.flatMap_cons, List.append_assoc]
      exact .piece hFront (hPieces w List.mem_cons_self) hEnd
        hRest

end

end Text

end JokerRun
