import JokerRun.Proofs.Text.Pieces
import Mathlib.Data.List.Forall2
import Mathlib.Data.List.TakeWhile

/-
  The stretches of a text between separators, and texts
  without the blanks around them.

  A text has its stretches in one way: none of them has the
  separator, and joined with it they give the text back.
  Texts that are joined with the separator have their
  stretches one after the other.

  A text is trimmed in one way: what is taken off at its two
  ends is blank, and what is left has no blank there.

  Key definitions include:
    * `Text.Stretches`
    * `Text.Trims`

  Key theorems include:
    * `Text.stretches_iff`
    * `Text.cut_intercalate`
    * `Text.trims_iff`
    * `Text.forall₂_trims_iff`
-/

------------------------------------------------------------
-- Stretches
------------------------------------------------------------

namespace JokerRun

namespace Text

/-
  The stretches of a text between its separators, empty ones
  included.
-/
structure Stretches
    (separator : Char)
    (cs : List Char)
    (ss : List (List Char)) : Prop where
  nonempty : ss ≠ []
  whole : ∀ s ∈ ss, separator ∉ s
  joined : [separator].intercalate ss = cs

/- Joined texts are cut one after the other. -/
theorem cut_intercalate
    (separator : Char)
    {css : List (List Char)}
    (hSome : css ≠ []) :
    cut (· == separator) ([separator].intercalate css) =
      css.flatMap (cut (· == separator)) := by
  have hApart (front back : List Char) :
      cut (· == separator) (front ++ separator :: back) =
        cut (· == separator) front ++
          cut (· == separator) back := by
    apply cut_append_cons
    exact beq_self_eq_true separator
  induction css with
  | nil => exact absurd rfl hSome
  | cons cs css ih =>
      cases css with
      | nil =>
          rw [List.intercalate_singleton, List.flatMap_singleton]
      | cons ds css =>
          rw [List.intercalate_cons_cons, List.append_assoc,
            List.singleton_append, hApart,
            ih (List.cons_ne_nil ds css), ← List.flatMap_cons]

/- A text has its stretches in one way. -/
theorem stretches_iff
    {separator : Char}
    {cs : List Char}
    {ss : List (List Char)} :
    Stretches separator cs ss ↔
      cut (· == separator) cs = ss := by
  rw [cut_eq_splitOnP]
  change _ ↔ cs.splitOn separator = ss
  constructor
  · rintro ⟨hSome, hWhole, rfl⟩
    exact List.splitOn_intercalate separator hWhole hSome
  · rintro rfl
    refine ⟨List.splitOn_ne_nil separator cs, ?_,
      List.intercalate_splitOn separator⟩
    intro s hMem hInside
    rw [List.splitOn_eq_splitOnP, ← cut_eq_splitOnP] at hMem
    have hOther := whole_of_mem_cut hMem separator hInside
    exact absurd hOther (by simp)

------------------------------------------------------------
-- Trimmed Texts
------------------------------------------------------------

/- No blank stands at the front of the text. -/
def StartsWhole
    (cs : List Char) : Prop :=
  ∀ c, cs.head? = some c → isBlank c = false

/-
  A text between blanks: what stands around it is blank, and
  its own first and last character are not.
-/
structure Between
    (front w back : List Char) : Prop where
  front : IsGap isBlank front
  back : IsGap isBlank back
  first : StartsWhole w
  last : StartsWhole w.reverse

/- A text, and what is left of it without blanks around it. -/
def Trims
    (cs w : List Char) : Prop :=
  ∃ front back,
    Between front w back ∧ cs = front ++ (w ++ back)

theorem trimFront_gap_append
    {g : List Char}
    (hGap : IsGap isBlank g)
    (cs : List Char) :
    trimFront (g ++ cs) = trimFront cs :=
  List.dropWhile_append_of_pos hGap

theorem trimFront_of_startsWhole
    {cs : List Char}
    (hStarts : StartsWhole cs) :
    trimFront cs = cs := by
  cases cs with
  | nil => rfl
  | cons c cs =>
      have hFirst : ¬ isBlank c = true :=
        Bool.eq_false_iff.mp (hStarts c rfl)
      exact List.dropWhile_cons_of_neg hFirst

/- What is taken off at the front is blank. -/
theorem exists_gap_append_trimFront
    (cs : List Char) :
    ∃ g, IsGap isBlank g ∧ cs = g ++ trimFront cs :=
  ⟨cs.takeWhile isBlank,
    fun _ hMem => List.mem_takeWhile_imp hMem,
    List.takeWhile_append_dropWhile.symm⟩

theorem startsWhole_trimFront
    (cs : List Char) :
    StartsWhole (trimFront cs) := by
  intro c hHead
  have hFirst := List.head?_dropWhile_not isBlank cs
  rw [trimFront] at hHead
  rw [hHead] at hFirst
  exact hFirst

/- The start of a text decides how it starts. -/
theorem StartsWhole.of_append
    {cs ds : List Char}
    (hStarts : StartsWhole (cs ++ ds)) :
    StartsWhole cs := by
  intro c hHead
  apply hStarts c
  rw [List.head?_append, hHead]
  rfl

theorem StartsWhole.append
    {cs : List Char}
    (hStarts : StartsWhole cs)
    (hSome : cs ≠ [])
    (ds : List Char) :
    StartsWhole (cs ++ ds) := by
  intro c hHead
  rw [List.head?_append_of_ne_nil cs hSome] at hHead
  exact hStarts c hHead

theorem trims_trim
    (cs : List Char) :
    Trims cs (trim cs) := by
  rcases exists_gap_append_trimFront cs with
    ⟨front, hFront, hText⟩
  rcases exists_gap_append_trimFront
      (trimFront cs).reverse with
    ⟨back, hBack, hRest⟩
  have hEnds : trimFront cs = trim cs ++ back.reverse := by
    have hReversed := congrArg List.reverse hRest
    rw [List.reverse_reverse, List.reverse_append]
      at hReversed
    exact hReversed
  refine ⟨front, back.reverse, ⟨hFront, ?_, ?_, ?_⟩, ?_⟩
  · intro c hMem
    exact hBack c (List.mem_reverse.mp hMem)
  · have hStarts := startsWhole_trimFront cs
    rw [hEnds] at hStarts
    exact hStarts.of_append
  · rw [trim, List.reverse_reverse]
    exact startsWhole_trimFront _
  · rw [← hEnds]
    exact hText

theorem Trims.trim_eq
    {cs w : List Char}
    (hTrims : Trims cs w) :
    trim cs = w := by
  rcases hTrims with ⟨front, back, hBetween, rfl⟩
  have hBack : IsGap isBlank back.reverse := fun c hMem =>
    hBetween.back c (List.mem_reverse.mp hMem)
  have hEnd : trimFront (w ++ back).reverse = w.reverse := by
    rw [List.reverse_append, trimFront_gap_append hBack]
    exact trimFront_of_startsWhole hBetween.last
  by_cases hNone : w = []
  · -- Then the whole text is blank.
    subst hNone
    have hAll : trimFront back = [] :=
      List.dropWhile_eq_nil_iff.mpr hBetween.back
    rw [trim, trimFront_gap_append hBetween.front,
      List.nil_append, hAll]
    rfl
  · have hStarts := hBetween.first.append hNone back
    rw [trim, trimFront_gap_append hBetween.front,
      trimFront_of_startsWhole hStarts, hEnd,
      List.reverse_reverse]

/- A text is trimmed in one way. -/
theorem trims_iff
    {cs w : List Char} :
    Trims cs w ↔ trim cs = w := by
  constructor
  · exact Trims.trim_eq
  · rintro rfl
    exact trims_trim cs

/- Results that a function gives are its values. -/
theorem forall₂_iff_map_eq
    {α β : Type}
    {R : α → β → Prop}
    {f : α → β}
    (hGives : ∀ a b, R a b ↔ f a = b)
    {as : List α}
    {bs : List β} :
    List.Forall₂ R as bs ↔ as.map f = bs := by
  have hSame : R = fun a b => f a = b := by
    funext a b
    exact propext (hGives a b)
  rw [hSame, ← List.forall₂_eq_eq_eq,
    List.forall₂_map_left_iff]

/- Each of several texts is trimmed in one way. -/
theorem forall₂_trims_iff
    {ss ws : List (List Char)} :
    List.Forall₂ Trims ss ws ↔ ss.map trim = ws := by
  apply forall₂_iff_map_eq
  intro s w
  exact trims_iff

end Text

end JokerRun
