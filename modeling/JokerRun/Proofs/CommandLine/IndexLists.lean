import JokerRun.CommandLine.Commands
import JokerRun.Proofs.Text.Numeral
import JokerRun.Proofs.Text.Stretches

/-
  Lists of positions.

  Arguments are read by their parts: each argument is cut at
  its commas, the blanks around what stands between them are
  left out, and so is what is then empty.  A list is
  accepted if there is a part and each is a numeral of 64
  bits, and gives the values of the parts in order.
  Otherwise the first part that is no such numeral is the
  error, or that there is no part.

  How the parts are spread over the arguments is not seen:
  a command does the same when its arguments are joined with
  commas.

  Key definitions include:
    * `IndexList.HasParts`
    * `IndexList.IsPosition` and `IndexList.FirstBad`

  Key theorems include:
    * `IndexList.hasParts_iff`
    * `IndexList.parse_joined`
    * `IndexList.parse_eq_ok_iff`
    * `IndexList.parse_goes_by_parts`
    * `Run.execute_joined`
-/

------------------------------------------------------------
-- Parts
------------------------------------------------------------

namespace JokerRun

namespace IndexList

/-
  The parts of arguments, in order: the stretches between
  the commas of each argument, trimmed, without empty ones.
-/
def HasParts
    (args : List String)
    (ws : List (List Char)) : Prop :=
  ∃ stretches trimmed,
    List.Forall₂
      (fun arg ss => Text.Stretches ',' arg.toList ss)
      args stretches ∧
    List.Forall₂ Text.Trims stretches.flatten trimmed ∧
    trimmed.filter (fun w => !w.isEmpty) = ws

/- A part that is a numeral of 64 bits. -/
def IsPosition
    (w : List Char) : Prop :=
  ∃ n, Numeral.Denotes Numeral.largest64 w n

/- The first part that is none. -/
def FirstBad
    (ws : List (List Char))
    (bad : List Char) : Prop :=
  ∃ good rest,
    ws = good ++ bad :: rest ∧
      (∀ w ∈ good, IsPosition w) ∧
      ¬ IsPosition bad

section

variable {args : List String}
variable {ws : List (List Char)}

/- All stretches can be trimmed and sifted at once. -/
theorem flatMap_parts
    (args : List String) :
    args.flatMap parts =
      ((args.flatMap fun arg =>
        Text.cut (· == ',') arg.toList).map Text.trim).filter
          fun w => !w.isEmpty := by
  rw [List.map_flatMap, List.filter_flatMap]
  rfl

/- Arguments have their parts in one way. -/
theorem hasParts_iff :
    HasParts args ws ↔ args.flatMap parts = ws := by
  have hCut (stretches : List (List (List Char))) :
      List.Forall₂
          (fun arg ss => Text.Stretches ',' arg.toList ss)
          args stretches ↔
        args.map (fun arg => Text.cut (· == ',') arg.toList) =
          stretches := by
    apply Text.forall₂_iff_map_eq
    intro arg ss
    exact Text.stretches_iff
  rw [flatMap_parts]
  constructor
  · rintro ⟨stretches, trimmed, hStretches, hTrimmed, rfl⟩
    rw [hCut] at hStretches
    rw [Text.forall₂_trims_iff] at hTrimmed
    subst hStretches hTrimmed
    rfl
  · rintro rfl
    exact ⟨_, _, (hCut _).mpr rfl,
      Text.forall₂_trims_iff.mpr rfl, rfl⟩

/- Joined arguments have the parts of all of them. -/
theorem parts_intercalate
    (args : List String) :
    parts (String.intercalate "," args) =
      args.flatMap parts := by
  cases args with
  | nil => rfl
  | cons arg args =>
      have hSome : (arg :: args).map String.toList ≠ [] :=
        List.cons_ne_nil _ _
      have hComma : ",".toList = [','] := rfl
      rw [parts, String.toList_intercalate, hComma,
        Text.cut_intercalate ',' hSome, List.flatMap_map,
        flatMap_parts]

------------------------------------------------------------
-- Values
------------------------------------------------------------

theorem readAll_cons_of_denotes
    {w : List Char}
    {n : Nat}
    (hValue : Numeral.Denotes Numeral.largest64 w n) :
    readAll (w :: ws) = (readAll ws).map (n :: ·) := by
  rw [readAll, Numeral.read?_eq_some_iff.mpr hValue]

/- A part that is no numeral ends the reading. -/
theorem readAll_cons_of_not
    {w : List Char}
    (hBad : ¬ IsPosition w) :
    readAll (w :: ws) =
      .error (.invalid (String.ofList w)) := by
  have hNone : Numeral.read? Numeral.largest64 w = none := by
    rw [Option.eq_none_iff_forall_ne_some]
    intro n hRead
    exact hBad ⟨n, Numeral.read?_eq_some_iff.mp hRead⟩
  rw [readAll, hNone]

/- A good part in front leaves the first bad one as it is. -/
theorem firstBad_cons_iff
    {w bad : List Char}
    (hGood : IsPosition w) :
    FirstBad (w :: ws) bad ↔ FirstBad ws bad := by
  constructor
  · rintro ⟨good, rest, hSplit, hAll, hBad⟩
    cases good with
    | nil =>
        cases hSplit
        exact absurd hGood hBad
    | cons v good =>
        cases hSplit
        exact ⟨good, rest, rfl,
          (List.forall_mem_cons.mp hAll).2, hBad⟩
  · rintro ⟨good, rest, rfl, hAll, hBad⟩
    exact ⟨w :: good, rest, rfl,
      List.forall_mem_cons.mpr ⟨hGood, hAll⟩, hBad⟩

/- It is one of the parts, and no numeral. -/
theorem FirstBad.mem
    {bad : List Char}
    (hFirst : FirstBad ws bad) :
    bad ∈ ws := by
  rcases hFirst with ⟨good, rest, rfl, -, -⟩
  exact List.mem_append_right good List.mem_cons_self

theorem FirstBad.not_isPosition
    {bad : List Char}
    (hFirst : FirstBad ws bad) :
    ¬ IsPosition bad := by
  rcases hFirst with ⟨good, rest, -, -, hBad⟩
  exact hBad

/- A part with a value is a numeral. -/
theorem isPosition_of_mem
    {is : List Nat}
    (hValues :
      List.Forall₂ (Numeral.Denotes Numeral.largest64)
        ws is)
    {w : List Char}
    (hMem : w ∈ ws) :
    IsPosition w := by
  induction hValues with
  | nil => exact absurd hMem List.not_mem_nil
  | cons hValue hRest ih =>
      rcases List.mem_cons.mp hMem with rfl | hLater
      · exact ⟨_, hValue⟩
      · exact ih hLater

/- Parts that are numerals give their values. -/
theorem readAll_of_values
    {is : List Nat}
    (hValues :
      List.Forall₂ (Numeral.Denotes Numeral.largest64)
        ws is) :
    readAll ws = .ok is := by
  induction hValues with
  | nil => rfl
  | cons hValue hRest ih =>
      rw [readAll_cons_of_denotes hValue, ih]
      rfl

/- The parts are read to the end or to the first bad one. -/
theorem readAll_cases
    (ws : List (List Char)) :
    (∃ is,
        List.Forall₂ (Numeral.Denotes Numeral.largest64)
          ws is ∧
        readAll ws = .ok is) ∨
      ∃ bad, FirstBad ws bad ∧
        readAll ws = .error (.invalid (String.ofList bad)) := by
  induction ws with
  | nil => exact Or.inl ⟨[], .nil, rfl⟩
  | cons w ws ih =>
      by_cases hGood : IsPosition w
      · have hSame (bad : List Char) :
            FirstBad (w :: ws) bad ↔ FirstBad ws bad :=
          firstBad_cons_iff hGood
        rcases hGood with ⟨n, hValue⟩
        rw [readAll_cons_of_denotes hValue]
        rcases ih with
          ⟨is, hValues, hRead⟩ | ⟨bad, hBad, hRead⟩
        · refine Or.inl ⟨n :: is, .cons hValue hValues, ?_⟩
          rw [hRead]
          rfl
        · refine Or.inr ⟨bad, (hSame bad).mpr hBad, ?_⟩
          rw [hRead]
          rfl
      · exact Or.inr ⟨w, ⟨[], ws, rfl, by simp, hGood⟩,
          readAll_cons_of_not hGood⟩

------------------------------------------------------------
-- Lists
------------------------------------------------------------

theorem parse_joined
    (args : List String) :
    parse [String.intercalate "," args] = parse args := by
  rw [parse, parse, List.flatMap_singleton,
    parts_intercalate]

theorem parseOne_joined
    (args : List String) :
    parseOne [String.intercalate "," args] =
      parseOne args := by
  rw [parseOne, parseOne, parse_joined]

/- Parts that are numerals are accepted, unless there are none. -/
theorem parse_of_values
    (hParts : HasParts args ws)
    (hSome : ws ≠ [])
    {is : List Nat}
    (hValues :
      List.Forall₂ (Numeral.Denotes Numeral.largest64)
        ws is) :
    parse args = .ok is := by
  rw [parse, hasParts_iff.mp hParts,
    readAll_of_values hValues]
  cases hValues with
  | nil => exact absurd rfl hSome
  | cons hValue hRest => rfl

/- The three ways in which reading arguments ends. -/
theorem parse_cases
    (hParts : HasParts args ws) :
    (ws = [] ∧ parse args = .error .missing) ∨
      (∃ is, ws ≠ [] ∧
        List.Forall₂ (Numeral.Denotes Numeral.largest64)
          ws is ∧
        parse args = .ok is) ∨
      ∃ bad, FirstBad ws bad ∧
        parse args =
          .error (.invalid (String.ofList bad)) := by
  rcases readAll_cases ws with
    ⟨is, hValues, hRead⟩ | ⟨bad, hBad, hRead⟩
  · by_cases hNone : ws = []
    · subst hNone
      refine Or.inl ⟨rfl, ?_⟩
      rw [parse, hasParts_iff.mp hParts]
      rfl
    · exact Or.inr (Or.inl ⟨is, hNone, hValues,
        parse_of_values hParts hNone hValues⟩)
  · refine Or.inr (Or.inr ⟨bad, hBad, ?_⟩)
    rw [parse, hasParts_iff.mp hParts, hRead]

/- Values are given for all parts, and there is one. -/
theorem parse_eq_ok_iff
    (hParts : HasParts args ws)
    {is : List Nat} :
    parse args = .ok is ↔
      ws ≠ [] ∧
        List.Forall₂ (Numeral.Denotes Numeral.largest64)
          ws is := by
  constructor
  · intro hParse
    rcases parse_cases hParts with
      ⟨-, hMissing⟩ | ⟨js, hSome, hValues, hAll⟩ |
        ⟨bad, -, hBroken⟩
    · rw [hMissing] at hParse
      cases hParse
    · rw [hAll] at hParse
      cases hParse
      exact ⟨hSome, hValues⟩
    · rw [hBroken] at hParse
      cases hParse
  · rintro ⟨hSome, hValues⟩
    exact parse_of_values hParts hSome hValues

/- Exactly the lists of numerals are accepted. -/
theorem exists_parse_eq_ok_iff
    (hParts : HasParts args ws) :
    (∃ is, parse args = .ok is) ↔
      ws ≠ [] ∧ ∀ w ∈ ws, IsPosition w := by
  constructor
  · rintro ⟨is, hParse⟩
    rcases (parse_eq_ok_iff hParts).mp hParse with
      ⟨hSome, hValues⟩
    exact ⟨hSome, fun w hMem => isPosition_of_mem hValues hMem⟩
  · rintro ⟨hSome, hAll⟩
    rcases parse_cases hParts with
      ⟨hNone, -⟩ | ⟨is, -, -, hParse⟩ | ⟨bad, hBad, -⟩
    · exact absurd hNone hSome
    · exact ⟨is, hParse⟩
    · exact absurd (hAll bad hBad.mem) hBad.not_isPosition

/- A refusal names the first bad part, or that there is none. -/
theorem message_of_parse_eq_error
    (hParts : HasParts args ws)
    {e : Fault}
    (hParse : parse args = .error e) :
    (ws = [] ∧ e.message = "missing indices") ∨
      ∃ bad, FirstBad ws bad ∧
        e.message =
          s!"invalid index '{String.ofList bad}'" := by
  rcases parse_cases hParts with
    ⟨hNone, hMissing⟩ | ⟨is, -, -, hAll⟩ |
      ⟨bad, hBad, hBroken⟩
  · rw [hMissing] at hParse
    cases hParse
    exact Or.inl ⟨hNone, rfl⟩
  · rw [hAll] at hParse
    cases hParse
  · rw [hBroken] at hParse
    cases hParse
    exact Or.inr ⟨bad, hBad, rfl⟩

end

end IndexList

------------------------------------------------------------
-- Commands
------------------------------------------------------------

namespace Run

variable {r : Run}
variable {args : List String}

/- Arguments are joined to one, so there must be some. -/
theorem selectListed_joined
    (hSome : args ≠ []) :
    r.selectListed [String.intercalate "," args] =
      r.selectListed args := by
  cases args with
  | nil => exact absurd rfl hSome
  | cons arg args =>
      unfold selectListed
      rw [IndexList.parse_joined]

/-
  A command with arguments does the same when they are
  joined with commas.
-/
theorem execute_joined
    (hSome : args ≠ [])
    (word : String) :
    r.execute word [String.intercalate "," args] =
      r.execute word args := by
  have hListed := selectListed_joined (r := r) hSome
  unfold execute
  cases Verb.ofWord? word with
  | none => rfl
  | some v =>
      cases v <;>
        simp only [executeVerb, executeSelect, executePlay,
          executeDiscard, Reaction.withIndex, hListed,
          IndexList.parse_joined, IndexList.parseOne_joined]

end Run

------------------------------------------------------------
-- Reading By Parts
------------------------------------------------------------

namespace IndexList

/-
  Positions are read by their parts, however these are
  spread over the arguments: all of them are given if there
  are some and all are numerals of 64 bits, and otherwise
  the first bad one is named, or that there are none.  So no
  command of a run sees how they are spread.
-/
theorem parse_goes_by_parts :
    (∀ args : List String,
      parse [String.intercalate "," args] = parse args) ∧
    (∀ (r : Run) (word : String) (args : List String),
      args ≠ [] →
        r.execute word [String.intercalate "," args] =
          r.execute word args) ∧
    (∀ args : List String, ∃! ws, HasParts args ws) ∧
    ∀ (args : List String) (ws : List (List Char)),
      HasParts args ws →
        ((∃ is, parse args = .ok is) ↔
          ws ≠ [] ∧ ∀ w ∈ ws, IsPosition w) ∧
        (∀ is, parse args = .ok is ↔
          ws ≠ [] ∧
            List.Forall₂ (Numeral.Denotes Numeral.largest64)
              ws is) ∧
        ∀ e, parse args = .error e →
          (ws = [] ∧ e.message = "missing indices") ∨
            ∃ bad, FirstBad ws bad ∧
              e.message =
                s!"invalid index '{String.ofList bad}'" := by
  refine ⟨parse_joined, ?_, ?_, ?_⟩
  · intro r word args hSome
    exact Run.execute_joined hSome word
  · intro args
    refine ⟨args.flatMap parts, hasParts_iff.mpr rfl, ?_⟩
    intro ws hParts
    exact (hasParts_iff.mp hParts).symm
  · intro args ws hParts
    refine ⟨exists_parse_eq_ok_iff hParts, ?_, ?_⟩
    · intro is
      exact parse_eq_ok_iff hParts
    · intro e hParse
      exact message_of_parse_eq_error hParts hParse

/- The parts of three positions, one of them with a sign. -/
def threeParts : List (List Char) :=
  [['0'], ['2'], ['+', '4']]

/- A position, and two parts that are none. -/
def badParts : List (List Char) :=
  [['1'], ['x'], ['-', '3']]

/-
  Three positions are read from two arguments or from one,
  also when they are to be played, and of two bad parts one
  is named.
-/
theorem parse_goes_by_parts_signed :
    HasParts ["0, 2,", "+4"] threeParts ∧
      (∃ is, parse ["0, 2,", "+4"] = .ok is ∧
        List.Forall₂ (Numeral.Denotes Numeral.largest64)
          threeParts is) ∧
      parse ["0, 2,,+4"] = parse ["0, 2,", "+4"] ∧
      (Run.begin Rules.standard RankChips.standard
          Catalog.empty 7).execute "play" ["0, 2,,+4"] =
        (Run.begin Rules.standard RankChips.standard
          Catalog.empty 7).execute "play" ["0, 2,", "+4"] ∧
      HasParts ["1,x", "-3"] badParts ∧
      ∃ e bad, parse ["1,x", "-3"] = .error e ∧
        FirstBad badParts bad ∧
        e.message =
          s!"invalid index '{String.ofList bad}'" := by
  rcases parse_goes_by_parts with
    ⟨hJoined, hCommands, -, hRead⟩
  have hThree : HasParts ["0, 2,", "+4"] threeParts :=
    hasParts_iff.mpr (by decide)
  have hBad : HasParts ["1,x", "-3"] badParts :=
    hasParts_iff.mpr (by decide)
  have hAll : ∀ w ∈ threeParts, IsPosition w := by
    have hSomeValue :
        ∀ w ∈ threeParts, ∃ n ∈ [0, 2, 4],
          Numeral.read? Numeral.largest64 w = some n := by
      decide
    intro w hMem
    rcases hSomeValue w hMem with ⟨n, -, hValue⟩
    exact ⟨n, Numeral.read?_eq_some_iff.mp hValue⟩
  have hRefused :
      parse ["1,x", "-3"] = .error (.invalid "x") := by
    decide
  rcases hRead _ _ hThree with ⟨hAccepted, hValues, -⟩
  rcases hAccepted.mpr ⟨List.cons_ne_nil _ _, hAll⟩ with
    ⟨is, hParse⟩
  rcases (hRead _ _ hBad).2.2 _ hRefused with
    ⟨hNone, -⟩ | ⟨bad, hFirst, hNamed⟩
  · exact absurd hNone (List.cons_ne_nil _ _)
  · exact ⟨hThree, ⟨is, hParse, ((hValues is).mp hParse).2⟩,
      hJoined ["0, 2,", "+4"],
      hCommands _ "play" ["0, 2,", "+4"]
        (List.cons_ne_nil _ _),
      hBad,
      _, bad, hRefused, hFirst, hNamed⟩

/- Commas and blanks alone list no position. -/
example :
    parse [" , ", ""] = .error .missing := by
  decide

end IndexList

end JokerRun
