import JokerRun.CommandLine.Options
import JokerRun.Proofs.Text.Numeral
import JokerRun.Proofs.Text.Stretches
import Mathlib.Data.List.Induction

/-
  The options of the command line go by items, not by places.

  Arguments are read as items in one way.  They are accepted
  by four conditions on the items, and then each option has
  its last value.  Neither sees where options and flags
  stand among the other items, as long as the values of each
  option stay in order.
  The value for the jokers lists what stands between its
  commas.

  Key definitions include:
    * `Item.Written` and `Item.Reads`
    * `Item.Accepted`
    * `Options.Lists`
    * `Item.Gives` and `Item.Adds`
    * `Item.Rearranged`

  Key theorems include:
    * `Item.reads_iff`
    * `Options.lists_iff`
    * `Item.applyAll_eq_ok_iff`
    * `Item.Rearranged.accepted`
    * `Item.Rearranged.gives`
    * `Options.parse_goes_by_items`
-/

------------------------------------------------------------
-- Lists Of Identifiers
------------------------------------------------------------

namespace JokerRun

/-
  The identifiers that a value lists: the stretches between
  its commas, trimmed, without empty ones.
-/
def Options.Lists
    (value : String)
    (ids : List String) : Prop :=
  ∃ stretches trimmed,
    Text.Stretches ',' value.toList stretches ∧
    List.Forall₂ Text.Trims stretches trimmed ∧
    (trimmed.filter fun w => !w.isEmpty).map String.ofList =
      ids

/- A value lists its identifiers in one way. -/
theorem Options.lists_iff
    {value : String}
    {ids : List String} :
    Lists value ids ↔ listed value = ids := by
  constructor
  · rintro ⟨stretches, trimmed, hStretches, hTrimmed, rfl⟩
    rw [Text.stretches_iff] at hStretches
    rw [Text.forall₂_trims_iff] at hTrimmed
    subst hStretches hTrimmed
    rfl
  · rintro rfl
    exact ⟨_, _, Text.stretches_iff.mpr rfl,
      Text.forall₂_trims_iff.mpr rfl, rfl⟩

------------------------------------------------------------
-- Reading Items
------------------------------------------------------------

/- The words of a command. -/
def Command.words : Command → List String
  | .score => ["score"]
  | .run => ["run"]
  | .help => ["help", "--help", "-h"]

namespace Item

/- The words with a meaning of their own. -/
def reserved : List String :=
  ["score", "run", "help", "--help", "-h", "--json",
    "--verbose", "-v", "--held", "--assets", "--jokers",
    "--seed"]

/- The arguments by which an item is written. -/
inductive Written : Item → List String → Prop where
  | command
      {c : Command}
      {w : String}
      (hWord : w ∈ c.words) :
      Written (.command c) [w]
  | json : Written .json ["--json"]
  | verbose
      {w : String}
      (hWord : w ∈ ["--verbose", "-v"]) :
      Written .verbose [w]
  | setting
      (s : Setting)
      (value : String) :
      Written (.setting s value) [s.word, value]
  | unknown
      {w : String}
      (hOther : w ∉ reserved)
      (hDash : w.toList.head? = some '-') :
      Written (.unknown w) [w]
  | plain
      {w : String}
      (hOther : w ∉ reserved)
      (hDash : w.toList.head? ≠ some '-') :
      Written (.plain w) [w]

/-
  Arguments that are read as items, from left to right.  Only
  at the end can an option lack its value.
-/
inductive Reads : List String → List Item → Prop where
  | nil : Reads [] []
  | unset
      (s : Setting) :
      Reads [s.word] [.unset s]
  | cons
      {i : Item}
      {ws args : List String}
      {is : List Item}
      (hItem : Written i ws)
      (hRest : Reads args is) :
      Reads (ws ++ args) (i :: is)

theorem setting?_word
    (s : Setting) :
    setting? s.word = some s := by
  cases s <;> rfl

theorem setting?_eq_some_iff
    {w : String}
    {s : Setting} :
    setting? w = some s ↔ w = s.word := by
  constructor
  · intro hSetting
    unfold setting? at hSetting
    split at hSetting <;> cases hSetting <;> rfl
  · rintro rfl
    exact setting?_word s

theorem ne_word_of_alone
    {w : String}
    (hAlone : setting? w = none)
    (s : Setting) :
    w ≠ s.word := by
  rintro rfl
  rw [setting?_word] at hAlone
  cases hAlone

/- A word without a meaning of its own is no option. -/
theorem setting?_eq_none
    {w : String}
    (hOther : w ∉ reserved) :
    setting? w = none := by
  cases hSetting : setting? w with
  | none => rfl
  | some s =>
      rw [setting?_eq_some_iff.mp hSetting] at hOther
      exact absurd (by cases s <;> decide) hOther

theorem ofWord_of_not_reserved
    {w : String}
    (hOther : w ∉ reserved) :
    ofWord w =
      if w.toList.head? = some '-' then .unknown w
      else .plain w := by
  unfold ofWord
  split
  case h_9 => rfl
  all_goals exact absurd (by decide) hOther

/- A word that takes no value is an item by itself. -/
theorem written_ofWord
    {w : String}
    (hAlone : setting? w = none) :
    Written (ofWord w) [w] := by
  unfold ofWord
  split
  case h_1 => exact .command List.mem_cons_self
  case h_2 => exact .command List.mem_cons_self
  case h_3 => exact .command List.mem_cons_self
  case h_4 => exact .command (by decide)
  case h_5 => exact .command (by decide)
  case h_6 => exact .json
  case h_7 => exact .verbose (by decide)
  case h_8 => exact .verbose (by decide)
  case h_9 =>
    have hOther : w ∉ reserved := by
      have hHeld := ne_word_of_alone hAlone .held
      have hAssets := ne_word_of_alone hAlone .assets
      have hJokers := ne_word_of_alone hAlone .jokers
      have hSeed := ne_word_of_alone hAlone .seed
      simp only [reserved, List.mem_cons, List.not_mem_nil,
        or_false, not_or]
      refine ⟨?_, ?_, ?_, ?_, ?_, ?_, ?_, ?_, hHeld, hAssets,
        hJokers, hSeed⟩ <;> assumption
    split
    · exact .unknown hOther ‹_›
    · exact .plain hOther ‹_›

theorem ofArguments_word
    {w : String}
    (hAlone : setting? w = none)
    (args : List String) :
    ofArguments (w :: args) =
      ofWord w :: ofArguments args := by
  cases args with
  | nil => simp only [ofArguments, hAlone]
  | cons v args => simp only [ofArguments, hAlone]

theorem ofArguments_setting
    (s : Setting)
    (value : String)
    (args : List String) :
    ofArguments (s.word :: value :: args) =
      .setting s value :: ofArguments args := by
  simp only [ofArguments, setting?_word]

theorem ofArguments_unset
    (s : Setting) :
    ofArguments [s.word] = [.unset s] := by
  simp only [ofArguments, setting?_word]

/- What is written for an item is taken to be it. -/
theorem Written.ofArguments_append
    {i : Item}
    {ws : List String}
    (hItem : Written i ws)
    (args : List String) :
    ofArguments (ws ++ args) = i :: ofArguments args := by
  cases hItem with
  | @command c w hWord =>
      have hWords :
          ∀ w ∈ c.words,
            setting? w = none ∧ ofWord w = .command c := by
        cases c <;> decide
      rcases hWords w hWord with ⟨hAlone, hMeans⟩
      rw [← hMeans]
      exact ofArguments_word hAlone args
  | json => exact ofArguments_word rfl args
  | @verbose w hWord =>
      have hWords :
          ∀ w ∈ ["--verbose", "-v"],
            setting? w = none ∧ ofWord w = .verbose := by
        decide
      rcases hWords w hWord with ⟨hAlone, hMeans⟩
      rw [← hMeans]
      exact ofArguments_word hAlone args
  | setting s value => exact ofArguments_setting s value args
  | @unknown w hOther hDash =>
      have hMeans := ofWord_of_not_reserved hOther
      rw [if_pos hDash] at hMeans
      rw [← hMeans]
      exact ofArguments_word (setting?_eq_none hOther) args
  | @plain w hOther hDash =>
      have hMeans := ofWord_of_not_reserved hOther
      rw [if_neg hDash] at hMeans
      rw [← hMeans]
      exact ofArguments_word (setting?_eq_none hOther) args

/- Arguments are read as items in one way only. -/
theorem reads_iff
    {args : List String}
    {is : List Item} :
    Reads args is ↔ ofArguments args = is := by
  constructor
  · intro hReads
    induction hReads with
    | nil => rfl
    | unset s => exact ofArguments_unset s
    | cons hItem hRest ih =>
        rw [hItem.ofArguments_append, ih]
  · rintro rfl
    fun_induction ofArguments args with
    | case1 => exact .nil
    | case2 w s hSetting =>
        rw [setting?_eq_some_iff.mp hSetting]
        exact .unset s
    | case3 w hAlone =>
        exact .cons (written_ofWord hAlone) .nil
    | case4 w v args s hSetting ih =>
        rw [setting?_eq_some_iff.mp hSetting]
        exact .cons (.setting s v) ih
    | case5 w v args hAlone ih =>
        exact .cons (written_ofWord hAlone) ih

------------------------------------------------------------
-- Accepted Items
------------------------------------------------------------

/- The command of an item. -/
@[simp]
def command? : Item → Option Command
  | .command c => some c
  | _ => none

/- The word of an item that is no option and no command. -/
@[simp]
def plain? : Item → Option String
  | .plain w => some w
  | _ => none

/- The value that an item gives to an option. -/
@[simp]
def value?
    (s : Setting) : Item → Option String
  | .setting s' value => if s' = s then some value else none
  | _ => none

/- The part of the last item that has one. -/
def last?
    {α : Type}
    (part? : Item → Option α)
    (is : List Item) : Option α :=
  (is.filterMap part?).getLast?

/-
  Items that make options: every option has its value and
  every seed is a number of 64 bits, no unknown option is
  there, and a plain word only as the first one after the
  command to score.
-/
structure Accepted
    (is : List Item) : Prop where
  valued : ∀ s, .unset s ∉ is
  seeded :
    ∀ v, .setting .seed v ∈ is →
      ∃ n, Numeral.Denotes Numeral.largest64 v.toList n
  known : ∀ w, .unknown w ∉ is
  placed :
    ∀ before w after, is = before ++ .plain w :: after →
      last? command? before = some .score ∧
        ∀ v, .plain v ∉ before

/- The seed of a value, or the usual one without a value. -/
def IsSeed : Option String → Nat → Prop
  | none, n => n = 0xc0ffee
  | some v, n =>
      Numeral.Denotes Numeral.largest64 v.toList n

/- The jokers that a value lists; without a value, none. -/
def AreJokers : Option String → List String → Prop
  | none, ids => ids = []
  | some value, ids => Options.Lists value ids

/-
  The options that items make: the last command, the plain
  word, the last value of each option, and the flags.
-/
structure Gives
    (is : List Item)
    (o : Options) : Prop where
  command : o.command = (last? command? is).getD .help
  cards : o.cards = last? plain? is
  held : o.held = last? (value? .held) is
  jokers : AreJokers (last? (value? .jokers) is) o.jokers
  assets :
    o.assets = (last? (value? .assets) is).getD "assets"
  seed : IsSeed (last? (value? .seed) is) o.seed
  json : o.json = true ↔ .json ∈ is
  verbose : o.verbose = true ↔ .verbose ∈ is

/- Whether an item is accepted after items. -/
def Fits
    (is : List Item) : Item → Prop
  | .unset _ => False
  | .unknown _ => False
  | .setting .seed v =>
      ∃ n, Numeral.Denotes Numeral.largest64 v.toList n
  | .plain _ =>
      last? command? is = some .score ∧ ∀ v, .plain v ∉ is
  | _ => True

section

variable {is : List Item}
variable {i : Item}

theorem last?_append_singleton
    {α : Type}
    (part? : Item → Option α)
    (is : List Item)
    (i : Item) :
    last? part? (is ++ [i]) = (part? i).or (last? part? is) := by
  rw [last?, List.filterMap_append, List.getLast?_append]
  cases hPart : part? i with
  | none => simp [hPart, last?]
  | some a => simp [hPart]

/- The last of accepted items fits those before it. -/
theorem Accepted.fits
    (hAccepted : Accepted (is ++ [i])) :
    Fits is i := by
  have hLast : i ∈ is ++ [i] := by simp
  cases i with
  | setting s v =>
      cases s with
      | seed => exact hAccepted.seeded v hLast
      | _ => trivial
  | unset s => exact absurd hLast (hAccepted.valued s)
  | unknown w => exact absurd hLast (hAccepted.known w)
  | plain w => exact hAccepted.placed is w [] rfl
  | _ => trivial

theorem last?_eq_none_iff
    {α : Type}
    {part? : Item → Option α} :
    last? part? is = none ↔ ∀ i ∈ is, part? i = none := by
  rw [last?, List.getLast?_eq_none_iff,
    List.filterMap_eq_nil_iff]

theorem last?_plain?_eq_none_iff :
    last? plain? is = none ↔ ∀ v, .plain v ∉ is := by
  rw [last?_eq_none_iff]
  constructor
  · intro hNone v hMem
    cases hNone _ hMem
  · intro hNone i hMem
    cases i with
    | plain v => exact absurd hMem (hNone v)
    | _ => rfl

/- One more item is accepted where it fits. -/
theorem accepted_append_singleton_iff :
    Accepted (is ++ [i]) ↔ Accepted is ∧ Fits is i := by
  constructor
  · intro hAccepted
    refine ⟨⟨?_, ?_, ?_, ?_⟩, ?_⟩
    · intro s hMem
      exact hAccepted.valued s
        (List.mem_append_left [i] hMem)
    · intro v hMem
      exact hAccepted.seeded v
        (List.mem_append_left [i] hMem)
    · intro w hMem
      exact hAccepted.known w (List.mem_append_left [i] hMem)
    · rintro before w after rfl
      exact hAccepted.placed before w (after ++ [i])
        (by simp)
    · exact hAccepted.fits
  · rintro ⟨hAccepted, hFits⟩
    refine ⟨?_, ?_, ?_, ?_⟩
    · intro s hMem
      rcases List.mem_append.mp hMem with hMem | hLast
      · exact hAccepted.valued s hMem
      · rw [← List.mem_singleton.mp hLast] at hFits
        exact hFits
    · intro v hMem
      rcases List.mem_append.mp hMem with hMem | hLast
      · exact hAccepted.seeded v hMem
      · rw [← List.mem_singleton.mp hLast] at hFits
        exact hFits
    · intro w hMem
      rcases List.mem_append.mp hMem with hMem | hLast
      · exact hAccepted.known w hMem
      · rw [← List.mem_singleton.mp hLast] at hFits
        exact hFits
    · intro before w after hSplit
      rcases after.eq_nil_or_concat with rfl | ⟨after, j, rfl⟩
      · rcases List.append_inj' hSplit rfl with
          ⟨rfl, hLast⟩
        cases hLast
        exact hFits
      · have hSplit' :
            is ++ [i] =
              (before ++ .plain w :: after) ++ [j] := by
          simpa using hSplit
        exact hAccepted.placed before w after
          (List.append_inj' hSplit' rfl).1

/-
  What one item changes: the part that it has is the new one,
  and all others are as before.
-/
structure Adds
    (i : Item)
    (o o' : Options) : Prop where
  command : o'.command = (command? i).getD o.command
  cards : o'.cards = (plain? i).or o.cards
  held : o'.held = (value? .held i).or o.held
  jokers :
    ∀ value, AreJokers value o.jokers →
      AreJokers ((value? .jokers i).or value) o'.jokers
  assets : o'.assets = (value? .assets i).getD o.assets
  seed :
    ∀ value, IsSeed value o.seed →
      IsSeed ((value? .seed i).or value) o'.seed
  json : o'.json = true ↔ o.json = true ∨ .json = i
  verbose : o'.verbose = true ↔ o.verbose = true ∨ .verbose = i

theorem adds_of_apply
    {o o' : Options}
    (hApply : o.apply i = .ok o') :
    Adds i o o' := by
  cases i with
  | unset s => cases hApply
  | unknown w => cases hApply
  | plain w =>
      rw [Options.apply] at hApply
      split at hApply
      · cases hApply
        constructor <;> simp
      · cases hApply
  | setting s value =>
      cases s with
      | seed =>
          rw [Options.apply, Options.set] at hApply
          split at hApply
          · cases hApply
          · rename_i n hRead
            have hSeed := Numeral.read_eq_ok_iff.mp hRead
            cases hApply
            constructor <;> simp [IsSeed, hSeed]
      | jokers =>
          have hListed : Options.Lists value _ :=
            Options.lists_iff.mpr rfl
          cases hApply
          constructor <;> simp [AreJokers, hListed]
      | _ =>
          cases hApply
          constructor <;> simp
  | _ =>
      cases hApply
      constructor <;> simp

/- What the items so far give, and what one more adds. -/
theorem Gives.append_singleton
    {o o' : Options}
    (hGives : Gives is o)
    (hAdds : Adds i o o') :
    Gives (is ++ [i]) o' where
  command := by
    rw [last?_append_singleton, hAdds.command, hGives.command,
      Option.getD_or]
  cards := by
    rw [last?_append_singleton, hAdds.cards, hGives.cards]
  held := by
    rw [last?_append_singleton, hAdds.held, hGives.held]
  jokers := by
    rw [last?_append_singleton]
    exact hAdds.jokers _ hGives.jokers
  assets := by
    rw [last?_append_singleton, hAdds.assets, hGives.assets,
      Option.getD_or]
  seed := by
    rw [last?_append_singleton]
    exact hAdds.seed _ hGives.seed
  json := by
    rw [hAdds.json, hGives.json, List.mem_append,
      List.mem_singleton]
  verbose := by
    rw [hAdds.verbose, hGives.verbose, List.mem_append,
      List.mem_singleton]

/- An item that fits is applied. -/
theorem exists_apply_of_fits
    {o : Options}
    (hGives : Gives is o)
    (hFits : Fits is i) :
    ∃ o', o.apply i = .ok o' := by
  cases i with
  | setting s value =>
      cases s with
      | seed =>
          rcases hFits with ⟨n, hDenotes⟩
          refine ⟨{ o with seed := n }, ?_⟩
          rw [Options.apply, Options.set,
            Numeral.read_eq_ok_iff.mpr hDenotes]
      | _ => exact ⟨_, rfl⟩
  | unset s => exact hFits.elim
  | unknown w => exact hFits.elim
  | plain w =>
      rcases hFits with ⟨hScore, hFirst⟩
      have hCommand : o.command = .score := by
        rw [hGives.command, hScore, Option.getD_some]
      have hCards : o.cards = none := by
        rw [hGives.cards]
        exact last?_plain?_eq_none_iff.mpr hFirst
      exact ⟨_, if_pos ⟨hCommand, hCards⟩⟩
  | _ => exact ⟨_, rfl⟩

/- An item that is applied fits. -/
theorem fits_of_apply
    {o o' : Options}
    (hGives : Gives is o)
    (hApply : o.apply i = .ok o') :
    Fits is i := by
  cases i with
  | setting s value =>
      cases s with
      | seed =>
          cases hRead :
              Numeral.read Numeral.largest64 value.toList with
          | error fault =>
              rw [Options.apply, Options.set, hRead] at hApply
              cases hApply
          | ok n => exact ⟨n, Numeral.read_eq_ok_iff.mp hRead⟩
      | _ => trivial
  | unset s => cases hApply
  | unknown w => cases hApply
  | plain w =>
      rw [Options.apply] at hApply
      split at hApply
      · rename_i hFree
        rw [hGives.command, hGives.cards] at hFree
        refine ⟨?_, last?_plain?_eq_none_iff.mp hFree.2⟩
        cases hLast : last? command? is with
        | none =>
            rw [hLast] at hFree
            cases hFree.1
        | some c =>
            rw [hLast] at hFree
            rw [← hFree.1, Option.getD_some]
      · cases hApply
  | _ => trivial

theorem applyAll_append_singleton
    (o : Options)
    (is : List Item)
    (i : Item) :
    Options.applyAll o (is ++ [i]) =
      (Options.applyAll o is).bind fun o' => o'.apply i := by
  induction is generalizing o with
  | nil =>
      simp only [List.nil_append, Options.applyAll,
        Except.bind]
      cases o.apply i <;> rfl
  | cons j is ih =>
      rw [List.cons_append, Options.applyAll, Options.applyAll]
      cases o.apply j with
      | error e => rfl
      | ok o' => exact ih o'

/- Accepted items make options. -/
theorem exists_applyAll_of_accepted
    (hAccepted : Accepted is) :
    ∃ o, Options.applyAll Options.standard is = .ok o ∧
      Gives is o := by
  induction is using List.reverseRecOn with
  | nil =>
      refine ⟨_, rfl, ?_⟩
      constructor <;>
        simp [last?, Options.standard, IsSeed, AreJokers]
  | append_singleton is i ih =>
      rcases accepted_append_singleton_iff.mp hAccepted with
        ⟨hBefore, hFits⟩
      rcases ih hBefore with ⟨o, hApplied, hGives⟩
      rcases exists_apply_of_fits hGives hFits with
        ⟨o', hApply⟩
      refine ⟨o', ?_,
        hGives.append_singleton (adds_of_apply hApply)⟩
      rw [applyAll_append_singleton, hApplied]
      exact hApply

/- Only accepted items do. -/
theorem accepted_of_applyAll
    {o : Options}
    (hApplied :
      Options.applyAll Options.standard is = .ok o) :
    Accepted is := by
  induction is using List.reverseRecOn generalizing o with
  | nil =>
      refine ⟨fun s => List.not_mem_nil, ?_,
        fun w => List.not_mem_nil, ?_⟩
      · intro v hMem
        exact absurd hMem List.not_mem_nil
      · intro before w after hSplit
        exact absurd hSplit.symm
          (List.append_ne_nil_of_right_ne_nil _
            (List.cons_ne_nil _ _))
  | append_singleton is i ih =>
      rw [applyAll_append_singleton] at hApplied
      cases hBefore :
          Options.applyAll Options.standard is with
      | error e =>
          rw [hBefore] at hApplied
          cases hApplied
      | ok o' =>
          rw [hBefore] at hApplied
          have hAccepted := ih hBefore
          rcases exists_applyAll_of_accepted hAccepted with
            ⟨o'', hSame, hGives⟩
          rw [hBefore] at hSame
          cases hSame
          exact accepted_append_singleton_iff.mpr
            ⟨hAccepted, fits_of_apply hGives hApplied⟩

theorem IsSeed.unique
    {value : Option String}
    {m n : Nat}
    (hFirst : IsSeed value m)
    (hSecond : IsSeed value n) :
    m = n := by
  cases value with
  | none => exact hFirst.trans hSecond.symm
  | some v =>
      have hRead := Numeral.read_eq_ok_iff.mpr hFirst
      rw [Numeral.read_eq_ok_iff.mpr hSecond] at hRead
      cases hRead
      rfl

theorem AreJokers.unique
    {value : Option String}
    {ids ids' : List String}
    (hFirst : AreJokers value ids)
    (hSecond : AreJokers value ids') :
    ids = ids' := by
  cases value with
  | none => exact hFirst.trans hSecond.symm
  | some v =>
      have hListed := Options.lists_iff.mp hFirst
      rw [Options.lists_iff.mp hSecond] at hListed
      exact hListed.symm

/- Items make no more than one set of options. -/
theorem Gives.unique
    {o o' : Options}
    (hFirst : Gives is o)
    (hSecond : Gives is o') :
    o = o' := by
  have hSeed := hFirst.seed.unique hSecond.seed
  have hJson : o.json = o'.json :=
    Bool.eq_iff_iff.mpr (hFirst.json.trans hSecond.json.symm)
  have hVerbose : o.verbose = o'.verbose :=
    Bool.eq_iff_iff.mpr
      (hFirst.verbose.trans hSecond.verbose.symm)
  cases o
  cases o'
  rw [Options.mk.injEq]
  exact ⟨hFirst.command.trans hSecond.command.symm,
    hFirst.cards.trans hSecond.cards.symm,
    hFirst.held.trans hSecond.held.symm,
    hFirst.jokers.unique hSecond.jokers,
    hFirst.assets.trans hSecond.assets.symm,
    hSeed, hJson, hVerbose⟩

/- The options of items are those they give. -/
theorem applyAll_eq_ok_iff
    {o : Options} :
    Options.applyAll Options.standard is = .ok o ↔
      Accepted is ∧ Gives is o := by
  constructor
  · intro hApplied
    have hAccepted := accepted_of_applyAll hApplied
    refine ⟨hAccepted, ?_⟩
    rcases exists_applyAll_of_accepted hAccepted with
      ⟨o', hSame, hGives⟩
    rw [hApplied] at hSame
    cases hSame
    exact hGives
  · rintro ⟨hAccepted, hGives⟩
    rcases exists_applyAll_of_accepted hAccepted with
      ⟨o', hApplied, hGives'⟩
    rw [hGives.unique hGives']
    exact hApplied

end

------------------------------------------------------------
-- Rearranged Items
------------------------------------------------------------

/- Whether an item is a flag or an option with its value. -/
def isOption : Item → Bool
  | .json => true
  | .verbose => true
  | .setting _ _ => true
  | _ => false

/-
  The same items with flags and options elsewhere.  All other
  items are in the same order, and so are the values of each
  option.
-/
structure Rearranged
    (is js : List Item) : Prop where
  perm : is.Perm js
  others :
    is.filter (fun i => !i.isOption) =
      js.filter (fun i => !i.isOption)
  values :
    ∀ s, is.filterMap (value? s) = js.filterMap (value? s)

/- A part that no option has is found without options. -/
theorem last?_filter
    {α : Type}
    {part? : Item → Option α}
    (hPart : ∀ i, i.isOption = true → part? i = none)
    (is : List Item) :
    last? part? (is.filter fun i => !i.isOption) =
      last? part? is := by
  have hSame :
      (fun i : Item =>
          if (!i.isOption) = true then part? i else none) =
        part? := by
    funext i
    cases hOption : i.isOption with
    | false => rfl
    | true => exact (hPart i hOption).symm
  rw [last?, List.filterMap_filter, hSame, last?]

theorem command?_of_isOption
    (i : Item)
    (hOption : i.isOption = true) :
    command? i = none := by
  cases i <;> first | rfl | cases hOption

theorem plain?_of_isOption
    (i : Item)
    (hOption : i.isOption = true) :
    plain? i = none := by
  cases i <;> first | rfl | cases hOption

namespace Rearranged

variable {is js : List Item}

protected theorem symm
    (hMoved : Rearranged is js) :
    Rearranged js is where
  perm := hMoved.perm.symm
  others := hMoved.others.symm
  values := fun s => (hMoved.values s).symm

theorem last?_eq
    {α : Type}
    {part? : Item → Option α}
    (hPart : ∀ i, i.isOption = true → part? i = none)
    (hMoved : Rearranged is js) :
    last? part? is = last? part? js := by
  rw [← last?_filter hPart, hMoved.others, last?_filter hPart]

/-
  Before a plain word stand the same items that are no
  options, so it is placed as well as it was.
-/
theorem accepted
    (hMoved : Rearranged is js)
    (hAccepted : Accepted is) :
    Accepted js where
  valued := fun s hMem =>
    hAccepted.valued s (hMoved.perm.mem_iff.mpr hMem)
  seeded := fun v hMem =>
    hAccepted.seeded v (hMoved.perm.mem_iff.mpr hMem)
  known := fun w hMem =>
    hAccepted.known w (hMoved.perm.mem_iff.mpr hMem)
  placed := by
    rintro before w after rfl
    have hOthers := hMoved.others
    rw [List.filter_append] at hOthers
    rcases List.filter_eq_append_iff.mp hOthers with
      ⟨left, right, hSplit, hLeft, hRight⟩
    rcases List.filter_eq_cons_iff.mp hRight with
      ⟨gap, rest, rfl, hGap, -, -⟩
    have hSame :
        (left ++ gap).filter (fun i => !i.isOption) =
          before.filter fun i => !i.isOption := by
      rw [List.filter_append, List.filter_eq_nil_iff.mpr hGap,
        List.append_nil, hLeft]
    have hPlaced :=
      hAccepted.placed (left ++ gap) w rest
        (by rw [hSplit, List.append_assoc])
    rw [← last?_plain?_eq_none_iff] at hPlaced ⊢
    rw [← last?_filter command?_of_isOption,
      ← last?_filter plain?_of_isOption, ← hSame,
      last?_filter command?_of_isOption,
      last?_filter plain?_of_isOption]
    exact hPlaced

theorem gives
    {o : Options}
    (hMoved : Rearranged is js)
    (hGives : Gives is o) :
    Gives js o := by
  have hValue :
      ∀ s, last? (value? s) js = last? (value? s) is := by
    intro s
    rw [last?, ← hMoved.values s, last?]
  constructor
  · rw [hGives.command, hMoved.last?_eq command?_of_isOption]
  · rw [hGives.cards, hMoved.last?_eq plain?_of_isOption]
  · rw [hGives.held, hValue]
  · rw [hValue]
    exact hGives.jokers
  · rw [hGives.assets, hValue]
  · rw [hValue]
    exact hGives.seed
  · rw [hGives.json, hMoved.perm.mem_iff]
  · rw [hGives.verbose, hMoved.perm.mem_iff]

end Rearranged

end Item

------------------------------------------------------------
-- Parsing by Items
------------------------------------------------------------

namespace Options

/-
  Arguments are read as items in exactly one way.  They are
  parsed if and only if the items are accepted, and the
  options are the ones that the items give.  With flags and
  options moved among the items, the options are the same.
-/
theorem parse_goes_by_items :
    (∀ args, ∃! is, Item.Reads args is) ∧
      (∀ args is, Item.Reads args is →
        ((∃ o, parse args = .ok o) ↔ Item.Accepted is) ∧
          ∀ o, parse args = .ok o → Item.Gives is o) ∧
      ∀ args is args' js,
        Item.Reads args is →
        Item.Reads args' js →
        Item.Rearranged is js →
        ∀ o, parse args = .ok o ↔ parse args' = .ok o := by
  have hParse :
      ∀ args is, Item.Reads args is →
        ∀ o, parse args = .ok o ↔
          Item.Accepted is ∧ Item.Gives is o := by
    intro args is hReads o
    rw [parse, Item.reads_iff.mp hReads]
    exact Item.applyAll_eq_ok_iff
  refine ⟨?_, ?_, ?_⟩
  · intro args
    refine ⟨_, Item.reads_iff.mpr rfl, ?_⟩
    intro is hReads
    exact (Item.reads_iff.mp hReads).symm
  · intro args is hReads
    refine ⟨⟨?_, ?_⟩, ?_⟩
    · rintro ⟨o, hMade⟩
      exact ((hParse args is hReads o).mp hMade).1
    · intro hAccepted
      rcases Item.exists_applyAll_of_accepted hAccepted with
        ⟨o, -, hGives⟩
      exact ⟨o, (hParse args is hReads o).mpr
        ⟨hAccepted, hGives⟩⟩
    · intro o hMade
      exact ((hParse args is hReads o).mp hMade).2
  · intro args is args' js hReads hReads' hMoved o
    rw [hParse args is hReads, hParse args' js hReads']
    constructor
    · rintro ⟨hAccepted, hGives⟩
      exact ⟨hMoved.accepted hAccepted, hMoved.gives hGives⟩
    · rintro ⟨hAccepted, hGives⟩
      exact ⟨hMoved.symm.accepted hAccepted,
        hMoved.symm.gives hGives⟩

/-
  Of two seeds the last one counts, and a list of jokers
  gives two of them, also after a move.
-/
theorem parse_goes_by_items_seeds :
    Item.Rearranged
        [.command .score, .setting .seed "7",
          .setting .jokers " even,, j ",
          .setting .seed "+9", .plain "10D", .verbose]
        [.verbose, .setting .seed "7", .command .score,
          .plain "10D", .setting .seed "+9",
          .setting .jokers " even,, j "] ∧
      ∃ o,
        parse ["score", "--seed", "7", "--jokers",
            " even,, j ", "--seed", "+9", "10D", "-v"] =
          .ok o ∧
          parse ["-v", "--seed", "7", "score", "10D",
            "--seed", "+9", "--jokers", " even,, j "] =
          .ok o ∧
          Item.IsSeed (some "+9") o.seed ∧
          Lists " even,, j " o.jokers ∧
          o.jokers = ["even", "j"] := by
  have hReads :
      Item.Reads
        ["score", "--seed", "7", "--jokers", " even,, j ",
          "--seed", "+9", "10D", "-v"]
        [.command .score, .setting .seed "7",
          .setting .jokers " even,, j ",
          .setting .seed "+9", .plain "10D", .verbose] :=
    Item.reads_iff.mpr rfl
  have hReads' :
      Item.Reads
        ["-v", "--seed", "7", "score", "10D", "--seed", "+9",
          "--jokers", " even,, j "]
        [.verbose, .setting .seed "7", .command .score,
          .plain "10D", .setting .seed "+9",
          .setting .jokers " even,, j "] :=
    Item.reads_iff.mpr rfl
  have hMoved :
      Item.Rearranged
        [.command .score, .setting .seed "7",
          .setting .jokers " even,, j ",
          .setting .seed "+9", .plain "10D", .verbose]
        [.verbose, .setting .seed "7", .command .score,
          .plain "10D", .setting .seed "+9",
          .setting .jokers " even,, j "] :=
    ⟨by decide, rfl, fun s => by cases s <;> rfl⟩
  rcases parse_goes_by_items with ⟨-, hItems, hPlaces⟩
  refine ⟨hMoved, ?_⟩
  cases hMade :
      parse ["score", "--seed", "7", "--jokers",
        " even,, j ", "--seed", "+9", "10D", "-v"] with
  | error e => cases hMade
  | ok o =>
      have hGives := (hItems _ _ hReads).2 o hMade
      have hListed : Lists " even,, j " ["even", "j"] :=
        lists_iff.mpr (by decide)
      have hJokers :
          Item.AreJokers (some " even,, j ") o.jokers :=
        hGives.jokers
      refine ⟨o, rfl, ?_, hGives.seed, hJokers,
        hJokers.unique hListed⟩
      exact (hPlaces _ _ _ _ hReads hReads' hMoved o).mp hMade

end Options

end JokerRun
