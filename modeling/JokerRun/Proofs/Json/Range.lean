import JokerRun.Json.Reader
import JokerRun.Proofs.Dictionary
import JokerRun.Proofs.Json.MemberOrder
import JokerRun.Proofs.Json.RoundTrip

/-
  Whole numbers that are read stay within their range.

  A whole number is only kept as such if it fits into 64
  bits, with or without a sign; beyond that it is a
  floating-point number.  Reading a text keeps to this for
  every value inside the one that is read, and so does
  making a value free.

  Key definitions include:
    * `Json.Bounded`
    * `Json.Reader.ReadsBounded`

  Key theorems include:
    * `Json.Reader.readsBounded`
    * `Json.parse_bounded`
    * `Json.Bounded.free?`
    * `Json.Bounded.fields?`
-/

------------------------------------------------------------
-- Bounded Values
------------------------------------------------------------

namespace JokerRun

namespace Json

/- A value whose whole numbers are all in range. -/
inductive Bounded : Json → Prop where
  | null : Bounded .null
  | bool (b : Bool) : Bounded (.bool b)
  | whole
      {n : Int}
      (hLow : lowestWhole ≤ n)
      (hHigh : n ≤ highestWhole) :
      Bounded (.whole n)
  | real (x : Binary64) : Bounded (.real x)
  | string (s : String) : Bounded (.string s)
  | array
      {vs : List Json}
      (hItems : ∀ v ∈ vs, Bounded v) :
      Bounded (.array vs)
  | object
      {ms : List (String × Json)}
      (hMembers : ∀ m ∈ ms, Bounded m.2) :
      Bounded (.object ms)
  | unreadable : Bounded .unreadable

namespace Reader

------------------------------------------------------------
-- Numbers
------------------------------------------------------------

/- Digits are only gathered as long as they fit. -/
theorem gather_le
    {n : Nat}
    (ds : List Nat)
    (hFits : n ≤ Numeral.largest64) :
    (gather n ds).1 ≤ Numeral.largest64 := by
  induction ds generalizing n with
  | nil => exact hFits
  | cons d ds ih =>
      rw [gather]
      split
      · exact hFits
      · exact ih (Nat.not_lt.mp ‹_›)

theorem wholeValue_bounded
    (negative : Bool)
    {n : Nat}
    (hFits : n ≤ Numeral.largest64) :
    (wholeValue negative n).Bounded := by
  unfold Numeral.largest64 at hFits
  unfold wholeValue wholeValue.highestMagnitude
  split
  · split
    · exact .real _
    · apply Bounded.whole
      · unfold lowestWhole
        omega
      · unfold highestWhole
        omega
  · apply Bounded.whole
    · unfold lowestWhole
      omega
    · unfold highestWhole
      omega

theorem realValue_bounded
    (negative : Bool)
    (significand : Nat)
    (exponent : Int) :
    (realValue negative significand exponent).Bounded := by
  unfold realValue
  split
  · exact .unreadable
  · exact .real _

theorem lexeme_bounded
    (x : Lexeme) :
    x.value.Bounded := by
  unfold Lexeme.value
  dsimp only
  split
  · exact wholeValue_bounded _ (gather_le _ (Nat.zero_le _))
  · exact realValue_bounded _ _ _

theorem unsigned_bounded
    {negative : Bool}
    {cs rest : List Char}
    {v : Json}
    (hRead : unsigned negative cs = some (v, rest)) :
    v.Bounded := by
  unfold unsigned at hRead
  simp only [Option.bind_eq_bind, Option.bind_eq_some_iff,
    Option.pure_def, Option.some.injEq,
    Prod.mk.injEq] at hRead
  rcases hRead with ⟨_, -, _, -, _, -, rfl, -⟩
  exact lexeme_bounded _

theorem number_bounded
    {cs rest : List Char}
    {v : Json}
    (hRead : number cs = some (v, rest)) :
    v.Bounded := by
  unfold number at hRead
  split at hRead
  · exact unsigned_bounded hRead
  · exact unsigned_bounded hRead

------------------------------------------------------------
-- Values
------------------------------------------------------------

theorem constant_eq
    {word : String}
    {v w : Json}
    {cs rest : List Char}
    (hRead : constant word v cs = some (w, rest)) :
    w = v := by
  unfold constant at hRead
  rcases Option.map_eq_some_iff.mp hRead with ⟨_, -, hSame⟩
  exact (congrArg Prod.fst hSame).symm

theorem textValue_bounded
    (s : Option String) :
    (textValue s).Bounded := by
  cases s with
  | none => exact .unreadable
  | some s => exact .string s

theorem objectOf_bounded
    {ms : List (Option String × Json)}
    (hMembers : ∀ m ∈ ms, m.2.Bounded) :
    (objectOf ms).Bounded := by
  unfold objectOf
  split
  · exact .unreadable
  · rename_i named hNamed
    refine .object fun m hMem => ?_
    rcases mem_of_mapM hNamed m hMem with
      ⟨member, hMember, hKey⟩
    rcases Option.map_eq_some_iff.mp hKey with ⟨k, -, rfl⟩
    exact hMembers member hMember

/- What the readers yield with given fuel is bounded. -/
structure ReadsBounded
    (n : Nat) : Prop where
  value :
    ∀ {cs v rest}, value n cs = some (v, rest) → v.Bounded
  items :
    ∀ {cs vs rest}, items n cs = some (vs, rest) →
      ∀ v ∈ vs, v.Bounded
  someItems :
    ∀ {cs vs rest}, someItems n cs = some (vs, rest) →
      ∀ v ∈ vs, v.Bounded
  members :
    ∀ {cs ms rest}, members n cs = some (ms, rest) →
      ∀ m ∈ ms, m.2.Bounded
  someMembers :
    ∀ {cs ms rest}, someMembers n cs = some (ms, rest) →
      ∀ m ∈ ms, m.2.Bounded

section

variable {n : Nat}
variable {cs rest : List Char}

theorem value_bounded
    (hInner : ReadsBounded n)
    {v : Json}
    (hRead : value (n + 1) cs = some (v, rest)) :
    v.Bounded := by
  rw [value] at hRead
  split at hRead
  · cases hRead
  · split_ifs at hRead
    · rcases Option.map_eq_some_iff.mp hRead with
        ⟨_, -, hSame⟩
      cases hSame
      exact textValue_bounded _
    · rcases Option.map_eq_some_iff.mp hRead with
        ⟨_, hItems, hSame⟩
      cases hSame
      exact .array (hInner.items hItems)
    · rcases Option.map_eq_some_iff.mp hRead with
        ⟨_, hMembers, hSame⟩
      cases hSame
      exact objectOf_bounded (hInner.members hMembers)
    · rw [constant_eq hRead]
      exact .null
    · rw [constant_eq hRead]
      exact .bool true
    · rw [constant_eq hRead]
      exact .bool false
    · exact number_bounded hRead

theorem items_bounded
    (hInner : ReadsBounded n)
    {vs : List Json}
    (hRead : items (n + 1) cs = some (vs, rest)) :
    ∀ v ∈ vs, v.Bounded := by
  rw [items] at hRead
  split at hRead
  · cases hRead
    intro v hMem
    contradiction
  · exact hInner.someItems hRead

theorem someItems_bounded
    (hInner : ReadsBounded n)
    {vs : List Json}
    (hRead : someItems (n + 1) cs = some (vs, rest)) :
    ∀ v ∈ vs, v.Bounded := by
  rw [someItems] at hRead
  rcases Option.bind_eq_some_iff.mp hRead with
    ⟨⟨v, r⟩, hHead, hRest⟩
  dsimp only at hRest
  split at hRest
  · cases hRest
    intro w hMem
    rw [List.mem_singleton.mp hMem]
    exact hInner.value hHead
  · rcases Option.bind_eq_some_iff.mp hRest with
      ⟨⟨ws, r'⟩, hTail, hSame⟩
    cases hSame
    exact List.forall_mem_cons.mpr
      ⟨hInner.value hHead, hInner.someItems hTail⟩
  · cases hRest

theorem members_bounded
    (hInner : ReadsBounded n)
    {ms : List (Option String × Json)}
    (hRead : members (n + 1) cs = some (ms, rest)) :
    ∀ m ∈ ms, m.2.Bounded := by
  rw [members] at hRead
  split at hRead
  · cases hRead
  · split_ifs at hRead
    · cases hRead
      intro m hMem
      contradiction
    · exact hInner.someMembers hRead

theorem someMembers_bounded
    (hInner : ReadsBounded n)
    {ms : List (Option String × Json)}
    (hRead : someMembers (n + 1) cs = some (ms, rest)) :
    ∀ m ∈ ms, m.2.Bounded := by
  rw [someMembers] at hRead
  split at hRead
  · rcases Option.bind_eq_some_iff.mp hRead with
      ⟨⟨k, r⟩, -, hRest⟩
    dsimp only at hRest
    split at hRest
    · rcases Option.bind_eq_some_iff.mp hRest with
        ⟨⟨v, r'⟩, hValue, hRest⟩
      dsimp only at hRest
      split at hRest
      · cases hRest
      · split_ifs at hRest
        · cases hRest
          intro m hMem
          rw [List.mem_singleton.mp hMem]
          exact hInner.value hValue
        · rcases Option.bind_eq_some_iff.mp hRest with
            ⟨⟨ms', r''⟩, hTail, hSame⟩
          cases hSame
          exact List.forall_mem_cons.mpr
            ⟨hInner.value hValue, hInner.someMembers hTail⟩
    · cases hRest
  · cases hRead

end

/- No fuel lets a value out of range through. -/
theorem readsBounded
    (n : Nat) :
    ReadsBounded n := by
  -- The readers call each other with less fuel only.
  induction n with
  | zero =>
      constructor <;> intro _ _ _ hRead <;> cases hRead
  | succ n ih =>
      exact ⟨value_bounded ih, items_bounded ih,
        someItems_bounded ih, members_bounded ih,
        someMembers_bounded ih⟩

end Reader

------------------------------------------------------------
-- Texts And Free Values
------------------------------------------------------------

/- What a text is read as is bounded. -/
theorem parse_bounded
    {s : String}
    {v : Json}
    (hParse : parse s = some v) :
    v.Bounded := by
  unfold parse parseChars at hParse
  split at hParse
  · cases hParse
  · split at hParse
    · cases hParse
      exact (Reader.readsBounded _).value ‹_›
    · cases hParse

/- Making a value free changes none of its numbers. -/
theorem Bounded.free?
    {v w : Json}
    (hBounded : v.Bounded)
    (hFree : v.free? = some w) :
    w.Bounded := by
  induction hBounded generalizing w with
  | array hItems ih =>
      rw [Json.free?, freeItems_eq] at hFree
      rcases Option.map_eq_some_iff.mp hFree with
        ⟨ws, hRead, rfl⟩
      refine .array fun x hMem => ?_
      rcases mem_of_mapM hRead x hMem with
        ⟨v, hItem, hValue⟩
      exact ih v hItem hValue
  | object hMembers ih =>
      rw [Json.free?, freeMembers_eq] at hFree
      rcases Option.map_eq_some_iff.mp hFree with
        ⟨ws, hRead, rfl⟩
      refine .object fun x hMem => ?_
      rcases mem_of_mapM hRead x
          (Dictionary.mem_of_mem_ofList hMem) with
        ⟨m, hMember, hValue⟩
      rcases Option.map_eq_some_iff.mp hValue with
        ⟨y, hInner, rfl⟩
      exact ih m hMember hInner
  | unreadable => cases hFree
  | null =>
      cases hFree
      exact .null
  | bool b =>
      cases hFree
      exact .bool b
  | whole hLow hHigh =>
      cases hFree
      exact .whole hLow hHigh
  | real x =>
      cases hFree
      exact .real x
  | string s =>
      cases hFree
      exact .string s

/- The fields of a bounded value are bounded. -/
theorem Bounded.fields?
    {v : Json}
    {names : List String}
    {fs : Fields}
    (hBounded : v.Bounded)
    (hFields : v.fields? names = some fs) :
    ∀ f ∈ fs, f.2.Bounded := by
  cases hBounded with
  | object hMembers =>
      dsimp only [Json.fields?] at hFields
      split at hFields
      · cases hFields
        intro f hMem
        exact hMembers f (List.mem_of_mem_filter hMem)
      · cases hFields
  | array hItems =>
      dsimp only [Json.fields?] at hFields
      split at hFields
      · cases hFields
        intro f hMem
        exact hItems f.2 (List.of_mem_zip hMem).2
      · cases hFields
  | _ => cases hFields

end Json

end JokerRun
