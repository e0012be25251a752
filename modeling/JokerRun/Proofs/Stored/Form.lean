import JokerRun.Json.Field
import JokerRun.Proofs.Json.RoundTrip
import Mathlib.Data.List.Nodup

/-
  Stored forms: writers and readers that belong together.

  A form has a writer, a reader and the values that the type
  can hold.  It carries the proofs that the reader inverts
  the writer on these values and yields no others, and that
  values without floating-point numbers are written without
  loss.  Hence what is written as text is read back.

  Key definitions include:
    * `Json.RoundTrips`
    * `StoredForm`
    * `StoredForm.amount`, `StoredForm.natural`,
      `StoredForm.text`, `StoredForm.list` and
      `StoredForm.nullable`

  Key theorems include:
    * `StoredForm.roundTrips`
    * `Json.fields?_bind`
    * `Json.Fields.required_bind`
    * `Json.Fields.optional_bind`
-/

------------------------------------------------------------
-- Round Trips
------------------------------------------------------------

namespace JokerRun

namespace Json

variable {α : Type}

/- The value of a type that a text is read as. -/
def readText?
    (read? : Json → Option α)
    (s : String) : Option α :=
  (parse s).bind read?

/- The text that is written for what a text is read as. -/
def rewritten?
    (write : α → Json)
    (read? : Json → Option α)
    (s : String) : Option String :=
  (readText? read? s).map fun a => (write a).compact

/-
  Of the values in range, those that are exact are read back
  from the text that is written for them.  An accepted text
  stands for a value in range, and what is written for that
  value stays the same when it is read and written again.
-/
structure RoundTrips
    (write : α → Json)
    (read? : Json → Option α)
    (InRange IsExact : α → Prop) : Prop where
  readBack :
    ∀ a, InRange a → IsExact a →
      readText? read? (write a).compact = some a
  settled :
    ∀ s a, readText? read? s = some a →
      InRange a ∧
        (IsExact a →
          rewritten? write read? (write a).compact =
            some (write a).compact)

end Json

------------------------------------------------------------
-- Forms
------------------------------------------------------------

/- A writer and the reader that belongs to it. -/
structure StoredForm (α : Type) where
  write : α → Json
  read? : Json → Option α
  /- The values that the type can hold. -/
  InRange : α → Prop
  /- The values without floating-point numbers. -/
  IsExact : α → Prop
  plain :
    ∀ {a}, InRange a → IsExact a → (write a).Plain
  read_write :
    ∀ {a}, InRange a → read? (write a) = some a
  inRange :
    ∀ {v a}, read? v = some a → InRange a

namespace StoredForm

variable {α : Type}

/- What is written in a form is read back from its text. -/
theorem roundTrips
    (f : StoredForm α) :
    Json.RoundTrips f.write f.read? f.InRange f.IsExact := by
  have hBack :
      ∀ a, f.InRange a → f.IsExact a →
        Json.readText? f.read? (f.write a).compact =
          some a := by
    intro a hRange hExact
    rw [Json.readText?, (f.plain hRange hExact).parse_compact,
      Option.bind_some]
    exact f.read_write hRange
  refine ⟨hBack, ?_⟩
  intro s a hRead
  rcases Option.bind_eq_some_iff.mp hRead with ⟨v, -, hValue⟩
  have hRange := f.inRange hValue
  refine ⟨hRange, ?_⟩
  intro hExact
  rw [Json.rewritten?, hBack a hRange hExact, Option.map_some]

------------------------------------------------------------
-- Numbers And Texts
------------------------------------------------------------

/- What a bounded whole number is read from. -/
theorem wholeIn?_eq_some_iff
    {low high n : Int}
    {v : Json} :
    v.wholeIn? low high = some n ↔
      v = .whole n ∧ low ≤ n ∧ n ≤ high := by
  cases v with
  | whole k =>
      by_cases hBounds : low ≤ k ∧ k ≤ high
      · rw [Json.wholeIn?, if_pos hBounds]
        constructor
        · intro hSame
          cases hSame
          exact ⟨rfl, hBounds⟩
        · rintro ⟨hSame, -⟩
          cases hSame
          rfl
      · rw [Json.wholeIn?, if_neg hBounds]
        constructor
        · intro hNone
          contradiction
        · rintro ⟨hSame, hOther⟩
          cases hSame
          exact absurd hOther hBounds
  | _ =>
      constructor
      · intro hNone
        contradiction
      · rintro ⟨hSame, -⟩
        contradiction

/- Amounts. -/
def amount : StoredForm Int where
  write := .whole
  read? := Json.amount?
  InRange := Amount.InRange
  IsExact _ := True
  plain := by
    intro n hRange _
    have hLow : Json.lowestWhole ≤ n := hRange.1
    have hHigh : n ≤ Json.highestWhole :=
      Int.le_trans hRange.2 (by decide)
    exact .whole hLow hHigh
  read_write := by
    intro n hRange
    exact wholeIn?_eq_some_iff.mpr ⟨rfl, hRange⟩
  inRange := by
    intro v n hRead
    exact (wholeIn?_eq_some_iff.mp hRead).2

/- Natural numbers up to a bound of at most 64 bits. -/
def natural
    (high : Nat)
    (hHigh : high ≤ Numeral.largest64) : StoredForm Nat where
  write n := .whole n
  read? := Json.natTo? high
  InRange n := n ≤ high
  IsExact _ := True
  plain := by
    intro n hRange _
    have hLargest : n ≤ Numeral.largest64 :=
      Nat.le_trans hRange hHigh
    unfold Numeral.largest64 at hLargest
    refine .whole ?_ ?_
    · unfold Json.lowestWhole
      omega
    · unfold Json.highestWhole
      omega
  read_write := by
    intro n hRange
    have hRead :
        (Json.whole n).wholeIn? 0 high = some (n : Int) :=
      wholeIn?_eq_some_iff.mpr ⟨rfl, by omega, by omega⟩
    rw [Json.natTo?, hRead, Option.map_some, Int.toNat_natCast]
  inRange := by
    intro v n hRead
    rcases Option.map_eq_some_iff.mp hRead with
      ⟨k, hWhole, hSame⟩
    rcases wholeIn?_eq_some_iff.mp hWhole with
      ⟨-, hLow, hBound⟩
    omega

/- Natural numbers of 8 bits. -/
def natural8 : StoredForm Nat :=
  natural 255 (by decide)

/- Natural numbers of 32 bits. -/
def natural32 : StoredForm Nat :=
  natural 4294967295 (by decide)

/- Natural numbers of 64 bits. -/
def natural64 : StoredForm Nat :=
  natural Numeral.largest64 (Nat.le_refl _)

/- Texts. -/
def text : StoredForm String where
  write := .string
  read? := Json.text?
  InRange _ := True
  IsExact _ := True
  plain := by
    intro s _ _
    exact .string s
  read_write := by
    intro s _
    rfl
  inRange := by
    intro v s _
    trivial

------------------------------------------------------------
-- Choices Without Data
------------------------------------------------------------

/- Choices that are told apart by their names. -/
def named
    (all : List α)
    (name : α → String)
    (hAll : ∀ a, a ∈ all)
    (hOnce : (all.map name).Nodup) : StoredForm α where
  write a := .string (name a)
  read? v := v.named? all name
  InRange _ := True
  IsExact _ := True
  plain := by
    intro a _ _
    exact .string (name a)
  read_write := by
    intro a _
    have hFound :
        (all.find? fun b => name b == name a).isSome :=
      List.find?_isSome.mpr ⟨a, hAll a, beq_self_eq_true _⟩
    rcases Option.isSome_iff_exists.mp hFound with ⟨b, hFind⟩
    have hFits : (name b == name a) = true :=
      List.find?_some (p := fun c => name c == name a) hFind
    have hSame : b = a :=
      List.inj_on_of_nodup_map hOnce (hAll b) (hAll a)
        (beq_iff_eq.mp hFits)
    subst hSame
    exact hFind
  inRange := by
    intro v a _
    trivial

------------------------------------------------------------
-- Lists And Absent Values
------------------------------------------------------------

/- Lists of values of one form. -/
def list
    (f : StoredForm α) : StoredForm (List α) where
  write xs := .array (xs.map f.write)
  read? := Json.list? f.read?
  InRange xs := ∀ x ∈ xs, f.InRange x
  IsExact xs := ∀ x ∈ xs, f.IsExact x
  plain := by
    intro xs hRange hExact
    refine .array ?_
    intro v hMem
    rcases List.mem_map.mp hMem with ⟨x, hItem, rfl⟩
    exact f.plain (hRange x hItem) (hExact x hItem)
  read_write := by
    intro xs hRange
    exact Json.mapM_map_of_inverse fun x hMem =>
      f.read_write (hRange x hMem)
  inRange := by
    intro v xs hRead
    cases v with
    | array vs =>
        intro x hMem
        rcases Json.mem_of_mapM hRead x hMem with
          ⟨v, -, hItem⟩
        exact f.inRange hItem
    | _ => contradiction

/- Values that may be absent, where a present one is not null. -/
def nullable
    (f : StoredForm α)
    (hNull : ∀ a, f.write a ≠ .null) :
    StoredForm (Option α) where
  write
    | none => .null
    | some a => f.write a
  read? := Json.nullable? f.read?
  InRange o := ∀ a, o = some a → f.InRange a
  IsExact o := ∀ a, o = some a → f.IsExact a
  plain := by
    intro o hRange hExact
    cases o with
    | none => exact .null
    | some a => exact f.plain (hRange a rfl) (hExact a rfl)
  read_write := by
    intro o hRange
    cases o with
    | none => rfl
    | some a =>
        unfold Json.nullable?
        split
        · rename_i hIsNull
          exact absurd hIsNull (hNull a)
        · rw [f.read_write (hRange a rfl), Option.map_some]
  inRange := by
    intro v o hRead a hSome
    subst hSome
    unfold Json.nullable? at hRead
    split at hRead
    · cases hRead
    · rcases Option.map_eq_some_iff.mp hRead with
        ⟨b, hItem, hSame⟩
      cases hSame
      exact f.inRange hItem

end StoredForm

------------------------------------------------------------
-- Fields
------------------------------------------------------------

namespace Json

/- An object is plain exactly if its members are. -/
theorem plain_object_iff
    {ms : List (String × Json)} :
    (Json.object ms).Plain ↔ ∀ m ∈ ms, m.2.Plain := by
  constructor
  · intro hPlain
    cases hPlain with
    | object hMembers => exact hMembers
  · exact Plain.object

/- A written record has its fields, if they are named once. -/
theorem fields?_object
    {names : List String}
    {ms : List (String × Json)}
    (hNames : ms.map Prod.fst = names)
    (hOnce : names.Nodup) :
    (Json.object ms).fields? names = some ms := by
  have hKnown :
      (ms.filter fun m => names.contains m.1) = ms := by
    refine List.filter_eq_self.mpr ?_
    intro m hMem
    rw [List.contains_iff_mem, ← hNames]
    exact List.mem_map_of_mem hMem
  simp only [fields?, hKnown, hNames, hOnce, if_true]

/- Reading a written record goes on with its fields. -/
theorem fields?_bind
    {β : Type}
    {names : List String}
    {ms : Fields}
    {next : Fields → Option β}
    {b : β}
    (hNames : ms.map Prod.fst = names)
    (hOnce : names.Nodup)
    (hNext : next ms = some b) :
    ((Json.object ms).fields? names).bind next = some b := by
  rw [fields?_object hNames hOnce, Option.bind_some, hNext]

namespace Fields

variable {α β : Type}

/- Reading a written field goes on with its value. -/
theorem required_bind
    (f : StoredForm α)
    {fs : Fields}
    {name : String}
    {a : α}
    {next : α → Option β}
    {b : β}
    (hField : fs.lookup name = some (f.write a))
    (hRange : f.InRange a)
    (hNext : next a = some b) :
    (fs.required name f.read?).bind next = some b := by
  rw [required, hField, Option.bind_some, f.read_write hRange,
    Option.bind_some, hNext]

/- A written field is read and not taken to be absent. -/
theorem optional_bind
    (f : StoredForm α)
    {fs : Fields}
    {name : String}
    {a absent : α}
    {next : α → Option β}
    {b : β}
    (hField : fs.lookup name = some (f.write a))
    (hRange : f.InRange a)
    (hNext : next a = some b) :
    (fs.optional name absent f.read?).bind next = some b := by
  simp only [optional, hField, f.read_write hRange,
    Option.bind_some, hNext]

/- A field that was read is in range. -/
theorem required_inRange
    (f : StoredForm α)
    {fs : Fields}
    {name : String}
    {a : α}
    (hRead : fs.required name f.read? = some a) :
    f.InRange a := by
  rcases Option.bind_eq_some_iff.mp hRead with ⟨v, -, hItem⟩
  exact f.inRange hItem

/- A field that was read or is absent is in range. -/
theorem optional_inRange
    (f : StoredForm α)
    {fs : Fields}
    {name : String}
    {a absent : α}
    (hAbsent : f.InRange absent)
    (hRead : fs.optional name absent f.read? = some a) :
    f.InRange a := by
  unfold optional at hRead
  split at hRead
  · cases hRead
    exact hAbsent
  · exact f.inRange hRead

end Fields

end Json

end JokerRun
