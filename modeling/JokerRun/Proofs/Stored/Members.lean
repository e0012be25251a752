import JokerRun.Json.Field
import JokerRun.Proofs.Dictionary
import JokerRun.Proofs.Stored.Form
import Mathlib.Data.List.Nodup

/-
  The known members of an object.

  Reading a record passes over unknown members, and refuses
  a known one that stands twice.  So a field is what the one
  member of its name says, in whatever order the members are
  listed, and a member that does not fit its field cannot be
  made up for by others.

  Key definitions include:
    * `Json.known` and `Json.present`
    * `Json.IsWholeIn`
    * `Json.Faulty`
    * `Json.Fields.Said`

  Key theorems include:
    * `Json.fields?_object_eq_some_iff`
    * `Json.lookup_present`
    * `Json.Fields.optional_eq_some_iff`
    * `Json.Faulty.not_inRanges`
-/

------------------------------------------------------------
-- Known Members
------------------------------------------------------------

namespace JokerRun

namespace Json

/- The members whose names are known. -/
def known
    (names : List String)
    (ms : List (String × Json)) : Fields :=
  ms.filter fun m => names.contains m.1

section

variable {names : List String}
variable {ms fs gs : List (String × Json)}
variable {k : String}
variable {v : Json}

theorem mem_known_iff
    {m : String × Json} :
    m ∈ known names ms ↔ m ∈ ms ∧ m.1 ∈ names := by
  rw [known, List.mem_filter, List.contains_iff_mem]

theorem fields?_object_eq_some_iff :
    (Json.object ms).fields? names = some fs ↔
      ((known names ms).map Prod.fst).Nodup ∧
        known names ms = fs := by
  have hEq :
      (Json.object ms).fields? names =
        if ((known names ms).map Prod.fst).Nodup then
          some (known names ms)
        else none := rfl
  rw [hEq]
  by_cases hOnce : ((known names ms).map Prod.fst).Nodup
  · simp only [hOnce, if_true, Option.some.injEq, true_and]
  · simp only [hOnce, if_false, false_and, reduceCtorEq]

/- The names of the known members. -/
theorem map_fst_known :
    (known names ms).map Prod.fst =
      (ms.map Prod.fst).filter fun k => names.contains k := by
  rw [known, List.filter_map]
  rfl

/- No known name stands twice. -/
theorem nodup_known_iff :
    ((known names ms).map Prod.fst).Nodup ↔
      ∀ k ∈ names, (ms.map Prod.fst).count k ≤ 1 := by
  rw [map_fst_known, List.nodup_iff_count_le_one]
  constructor
  · intro hOnce k hKnown
    have hCount := hOnce k
    rwa [List.count_filter
      (List.contains_iff_mem.mpr hKnown)] at hCount
  · intro hOnce k
    by_cases hKnown : k ∈ names
    · rw [List.count_filter (List.contains_iff_mem.mpr hKnown)]
      exact hOnce k hKnown
    · have hAbsent :
          k ∉ (ms.map Prod.fst).filter
            fun k => names.contains k := by
        intro hMem
        exact hKnown
          (List.contains_iff_mem.mp (List.mem_filter.mp hMem).2)
      rw [List.count_eq_zero_of_not_mem hAbsent]
      exact Nat.zero_le 1

/- A known name is found among all members. -/
theorem lookup_known
    (hKnown : k ∈ names) :
    (known names ms).lookup k = ms.lookup k := by
  induction ms with
  | nil => rfl
  | cons m ms ih =>
      rw [known, List.filter_cons, ← known,
        Dictionary.lookup_cons_eq, ← ih]
      split
      · rw [Dictionary.lookup_cons_eq]
      · rename_i hOther
        have hKey : k ≠ m.1 := by
          rintro rfl
          exact hOther (List.contains_iff_mem.mpr hKnown)
        rw [if_neg hKey]

/- A field is the member of its name. -/
theorem lookup_of_mem
    (hFields : (Json.object ms).fields? names = some fs)
    (hKnown : k ∈ names)
    (hMember : (k, v) ∈ ms) :
    fs.lookup k = some v := by
  rcases fields?_object_eq_some_iff.mp hFields with
    ⟨hOnce, rfl⟩
  exact (Dictionary.lookup_eq_some_iff_mem hOnce).mpr
    (mem_known_iff.mpr ⟨hMember, hKnown⟩)

end

------------------------------------------------------------
-- Members Of Present Fields
------------------------------------------------------------

/- The members of the fields that are present. -/
def present
    (rows : List (String × Option Json)) : Fields :=
  rows.filterMap fun r => r.2.map fun v => (r.1, v)

section

variable {rows : List (String × Option Json)}
variable {k : String}
variable {o : Option Json}

theorem present_cons
    (k : String)
    (o : Option Json)
    (rows : List (String × Option Json)) :
    present ((k, o) :: rows) =
      (o.map fun v => (k, v)).toList ++ present rows := by
  cases o <;> rfl

theorem sublist_map_fst_present :
    ((present rows).map Prod.fst).Sublist
      (rows.map Prod.fst) := by
  induction rows with
  | nil => exact .slnil
  | cons r rows ih =>
      rcases r with ⟨k, o⟩
      rw [present_cons]
      cases o with
      | none => exact ih.cons k
      | some v => exact ih.cons_cons k

/- Under each name stands the field of that name. -/
theorem lookup_present
    (hOnce : (rows.map Prod.fst).Nodup)
    (hRow : (k, o) ∈ rows) :
    (present rows).lookup k = o := by
  have hPresent :
      ((present rows).map Prod.fst).Nodup :=
    sublist_map_fst_present.nodup hOnce
  have hSame :
      ∀ o', (k, o') ∈ rows → o' = o := by
    intro o' hMem
    have hPair :=
      List.inj_on_of_nodup_map hOnce hMem hRow rfl
    exact (Prod.mk.inj hPair).2
  refine Option.ext fun v => ?_
  rw [Dictionary.lookup_eq_some_iff_mem hPresent, present,
    List.mem_filterMap]
  constructor
  · rintro ⟨⟨k', o'⟩, hMem, hMember⟩
    rcases Option.map_eq_some_iff.mp hMember with
      ⟨v', hField, hPair⟩
    cases hPair
    exact (hSame o' hMem).symm.trans hField
  · rintro rfl
    exact ⟨(k, some v), hRow, rfl⟩

end

------------------------------------------------------------
-- Fields That May Be Absent
------------------------------------------------------------

namespace Fields

variable {α : Type}

/- What is said by a field that may be absent. -/
def Said
    (absent : α)
    (item? : Json → Option α) : Option Json → α → Prop
  | none, a => a = absent
  | some v, a => item? v = some a

theorem optional_eq_some_iff
    {fs : Fields}
    {name : String}
    {absent a : α}
    {item? : Json → Option α} :
    fs.optional name absent item? = some a ↔
      Said absent item? (fs.lookup name) a := by
  unfold optional Said
  cases fs.lookup name with
  | none => exact ⟨fun h => (Option.some.inj h).symm,
      fun h => congrArg some h.symm⟩
  | some v => exact Iff.rfl

/- What is written for a value says it. -/
theorem said_of_lookup
    {absent : α}
    {item? : Json → Option α}
    {write : α → Json}
    {o : Option α}
    {p : Option Json}
    (hField : p = o.map write)
    (hBack : ∀ a, o = some a → item? (write a) = some a) :
    Said absent item? p (o.getD absent) := by
  rw [hField]
  cases o with
  | none => rfl
  | some a => exact hBack a rfl

/- What a form writes for a value in range says it. -/
theorem said_of_form
    (f : StoredForm α)
    {absent : α}
    {o : Option α}
    {p : Option Json}
    (hField : p = o.map f.write)
    (hRange : ∀ a, o = some a → f.InRange a) :
    Said absent f.read? p (o.getD absent) :=
  said_of_lookup hField fun a hSome =>
    f.read_write (hRange a hSome)

end Fields

------------------------------------------------------------
-- Members That Do Not Fit
------------------------------------------------------------

/- A whole number between two bounds. -/
def IsWholeIn
    (low high : Int)
    (v : Json) : Prop :=
  ∃ n, v = .whole n ∧ low ≤ n ∧ n ≤ high

/- The names of fields with the bounds of their numbers. -/
abbrev Ranges :=
  List (String × Int × Int)

/- Fields that are whole numbers between their bounds. -/
def Fields.InRanges
    (fs : Fields)
    (ranges : Ranges) : Prop :=
  ∀ r ∈ ranges, ∀ v, fs.lookup r.1 = some v →
    v.IsWholeIn r.2.1 r.2.2

/-
  Members among which a known name stands twice, or one that
  is no whole number between the bounds of its field.
-/
inductive Faulty
    (names : List String)
    (ranges : Ranges)
    (ms : List (String × Json)) : Prop where
  | repeated
      {k : String}
      (hKnown : k ∈ names)
      (hTwice : 1 < (ms.map Prod.fst).count k)
  | misfit
      {k : String}
      {low high : Int}
      {v : Json}
      (hRange : (k, low, high) ∈ ranges)
      (hMember : (k, v) ∈ ms)
      (hMisfit : ¬ v.IsWholeIn low high)

/- Nothing among the members makes up for a fault. -/
theorem Faulty.not_inRanges
    {names : List String}
    {ranges : Ranges}
    {ms : List (String × Json)}
    {fs : Fields}
    (hFaulty : Faulty names ranges ms)
    (hNames : ∀ r ∈ ranges, r.1 ∈ names)
    (hFields : (Json.object ms).fields? names = some fs) :
    ¬ fs.InRanges ranges := by
  intro hInRanges
  cases hFaulty with
  | @repeated k hKnown hTwice =>
      have hOnce := (fields?_object_eq_some_iff.mp hFields).1
      have hCount := nodup_known_iff.mp hOnce k hKnown
      omega
  | @misfit k low high v hRange hMember hMisfit =>
      exact hMisfit (hInRanges _ hRange v
        (lookup_of_mem hFields (hNames _ hRange) hMember))

/- A field that says a whole number is one if present. -/
theorem isWholeIn_of_said
    {α : Type}
    {low high : Int}
    {absent a : α}
    {item? : Json → Option α}
    {o : Option Json}
    (hItem :
      ∀ {v a}, item? v = some a → v.IsWholeIn low high)
    (hSaid : Fields.Said absent item? o a) :
    ∀ v, o = some v → v.IsWholeIn low high := by
  rintro v rfl
  exact hItem hSaid

theorem isWholeIn_of_required
    {α : Type}
    {low high : Int}
    {a : α}
    {item? : Json → Option α}
    {fs : Fields}
    {name : String}
    (hItem :
      ∀ {v a}, item? v = some a → v.IsWholeIn low high)
    (hRead : fs.required name item? = some a) :
    ∀ v, fs.lookup name = some v → v.IsWholeIn low high := by
  intro v hField
  rw [Fields.required, hField, Option.bind_some] at hRead
  exact hItem hRead

theorem isWholeIn_of_amount?
    {v : Json}
    {n : Int}
    (hRead : v.amount? = some n) :
    v.IsWholeIn Amount.lowest Amount.highest :=
  ⟨n, StoredForm.wholeIn?_eq_some_iff.mp hRead⟩

theorem isWholeIn_of_natTo?
    {high : Nat}
    {v : Json}
    {n : Nat}
    (hRead : v.natTo? high = some n) :
    v.IsWholeIn 0 high := by
  rcases Option.map_eq_some_iff.mp hRead with ⟨k, hWhole, -⟩
  exact ⟨k, StoredForm.wholeIn?_eq_some_iff.mp hWhole⟩

/- A list with an item that cannot be read is refused. -/
theorem list?_eq_none
    {α : Type}
    {item? : Json → Option α}
    {vs : List Json}
    {v : Json}
    (hMem : v ∈ vs)
    (hItem : item? v = none) :
    list? item? (.array vs) = none := by
  rcases List.append_of_mem hMem with ⟨before, after, rfl⟩
  rw [list?, List.mapM_append, List.mapM_cons, hItem]
  cases before.mapM item? <;> rfl

end Json

end JokerRun
