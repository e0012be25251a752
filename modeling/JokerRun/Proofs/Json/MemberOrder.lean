import JokerRun.Json.Field
import JokerRun.Json.Reader
import JokerRun.Proofs.Dictionary
import Mathlib.Logic.Relation

/-
  The order of members of different keys does not count.

  One step lets two neighbouring members of different keys
  change places, anywhere in a value.  Members of one key
  keep their order, since the last of them may be the one
  that counts.  A reader that gives the same before and
  after such a step gives the same for all texts that differ
  in the order of their keys alone.

  Key definitions include:
    * `Json.Swap`
    * `Json.SameMembers`
    * `Json.SameText`
    * `Json.Unordered`
    * `Json.Fields.Alike`

  Key theorems include:
    * `Json.sameMembers_of_perm`
    * `Json.unordered_freeWithin?`
    * `Json.unordered_dictionary?`
    * `Json.Unordered.fields`
    * `Json.Unordered.readText_eq`
-/

------------------------------------------------------------
-- Steps
------------------------------------------------------------

namespace JokerRun

namespace Json

/-
  Two neighbouring members of different keys change places,
  in an object or in a part of a value.
-/
inductive Swap : Json → Json → Prop where
  | here
      (before after : List (String × Json))
      {a b : String × Json}
      (hKeys : a.1 ≠ b.1) :
      Swap (.object (before ++ a :: b :: after))
        (.object (before ++ b :: a :: after))
  | inMember
      (before after : List (String × Json))
      (k : String)
      {v w : Json}
      (hInner : Swap v w) :
      Swap (.object (before ++ (k, v) :: after))
        (.object (before ++ (k, w) :: after))
  | inItem
      (before after : List Json)
      {v w : Json}
      (hInner : Swap v w) :
      Swap (.array (before ++ v :: after))
        (.array (before ++ w :: after))

/- Values that differ in the order of different keys alone. -/
def SameMembers
    (v w : Json) : Prop :=
  Relation.ReflTransGen Swap v w

/- Texts that differ in the order of different keys alone. -/
def SameText
    (s t : String) : Prop :=
  ∃ v w, parse s = some v ∧ parse t = some w ∧
    SameMembers v w

/- A reader for which the order of different keys is nothing. -/
def Unordered
    {α : Type}
    (read? : Json → Option α) : Prop :=
  ∀ v w, Swap v w → read? v = read? w

/- A step stays one behind a further member. -/
theorem Swap.cons
    {ms ns : List (String × Json)}
    (hSwap : Swap (.object ms) (.object ns))
    (m : String × Json) :
    Swap (.object (m :: ms)) (.object (m :: ns)) := by
  cases hSwap with
  | here before after hKeys =>
      exact .here (m :: before) after hKeys
  | inMember before after k hInner =>
      exact .inMember (m :: before) after k hInner

/- Members of different keys come by steps into any order. -/
theorem sameMembers_of_perm
    {ms ns : List (String × Json)}
    (hPerm : ms.Perm ns)
    (hOnce : (ms.map Prod.fst).Nodup) :
    SameMembers (.object ms) (.object ns) := by
  let Step := fun ms ns => Swap (.object ms) (.object ns)
  have hSteps : Relation.ReflTransGen Step ms ns := by
    induction hPerm with
    | nil => exact .refl
    | cons m hPerm ih =>
        exact (ih (List.nodup_cons.mp hOnce).2).lift _
          fun _ _ hSwap => hSwap.cons m
    | swap a b ms =>
        have hKeys : b.1 ≠ a.1 := by
          intro hSame
          exact (List.nodup_cons.mp hOnce).1
            (by simp [hSame])
        exact .single (.here [] ms hKeys)
    | trans hFirst hSecond ihFirst ihSecond =>
        exact (ihFirst hOnce).trans
          (ihSecond ((hFirst.map _).nodup_iff.mp hOnce))
  exact hSteps.lift _ fun _ _ hSwap => hSwap

------------------------------------------------------------
-- Readers Of Values Without Members
------------------------------------------------------------

section

variable {α : Type}
variable {read? : Json → Option α}

/- A reader that takes neither arrays nor objects. -/
theorem unordered_of_flat
    (hArray : ∀ vs, read? (.array vs) = none)
    (hObject : ∀ ms, read? (.object ms) = none) :
    Unordered read? := by
  intro v w hSwap
  cases hSwap with
  | here before after hKeys => rw [hObject, hObject]
  | inMember before after k hInner => rw [hObject, hObject]
  | inItem before after hInner => rw [hArray, hArray]

theorem unordered_text? :
    Unordered text? :=
  unordered_of_flat (fun _ => rfl) (fun _ => rfl)

theorem unordered_amount? :
    Unordered amount? :=
  unordered_of_flat (fun _ => rfl) (fun _ => rfl)

theorem unordered_nat32? :
    Unordered nat32? :=
  unordered_of_flat (fun _ => rfl) (fun _ => rfl)

------------------------------------------------------------
-- Maps
------------------------------------------------------------

/- The members of a map, each read by itself. -/
def readMembers?
    (read? : Json → Option α)
    (ms : List (String × Json)) : Option (List (String × α)) :=
  ms.mapM fun m => (read? m.2).map fun v => (m.1, v)

/- Members of different keys are read in any order. -/
theorem readMembers?_swap
    (read? : Json → Option α)
    (before after : List (String × Json))
    {a b : String × Json}
    (hKeys : a.1 ≠ b.1) :
    (readMembers? read? (before ++ a :: b :: after)).map
        Dictionary.ofList =
      (readMembers? read? (before ++ b :: a :: after)).map
        Dictionary.ofList := by
  simp only [readMembers?, List.mapM_append, List.mapM_cons]
  generalize before.mapM (fun m =>
    (read? m.2).map fun v => (m.1, v)) = front
  generalize after.mapM (fun m =>
    (read? m.2).map fun v => (m.1, v)) = back
  cases front with
  | none => rfl
  | some front =>
      cases hFirst : read? a.2 with
      | none => cases read? b.2 <;> rfl
      | some x =>
          cases hSecond : read? b.2 with
          | none => rfl
          | some y =>
              cases back with
              | none => rfl
              | some back =>
                  exact congrArg some
                    (Dictionary.ofList_swap front back hKeys)

/- A member counts by what is read of it. -/
theorem readMembers?_congr
    (before after : List (String × Json))
    (k : String)
    {v w : Json}
    (hSame : read? v = read? w) :
    readMembers? read? (before ++ (k, v) :: after) =
      readMembers? read? (before ++ (k, w) :: after) := by
  simp only [readMembers?, List.mapM_append, List.mapM_cons,
    hSame]

theorem dictionary?_object
    (ms : List (String × Json)) :
    dictionary? read? (.object ms) =
      (readMembers? read? ms).map Dictionary.ofList := rfl

/- A map of values is read in any order of its keys. -/
theorem unordered_dictionary?
    (hRead : Unordered read?) :
    Unordered (dictionary? read?) := by
  intro v w hSwap
  cases hSwap with
  | here before after hKeys =>
      exact readMembers?_swap read? before after hKeys
  | inMember before after k hInner =>
      rw [dictionary?_object, dictionary?_object,
        readMembers?_congr before after k
          (hRead _ _ hInner)]
  | inItem before after hInner => rfl

end

------------------------------------------------------------
-- Free Values
------------------------------------------------------------

theorem freeMembers_eq
    (ms : List (String × Json)) :
    free?.freeMembers ms = readMembers? free? ms := by
  induction ms with
  | nil => rfl
  | cons m ms ih =>
      rcases m with ⟨k, v⟩
      simp only [free?.freeMembers, ih, readMembers?,
        List.mapM_cons]
      cases v.free? with
      | none => rfl
      | some x =>
          cases ms.mapM (fun m =>
            m.2.free?.map fun v => (m.1, v)) <;> rfl

theorem freeItems_eq
    (vs : List Json) :
    free?.freeItems vs = vs.mapM free? := by
  induction vs with
  | nil => rfl
  | cons v vs ih =>
      simp only [free?.freeItems, ih, List.mapM_cons]
      cases v.free? with
      | none => rfl
      | some x => cases vs.mapM free? <;> rfl

/- An object is as free as the map of its members. -/
theorem free?_object
    (ms : List (String × Json)) :
    free? (.object ms) =
      ((readMembers? free? ms).map Dictionary.ofList).map
        fun d => .object d.entries := by
  rw [free?, freeMembers_eq, Option.map_map]
  rfl

theorem unordered_free? :
    Unordered free? := by
  intro v w hSwap
  induction hSwap with
  | here before after hKeys =>
      rw [free?_object, free?_object,
        readMembers?_swap free? before after hKeys]
  | inMember before after k hInner ih =>
      rw [free?_object, free?_object,
        readMembers?_congr before after k ih]
  | inItem before after hInner ih =>
      simp only [free?, freeItems_eq, List.mapM_append,
        List.mapM_cons, ih]

theorem depthMembers_append
    (before after : List (String × Json)) :
    depth.depthMembers (before ++ after) =
      max (depth.depthMembers before)
        (depth.depthMembers after) := by
  induction before with
  | nil => simp [depth.depthMembers]
  | cons m before ih =>
      simp only [List.cons_append, depth.depthMembers, ih,
        Nat.max_assoc]

theorem depthItems_append
    (before after : List Json) :
    depth.depthItems (before ++ after) =
      max (depth.depthItems before)
        (depth.depthItems after) := by
  induction before with
  | nil => simp [depth.depthItems]
  | cons v before ih =>
      simp only [List.cons_append, depth.depthItems, ih,
        Nat.max_assoc]

/- A value is as deep as before. -/
theorem Swap.depth_eq
    {v w : Json}
    (hSwap : Swap v w) :
    v.depth = w.depth := by
  induction hSwap with
  | here before after hKeys =>
      simp only [depth, depthMembers_append,
        depth.depthMembers]
      omega
  | inMember before after k hInner ih =>
      simp only [depth, depthMembers_append,
        depth.depthMembers, ih]
  | inItem before after hInner ih =>
      simp only [depth, depthItems_append,
        depth.depthItems, ih]

/- A free value has its members in one order. -/
theorem unordered_freeWithin?
    (around : Nat) :
    Unordered (freeWithin? around) := by
  intro v w hSwap
  rw [freeWithin?, freeWithin?, hSwap.depth_eq,
    unordered_free? v w hSwap]

------------------------------------------------------------
-- Records
------------------------------------------------------------

namespace Fields

variable {α : Type}

/- Fields that give the same up to a step within a value. -/
def Alike
    (fs gs : Fields) : Prop :=
  ∀ name, fs.lookup name = gs.lookup name ∨
    ∃ v w, fs.lookup name = some v ∧
      gs.lookup name = some w ∧ Swap v w

/- A field's reader does not see what makes them differ. -/
theorem Alike.optional_eq
    {fs gs : Fields}
    (hAlike : Alike fs gs)
    {item? : Json → Option α}
    (hItem : Unordered item?)
    (name : String)
    (absent : α) :
    fs.optional name absent item? =
      gs.optional name absent item? := by
  unfold optional
  rcases hAlike name with hSame | ⟨v, w, hV, hW, hSwap⟩
  · rw [hSame]
  · simp only [hV, hW]
    exact hItem v w hSwap

theorem alike_middle
    (before after : Fields)
    (k : String)
    {v w : Json}
    (hSwap : Swap v w) :
    Alike (before ++ (k, v) :: after)
      (before ++ (k, w) :: after) := by
  intro name
  rw [List.lookup_append, List.lookup_append,
    Dictionary.lookup_cons_eq, Dictionary.lookup_cons_eq]
  cases before.lookup name with
  | some x => exact Or.inl rfl
  | none =>
      by_cases hName : name = k
      · right
        refine ⟨v, w, ?_, ?_, hSwap⟩ <;> simp [hName]
      · left
        rw [if_neg hName, if_neg hName]

/- Fields that an array lists. -/
theorem alike_zip
    (names : List String)
    (before after : List Json)
    {v w : Json}
    (hSwap : Swap v w) :
    Alike (names.zip (before ++ v :: after))
      (names.zip (before ++ w :: after)) := by
  induction before generalizing names with
  | nil =>
      cases names with
      | nil => exact fun _ => Or.inl rfl
      | cons n names => exact alike_middle [] _ n hSwap
  | cons x before ih =>
      cases names with
      | nil => exact fun _ => Or.inl rfl
      | cons n names =>
          intro name
          simp only [List.cons_append, List.zip_cons_cons,
            Dictionary.lookup_cons_eq]
          by_cases hName : name = n
          · rw [if_pos hName, if_pos hName]
            exact Or.inl rfl
          · rw [if_neg hName, if_neg hName]
            exact ih names name

end Fields

/- The known ones among members that change places. -/
theorem lookup_filter_swap
    (p : String × Json → Bool)
    (before after : List (String × Json))
    {a b : String × Json}
    (hKeys : a.1 ≠ b.1)
    (name : String) :
    ((before ++ a :: b :: after).filter p).lookup name =
      ((before ++ b :: a :: after).filter p).lookup name := by
  simp only [List.filter_append, List.filter_cons]
  split
  · split
    · exact Dictionary.lookup_swap _ _ hKeys name
    · rfl
  · rfl

/- Objects whose known members give alike fields. -/
theorem fields?_object_cases
    (names : List String)
    {ms ns : List (String × Json)}
    (hOnce :
      ((ms.filter fun m => names.contains m.1).map
          Prod.fst).Perm
        ((ns.filter fun m => names.contains m.1).map
          Prod.fst))
    (hAlike :
      Fields.Alike (ms.filter fun m => names.contains m.1)
        (ns.filter fun m => names.contains m.1)) :
    ((Json.object ms).fields? names = none ∧
        (Json.object ns).fields? names = none) ∨
      ∃ fs gs, (Json.object ms).fields? names = some fs ∧
        (Json.object ns).fields? names = some gs ∧
        Fields.Alike fs gs := by
  simp only [fields?, hOnce.nodup_iff]
  split
  · exact Or.inr ⟨_, _, rfl, rfl, hAlike⟩
  · exact Or.inl ⟨rfl, rfl⟩

/- A record has no fields or alike ones after a step. -/
theorem fields?_cases
    (names : List String)
    {v w : Json}
    (hSwap : Swap v w) :
    (v.fields? names = none ∧ w.fields? names = none) ∨
      ∃ fs gs, v.fields? names = some fs ∧
        w.fields? names = some gs ∧ Fields.Alike fs gs := by
  cases hSwap with
  | @here before after a b hKeys =>
      apply fields?_object_cases
      · exact (((List.Perm.swap b a after).append_left
          before).filter _).map _
      · intro name
        exact Or.inl
          (lookup_filter_swap _ before after hKeys name)
  | inMember before after k hInner =>
      apply fields?_object_cases
      · apply List.Perm.of_eq
        simp only [List.filter_append, List.filter_cons]
        split <;> simp
      · simp only [List.filter_append, List.filter_cons]
        split
        · exact Fields.alike_middle _ _ k hInner
        · exact fun _ => Or.inl rfl
  | inItem before after hInner =>
      simp only [fields?, List.length_append,
        List.length_cons]
      split
      · exact Or.inr ⟨_, _, rfl, rfl,
          Fields.alike_zip names before after hInner⟩
      · exact Or.inl ⟨rfl, rfl⟩

/- What is read of the fields of a record. -/
theorem Unordered.fields
    {α : Type}
    (names : List String)
    {next : Fields → Option α}
    (hNext :
      ∀ {fs gs}, Fields.Alike fs gs → next fs = next gs) :
    Unordered fun v => (v.fields? names).bind next := by
  intro v w hSwap
  rcases fields?_cases names hSwap with
    ⟨hV, hW⟩ | ⟨fs, gs, hV, hW, hAlike⟩
  · simp only [hV, hW]
  · simp only [hV, hW, Option.bind_some]
    exact hNext hAlike

------------------------------------------------------------
-- Texts
------------------------------------------------------------

/- Texts with the same members are read alike. -/
theorem Unordered.readText_eq
    {α : Type}
    {read? : Json → Option α}
    (hRead : Unordered read?)
    {s t : String}
    (hSame : SameText s t) :
    (parse s).bind read? = (parse t).bind read? := by
  rcases hSame with ⟨v, w, hV, hW, hSteps⟩
  rw [hV, hW, Option.bind_some, Option.bind_some]
  clear hV hW
  induction hSteps with
  | refl => rfl
  | tail hBefore hSwap ih => exact ih.trans (hRead _ _ hSwap)

end Json

end JokerRun
