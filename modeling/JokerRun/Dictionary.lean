/-
  Dictionaries with text keys.

  The entries are kept in ascending order of their keys.
  Texts compare by their characters, which is also the order
  of their UTF-8 bytes.  Of two entries for one key the one
  put in last stays.

  Key definitions include:
    * `Dictionary`
    * `Dictionary.insert`
    * `Dictionary.ofList`
    * `Dictionary.get?`
-/

------------------------------------------------------------
-- Entries
------------------------------------------------------------

namespace JokerRun

namespace Dictionary

variable {α : Type}

/- Keys ascend strictly. -/
def Ascending
    (es : List (String × α)) : Prop :=
  es.Pairwise fun a b => a.1 < b.1

/- An entry put in its place among ascending ones. -/
def place
    (k : String)
    (v : α) : List (String × α) → List (String × α)
  | [] => [(k, v)]
  | e :: es =>
      if k < e.1 then (k, v) :: e :: es
      else if k = e.1 then (k, v) :: es
      else e :: place k v es

/- Placing an entry adds at most its own key. -/
theorem mem_place
    {k : String}
    {v : α}
    {es : List (String × α)}
    {a : String × α}
    (hMem : a ∈ place k v es) :
    a = (k, v) ∨ a ∈ es := by
  induction es with
  | nil =>
      simp [place] at hMem
      exact Or.inl hMem
  | cons e es ih =>
      unfold place at hMem
      split at hMem
      · simpa using hMem
      · split at hMem
        · rcases List.mem_cons.mp hMem with h | h
          · exact Or.inl h
          · exact Or.inr (List.mem_cons_of_mem e h)
        · rcases List.mem_cons.mp hMem with h | h
          · exact Or.inr (by simp [h])
          · rcases ih h with h | h
            · exact Or.inl h
            · exact Or.inr (List.mem_cons_of_mem e h)

/- Placing an entry keeps the keys ascending. -/
theorem ascending_place
    {es : List (String × α)}
    (hAsc : Ascending es)
    (k : String)
    (v : α) :
    Ascending (place k v es) := by
  induction es with
  | nil => simp [place, Ascending]
  | cons e es ih =>
      unfold Ascending at hAsc ih ⊢
      rcases List.pairwise_cons.mp hAsc with ⟨hHead, hTail⟩
      unfold place
      split
      · rename_i hLt
        refine List.pairwise_cons.mpr ⟨?_, hAsc⟩
        intro a ha
        rcases List.mem_cons.mp ha with h | h
        · simpa [h] using hLt
        · exact String.lt_trans hLt (hHead a h)
      · rename_i hNotLt
        split
        · rename_i hEq
          refine List.pairwise_cons.mpr ⟨?_, hTail⟩
          intro a ha
          simpa [hEq] using hHead a ha
        · rename_i hNe
          refine List.pairwise_cons.mpr ⟨?_, ih hTail⟩
          intro a ha
          rcases mem_place ha with h | h
          · subst h
            have hLe : e.1 ≤ k := String.not_lt.mp hNotLt
            exact Classical.byContradiction fun hNot =>
              hNe (String.le_antisymm
                (String.not_lt.mp hNot) hLe)
          · exact hHead a h

end Dictionary

------------------------------------------------------------
-- Dictionaries
------------------------------------------------------------

/- Entries in strictly ascending order of their keys. -/
structure Dictionary (α : Type) where
  entries : List (String × α)
  hAscending : Dictionary.Ascending entries

namespace Dictionary

variable {α β : Type}

/- The dictionary without entries. -/
def empty : Dictionary α :=
  ⟨[], List.Pairwise.nil⟩

/- A dictionary with one more entry, or a newer one. -/
def insert
    (d : Dictionary α)
    (k : String)
    (v : α) : Dictionary α :=
  ⟨place k v d.entries, ascending_place d.hAscending k v⟩

/- The dictionary of a list; later entries win. -/
def ofList
    (es : List (String × α)) : Dictionary α :=
  es.foldl (fun d e => d.insert e.1 e.2) empty

/- The value under a key. -/
def get?
    (d : Dictionary α)
    (k : String) : Option α :=
  d.entries.lookup k

/- The keys, ascending. -/
def keys
    (d : Dictionary α) : List String :=
  d.entries.map Prod.fst

/- The values, in the order of their keys. -/
def values
    (d : Dictionary α) : List α :=
  d.entries.map Prod.snd

/- The number of entries. -/
def size
    (d : Dictionary α) : Nat :=
  d.entries.length

/- Whether there is no entry. -/
def isEmpty
    (d : Dictionary α) : Bool :=
  d.entries.isEmpty

end Dictionary

end JokerRun
