import JokerRun.Content.Jokers
import JokerRun.Proofs.Binary64.Whole
import JokerRun.Proofs.Card.Keys

/-
  What a parameter reads as, and when it cannot be read.

  A whole parameter is any number without a fraction, cut to
  the range of amounts; a number parameter is any number; a
  suit is a known name, and a rank a known name or a place.
  Only a rank must be present.

  Key definitions include:
    * `Json.Stands`
    * `Json.CountsAs`
    * `Json.NamesRank`
    * `Params.Reads`
    * `Params.ReadsRank`

  Key theorems include:
    * `Params.exists_reads_iff`
    * `Params.eq_ok_iff_reads`
    * `Params.integer_eq_ok_iff`
    * `Params.number_eq_ok_iff`
    * `Params.suit_eq_ok_iff`
    * `Params.rank_eq_ok_iff`
-/

------------------------------------------------------------
-- Values
------------------------------------------------------------

namespace JokerRun

namespace Json

/- The whole number that a value stands for, exactly. -/
inductive Stands : Json → Int → Prop where
  | whole
      (n : Int) :
      Stands (.whole n) n
  | real
      {negative : Bool}
      {u : Nat}
      {hGrid : Binary64.OnGrid u}
      {k : Int}
      (hUnits :
        Binary64.signed negative u = k * (Binary64.one : Int)) :
      Stands (.real (.finite negative u hGrid)) k

/- The amount that a number without a fraction counts as. -/
inductive CountsAs : Json → Int → Prop where
  | whole
      (n : Int) :
      CountsAs (.whole n) (min n Amount.highest)
  | real
      {x : Binary64}
      {k : Int}
      (hStands : (Json.real x).Stands k) :
      CountsAs (.real x) (Amount.clamp k)

/- A number of any kind as a floating-point number. -/
inductive Measures : Json → Binary64 → Prop where
  | whole (n : Int) : Measures (.whole n) (Binary64.ofInt n)
  | real (x : Binary64) : Measures (.real x) x

/- A text that names a suit. -/
def NamesSuit
    (v : Json)
    (s : Suit) : Prop :=
  ∃ name, v = .string name ∧
    Suit.ofKey? name.toList = some s

/- A text that names a rank, or its place as whole number. -/
inductive NamesRank : Json → Rank → Prop where
  | word
      {name : String}
      {r : Rank}
      (hName : Rank.ofKey? name.toList = some r) :
      NamesRank (.string name) r
  | place
      (r : Rank) :
      NamesRank (.whole r.value) r
  | one : NamesRank (.whole 1) .ace

/- A text or a whole number that names some rank. -/
inductive IsRank : Json → Prop where
  | word
      {name : String}
      {r : Rank}
      (hName : Rank.ofKey? name.toList = some r) :
      IsRank (.string name)
  | place
      {n : Int}
      (hLow : 1 ≤ n)
      (hHigh : n ≤ 14) :
      IsRank (.whole n)

theorem string_namesRank_iff
    {name : String}
    {r : Rank} :
    (string name).NamesRank r ↔
      Rank.ofKey? name.toList = some r := by
  refine ⟨fun hNames => ?_, .word⟩
  cases hNames with
  | word hName => exact hName

theorem whole_namesRank_iff
    {n : Int}
    {r : Rank} :
    (whole n).NamesRank r ↔
      n = r.value ∨ n = 1 ∧ r = .ace := by
  constructor
  · intro hNames
    cases hNames with
    | place => exact Or.inl rfl
    | one => exact Or.inr ⟨rfl, rfl⟩
  · rintro (rfl | ⟨rfl, rfl⟩)
    · exact .place r
    · exact .one

theorem exists_countsAs_iff
    {v : Json} :
    (∃ a, v.CountsAs a) ↔ ∃ k, v.Stands k := by
  constructor
  · rintro ⟨a, hCounts⟩
    cases hCounts with
    | whole n => exact ⟨n, .whole n⟩
    | real hStands => exact ⟨_, hStands⟩
  · rintro ⟨k, hStands⟩
    cases hStands with
    | whole => exact ⟨_, .whole k⟩
    | real hUnits => exact ⟨_, .real (.real hUnits)⟩

end Json

/- The places from two to fourteen have a rank each. -/
theorem Rank.exists_value
    {n : Nat}
    (hLow : 2 ≤ n)
    (hHigh : n ≤ 14) :
    ∃ r : Rank, r.value = n := by
  have hAll :
      ∀ k < 15, 2 ≤ k → ∃ r ∈ Rank.all, r.value = k := by
    decide
  rcases hAll n (by omega) hLow with ⟨r, -, hValue⟩
  exact ⟨r, hValue⟩

theorem Json.exists_namesRank_iff
    {v : Json} :
    (∃ r, v.NamesRank r) ↔ v.IsRank := by
  constructor
  · rintro ⟨r, hNames⟩
    cases hNames with
    | word hName => exact .word hName
    | place r =>
        have hPlace : 1 ≤ r.value ∧ r.value ≤ 14 := by
          cases r <;> decide
        exact .place (by omega) (by omega)
    | one => exact .place (by decide) (by decide)
  · intro hRank
    cases hRank with
    | word hName => exact ⟨_, .word hName⟩
    | @place n hLow hHigh =>
        by_cases hOne : n = 1
        · rw [hOne]
          exact ⟨_, .one⟩
        · lift n to Nat using (by omega)
          rcases Rank.exists_value (n := n) (by omega)
            (by omega) with ⟨r, rfl⟩
          exact ⟨r, .place r⟩

------------------------------------------------------------
-- Parameters
------------------------------------------------------------

namespace Params

variable {ps : Params}
variable {key : String}

/-
  What a parameter that may be absent reads as, by what its
  value can be read as.
-/
inductive Reads
    {α : Type}
    (ps : Params)
    (key : String)
    (absent : α)
    (value : Json → α → Prop) : α → Prop where
  | absent
      (hAbsent : ps.lookup key = none) :
      Reads ps key absent value absent
  | present
      {v : Json}
      {a : α}
      (hPresent : ps.lookup key = some v)
      (hValue : value v a) :
      Reads ps key absent value a

/- What a rank parameter reads as; it must be present. -/
def ReadsRank
    (ps : Params)
    (key : String)
    (r : Rank) : Prop :=
  ∃ v, ps.lookup key = some v ∧ v.NamesRank r

section

variable {α : Type}
variable {absent : α}
variable {value : Json → α → Prop}

/- A present parameter must have a value that can be read. -/
theorem exists_reads_iff :
    (∃ a, ps.Reads key absent value a) ↔
      ∀ v, ps.lookup key = some v → ∃ a, value v a := by
  constructor
  · rintro ⟨a, hReads⟩ v hFound
    cases hReads with
    | absent hAbsent =>
        rw [hAbsent] at hFound
        cases hFound
    | present hPresent hValue =>
        rw [hPresent] at hFound
        cases hFound
        exact ⟨a, hValue⟩
  · intro hReadable
    cases hPresent : ps.lookup key with
    | none => exact ⟨absent, .absent hPresent⟩
    | some v =>
        rcases hReadable v hPresent with ⟨a, hValue⟩
        exact ⟨a, .present hPresent hValue⟩

/- A reader reads right if it does so for every value. -/
theorem eq_ok_iff_reads
    {result : Except InertReason α}
    (hAbsent :
      ps.lookup key = none → result = .ok absent)
    (hPresent :
      ∀ v, ps.lookup key = some v →
        ∀ a, result = .ok a ↔ value v a)
    {a : α} :
    result = .ok a ↔ ps.Reads key absent value a := by
  constructor
  · intro hRead
    cases hFound : ps.lookup key with
    | none =>
        rw [hAbsent hFound] at hRead
        cases hRead
        exact .absent hFound
    | some v =>
        exact .present hFound ((hPresent v hFound a).mp hRead)
  · intro hReads
    cases hReads with
    | absent hNone => exact hAbsent hNone
    | present hFound hValue =>
        exact (hPresent _ hFound a).mpr hValue

end

theorem exists_readsRank_iff :
    (∃ r, ps.ReadsRank key r) ↔
      ∃ v, ps.lookup key = some v ∧ v.IsRank := by
  unfold ReadsRank
  rw [exists_comm]
  simp only [exists_and_left, Json.exists_namesRank_iff]

------------------------------------------------------------
-- The Readers
------------------------------------------------------------

/- What a floating-point number is read as. -/
theorem real_countsAs_iff
    {x : Binary64}
    {a : Int} :
    (Json.real x).CountsAs a ↔
      x.isWhole = true ∧ x.truncAmount = a := by
  constructor
  · intro hCounts
    cases hCounts with
    | real hStands =>
        cases hStands with
        | real hUnits =>
            exact ⟨Binary64.isWhole_finite_iff.mpr ⟨_, hUnits⟩,
              Binary64.truncAmount_finite_of_signed hUnits⟩
  · rintro ⟨hWhole, rfl⟩
    cases x with
    | nan => cases hWhole
    | infinite negative => cases hWhole
    | finite negative u hGrid =>
        rcases Binary64.isWhole_finite_iff.mp hWhole with
          ⟨k, hUnits⟩
        rw [Binary64.truncAmount_finite_of_signed hUnits]
        exact .real (.real hUnits)

/- What a whole number is read as. -/
theorem whole_countsAs_iff
    {n a : Int} :
    (Json.whole n).CountsAs a ↔ min n Amount.highest = a := by
  constructor
  · intro hCounts
    cases hCounts
    rfl
  · rintro rfl
    exact .whole n

/- What reading a whole parameter gives. -/
theorem integer_eq_ok_iff
    {a : Int} :
    ps.integer key = .ok a ↔
      ps.Reads key 0 Json.CountsAs a := by
  refine eq_ok_iff_reads (fun hNone => ?_) ?_
  · simp only [integer, hNone]
  · intro v hFound a
    cases v with
    | whole n =>
        rw [whole_countsAs_iff]
        by_cases hHigh : n ≤ Amount.highest
        · simp only [integer, hFound, hHigh, if_true,
            Int.min_eq_left hHigh, Except.ok.injEq]
        · have hBeyond := Int.not_le.mp hHigh
          simp only [integer, hFound, hHigh, if_false,
            Binary64.truncAmount_ofInt_of_highest_lt hBeyond,
            Int.min_eq_right (Int.le_of_lt hBeyond),
            Except.ok.injEq]
    | real x =>
        rw [real_countsAs_iff]
        by_cases hWhole : x.isWhole = true
        · simp only [integer, hFound, hWhole, if_true,
            Except.ok.injEq, true_and]
        · simp only [integer, hFound, hWhole, if_false,
            reduceCtorEq, false_and]
    | _ =>
        simp only [integer, hFound, reduceCtorEq, false_iff]
        exact fun hCounts => nomatch hCounts

/- What reading a number parameter gives. -/
theorem number_eq_ok_iff
    {x : Binary64} :
    ps.number key = .ok x ↔
      ps.Reads key (Binary64.ofInt 1) Json.Measures x := by
  refine eq_ok_iff_reads (fun hNone => ?_) ?_
  · simp only [number, hNone]
  · intro v hFound x
    have hRead :
        ps.number key = .ok x ↔ v.real? = some x := by
      simp only [number, hFound]
      cases v.real? <;> simp
    rw [hRead]
    constructor
    · intro hReal
      cases v with
      | whole n =>
          rw [← Option.some.inj hReal]
          exact .whole n
      | real y =>
          rw [← Option.some.inj hReal]
          exact .real y
      | _ => cases hReal
    · intro hMeasures
      cases hMeasures with
      | whole n => rw [Json.real?]
      | real y => rw [Json.real?]

/- What reading a suit parameter gives. -/
theorem suit_eq_ok_iff
    {s : Suit} :
    ps.suit key = .ok s ↔
      ps.Reads key .spades Json.NamesSuit s := by
  refine eq_ok_iff_reads (fun hNone => ?_) ?_
  · simp only [suit, hNone]
  · intro v hFound s
    cases v with
    | string name =>
        simp only [suit, hFound, Json.NamesSuit,
          Json.string.injEq, exists_eq_left']
        cases Suit.ofKey? name.toList <;> simp
    | _ => simp [suit, hFound, Json.NamesSuit]

/- The places of the ranks, and one for the ace. -/
theorem rankOfWhole?_eq_some_iff
    {n : Int}
    {r : Rank} :
    rankOfWhole? n = some r ↔
      n = r.value ∨ n = 1 ∧ r = .ace := by
  constructor
  · intro hPlace
    unfold rankOfWhole? at hPlace
    split at hPlace
    · rename_i hRange
      lift n to Nat using hRange.1
      rw [Int.toNat_natCast, Rank.ofValue?_eq_some_iff]
        at hPlace
      rcases hPlace with rfl | ⟨rfl, rfl⟩
      · exact Or.inl rfl
      · exact Or.inr ⟨rfl, rfl⟩
    · cases hPlace
  · rintro (rfl | ⟨rfl, rfl⟩)
    · cases r <;> rfl
    · rfl

/- What reading a rank parameter gives. -/
theorem rank_eq_ok_iff
    {r : Rank} :
    ps.rank key = .ok r ↔ ps.ReadsRank key r := by
  unfold ReadsRank
  cases hFound : ps.lookup key with
  | none => simp [rank, hFound]
  | some v =>
      simp only [Option.some.injEq, exists_eq_left']
      cases v with
      | string name =>
          rw [Json.string_namesRank_iff]
          simp only [rank, hFound]
          cases Rank.ofKey? name.toList <;> simp
      | whole n =>
          rw [Json.whole_namesRank_iff,
            ← rankOfWhole?_eq_some_iff]
          simp only [rank, hFound]
          cases rankOfWhole? n <;> simp
      | _ =>
          simp only [rank, hFound, reduceCtorEq, false_iff]
          exact fun hNames => nomatch hNames

end Params

end JokerRun
