import JokerRun.Json.Reader
import JokerRun.Json.Writer

/-
  A whole number is read back as it was written.

  The written digits have no zero in front, so they are read
  as one run; gathering them gives the number, as long as it
  fits into 64 bits.  What follows must not go on with the
  number.

  Key definitions include:
    * `Json.Reader.EndsNumber`

  Key theorems include:
    * `Json.Reader.digitRun_append`
    * `Json.Reader.gather_digits`
    * `Json.Reader.wholeDigits_toDigits`
    * `Json.Reader.number_whole`
-/

------------------------------------------------------------
-- Runs Of Digits
------------------------------------------------------------

namespace JokerRun

namespace Json

namespace Reader

/- A text that does not go on with the number before it. -/
def EndsNumber
    (cs : List Char) : Prop :=
  ∀ c, cs.head? = some c →
    Numeral.digit? c = none ∧ c ≠ '.' ∧ c ≠ 'e' ∧ c ≠ 'E'

/- The value of a character as a decimal digit. -/
def digitValue
    (c : Char) : Nat :=
  c.toNat - '0'.toNat

theorem digit?_of_isDigit
    {c : Char}
    (hDigit : c.isDigit = true) :
    Numeral.digit? c = some (digitValue c) := by
  have hBounds : '0' ≤ c ∧ c ≤ '9' := by
    simp only [Char.isDigit, Bool.and_eq_true,
      decide_eq_true_eq] at hDigit
    exact hDigit
  simp only [Numeral.digit?, hBounds, and_self, if_true]
  rfl

/- The run before a text that is no digit. -/
theorem digitRun_append
    {ds rest : List Char}
    (hDigits : ∀ c ∈ ds, c.isDigit = true)
    (hRest : EndsNumber rest) :
    digitRun (ds ++ rest) = (ds.map digitValue, rest) := by
  induction ds with
  | nil =>
      cases rest with
      | nil => rfl
      | cons c cs =>
          have hNoDigit := (hRest c rfl).1
          simp only [List.nil_append, digitRun, hNoDigit,
            List.map_nil]
  | cons c ds ih =>
      have hHead := hDigits c List.mem_cons_self
      have hTail :=
        ih fun d hMem => hDigits d (List.mem_cons_of_mem c hMem)
      simp only [List.cons_append, digitRun,
        digit?_of_isDigit hHead, hTail, List.map_cons]

------------------------------------------------------------
-- Gathering
------------------------------------------------------------

theorem le_ofDigitChars
    (cs : List Char)
    (n : Nat) :
    n ≤ Nat.ofDigitChars 10 cs n := by
  induction cs generalizing n with
  | nil => simp
  | cons c cs ih =>
      rw [Nat.ofDigitChars_cons]
      have hLater := ih (10 * n + (c.toNat - '0'.toNat))
      omega

/- No digit is left out of a number of 64 bits. -/
theorem gather_digits
    {cs : List Char}
    {n : Nat}
    (hFits : Nat.ofDigitChars 10 cs n ≤ Numeral.largest64) :
    gather n (cs.map digitValue) =
      (Nat.ofDigitChars 10 cs n, 0) := by
  induction cs generalizing n with
  | nil => simp [gather]
  | cons c cs ih =>
      rw [Nat.ofDigitChars_cons] at hFits ⊢
      have hSoFar := le_ofDigitChars cs (10 * n + digitValue c)
      have hFit :
          ¬ Numeral.largest64 < 10 * n + digitValue c :=
        Nat.not_lt.mpr (Nat.le_trans hSoFar hFits)
      simp only [List.map_cons, gather, hFit, if_false]
      exact ih hFits

------------------------------------------------------------
-- Written Digits
------------------------------------------------------------

/- The digits of a positive number do not begin with zero. -/
theorem toDigits_eq_cons
    {n : Nat}
    (hPos : 0 < n) :
    ∃ d ds, Nat.toDigits 10 n = d :: ds ∧ d ≠ '0' := by
  induction n using Nat.strongRecOn with
  | ind n ih =>
      by_cases hSmall : n < 10
      · refine ⟨n.digitChar, [], ?_, ?_⟩
        · exact Nat.toDigits_of_lt_base hSmall
        · rw [ne_eq, Nat.digitChar_eq_zero]
          omega
      · rcases ih (n / 10) (by omega) (by omega) with
          ⟨d, ds, hFront, hNonzero⟩
        refine ⟨d, ds ++ [(n % 10).digitChar], ?_, hNonzero⟩
        rw [Nat.toDigits_of_base_le (by decide) (by omega),
          hFront, List.cons_append]

theorem digitValue_pos
    {c : Char}
    (hDigit : c.isDigit = true)
    (hNonzero : c ≠ '0') :
    0 < digitValue c := by
  simp only [Char.isDigit, Bool.and_eq_true,
    decide_eq_true_eq, ge_iff_le, UInt32.le_iff_toNat_le]
    at hDigit
  have hOther : c.toNat ≠ '0'.toNat := by
    intro hEq
    exact hNonzero (Char.toNat_inj.mp hEq)
  have hLow : '0'.toNat ≤ c.toNat := hDigit.1
  unfold digitValue
  omega

/- Written digits are read as one run. -/
theorem wholeDigits_toDigits
    (n : Nat)
    {rest : List Char}
    (hRest : EndsNumber rest) :
    wholeDigits (Nat.toDigits 10 n ++ rest) =
      some ((Nat.toDigits 10 n).map digitValue, rest) := by
  have hDigits :
      ∀ c ∈ Nat.toDigits 10 n, c.isDigit = true := by
    intro c hMem
    exact Nat.isDigit_of_mem_toDigits (by decide) (by decide)
      hMem
  rw [wholeDigits, digitRun_append hDigits hRest]
  by_cases hZero : n = 0
  · subst hZero
    rfl
  · rcases toDigits_eq_cons (Nat.pos_of_ne_zero hZero) with
      ⟨d, ds, hEq, hNonzero⟩
    rw [hEq] at hDigits ⊢
    have hPos : 0 < digitValue d :=
      digitValue_pos (hDigits d List.mem_cons_self) hNonzero
    rw [List.map_cons]
    cases hValue : digitValue d with
    | zero => omega
    | succ v => rfl

------------------------------------------------------------
-- Whole Numbers
------------------------------------------------------------

theorem fractionDigits_of_endsNumber
    {rest : List Char}
    (hRest : EndsNumber rest) :
    fractionDigits rest = some ([], rest) := by
  unfold fractionDigits
  split
  · exact absurd rfl (hRest '.' rfl).2.1
  · rfl

theorem exponentPart_of_endsNumber
    {rest : List Char}
    (hRest : EndsNumber rest) :
    exponentPart rest = some (none, rest) := by
  unfold exponentPart
  split
  · exact absurd rfl (hRest 'e' rfl).2.2.1
  · exact absurd rfl (hRest 'E' rfl).2.2.2
  · rfl

/- Digits without fraction or exponent are a whole number. -/
theorem unsigned_toDigits
    (negative : Bool)
    {n : Nat}
    (hFits : n ≤ Numeral.largest64)
    {rest : List Char}
    (hRest : EndsNumber rest) :
    unsigned negative (Nat.toDigits 10 n ++ rest) =
      some (wholeValue negative n, rest) := by
  have hGather :
      gather 0 ((Nat.toDigits 10 n).map digitValue) =
        (n, 0) := by
    rw [gather_digits (by rwa [Nat.ofDigitChars_ten_toDigits]),
      Nat.ofDigitChars_ten_toDigits]
  simp only [unsigned, wholeDigits_toDigits n hRest,
    fractionDigits_of_endsNumber hRest,
    exponentPart_of_endsNumber hRest, Lexeme.value, hGather,
    bind, Option.bind_some, pure, List.isEmpty_nil,
    Option.isNone_none, Bool.and_self, and_self, if_true]

/- A number without sign is read as its digits are. -/
theorem number_toDigits
    (n : Nat)
    (rest : List Char) :
    number (Nat.toDigits 10 n ++ rest) =
      unsigned false (Nat.toDigits 10 n ++ rest) := by
  unfold number
  split
  · rename_i hSign
    have hMem : '-' ∈ Nat.toDigits 10 n := by
      rcases List.append_eq_cons_iff.mp hSign with
        ⟨hNil, -⟩ | ⟨ds, hDigits, -⟩
      · exact absurd hNil Nat.toDigits_ne_nil
      · rw [hDigits]
        exact List.mem_cons_self
    have hDigit : '-'.isDigit = true :=
      Nat.isDigit_of_mem_toDigits (by decide) (by decide) hMem
    contradiction
  · rfl

/- A whole number in range is read back as it was written. -/
theorem number_whole
    {n : Int}
    (hLow : lowestWhole ≤ n)
    (hHigh : n ≤ highestWhole)
    {rest : List Char}
    (hRest : EndsNumber rest) :
    number (Writer.whole n ++ rest) = some (.whole n, rest) := by
  unfold lowestWhole at hLow
  unfold highestWhole at hHigh
  have hFits : n.natAbs ≤ Numeral.largest64 := by
    unfold Numeral.largest64
    omega
  unfold Writer.whole
  rw [Nat.toList_repr]
  by_cases hNegative : n < 0
  · have hKept :
        ¬ (n.natAbs = 0 ∨
          wholeValue.highestMagnitude < n.natAbs) := by
      unfold wholeValue.highestMagnitude
      omega
    have hBack : -(n.natAbs : Int) = n := by
      omega
    simp only [hNegative, if_true, List.cons_append, number,
      unsigned_toDigits true hFits hRest, wholeValue, hKept,
      if_false, hBack]
  · have hBack : (n.natAbs : Int) = n := by
      omega
    simp only [hNegative, if_false, number_toDigits,
      unsigned_toDigits false hFits hRest, wholeValue, hBack,
      Bool.false_eq_true]

end Reader

end Json

end JokerRun
