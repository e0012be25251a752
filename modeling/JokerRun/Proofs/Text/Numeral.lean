import JokerRun.Proofs.Json.Numbers

/-
  Which texts are numerals.

  Reading a numeral stops at the first character that is no
  digit and at the first digit that leads past the bound.
  Digits only ever add to a value, so the reading succeeds
  exactly for an optional plus sign and at least one digit
  of a value up to the bound, however many zeros come first.

  Key definitions include:
    * `Numeral.Spells`
    * `Numeral.Denotes`

  Key theorems include:
    * `Numeral.digits_eq_ok_iff`
    * `Numeral.read_eq_ok_iff`
    * `Numeral.read?_eq_some_iff`
-/

------------------------------------------------------------
-- Digits
------------------------------------------------------------

namespace JokerRun

namespace Numeral

/- A numeral of any size, and its value. -/
def Spells
    (cs : List Char)
    (n : Nat) : Prop :=
  ∃ ds, (cs = ds ∨ cs = '+' :: ds) ∧ ds ≠ [] ∧
    (∀ c ∈ ds, c.isDigit = true) ∧
    Nat.ofDigitChars 10 ds 0 = n

/- A numeral up to a bound, and its value. -/
def Denotes
    (bound : Nat)
    (cs : List Char)
    (n : Nat) : Prop :=
  ∃ ds, (cs = ds ∨ cs = '+' :: ds) ∧ ds ≠ [] ∧
    (∀ c ∈ ds, c.isDigit = true) ∧
    Nat.ofDigitChars 10 ds 0 = n ∧ n ≤ bound

section

variable {bound n : Nat}
variable {cs : List Char}

theorem denotes_iff :
    Denotes bound cs n ↔ Spells cs n ∧ n ≤ bound := by
  constructor
  · rintro ⟨ds, hText, hSome, hDigits, hValue, hBound⟩
    exact ⟨⟨ds, hText, hSome, hDigits, hValue⟩, hBound⟩
  · rintro ⟨⟨ds, hText, hSome, hDigits, hValue⟩, hBound⟩
    exact ⟨ds, hText, hSome, hDigits, hValue, hBound⟩

/- A numeral starts with a digit or with the sign. -/
theorem Spells.exists_cons
    (hSpells : Spells cs n) :
    ∃ c rest, cs = c :: rest ∧
      (c.isDigit = true ∨ c = '+') := by
  rcases hSpells with ⟨ds, rfl | rfl, hSome, hDigits, -⟩
  · rcases List.exists_cons_of_ne_nil hSome with
      ⟨c, rest, rfl⟩
    exact ⟨c, rest, rfl,
      Or.inl (hDigits c List.mem_cons_self)⟩
  · exact ⟨'+', ds, rfl, Or.inr rfl⟩

/- All of its characters are digits or the sign. -/
theorem Spells.forall_mem
    (hSpells : Spells cs n) :
    ∀ c ∈ cs, c.isDigit = true ∨ c = '+' := by
  rcases hSpells with ⟨ds, rfl | rfl, -, hDigits, -⟩
  · exact fun c hMem => Or.inl (hDigits c hMem)
  · exact List.forall_mem_cons.mpr
      ⟨Or.inr rfl, fun c hMem => Or.inl (hDigits c hMem)⟩

theorem digit?_eq_none
    {c : Char}
    (hOther : ¬ c.isDigit = true) :
    digit? c = none := by
  have hBounds : ¬ ('0' ≤ c ∧ c ≤ '9') := by
    intro hBounds
    apply hOther
    simp only [Char.isDigit, Bool.and_eq_true,
      decide_eq_true_eq]
    exact hBounds
  rw [digit?, if_neg hBounds]

/- Appending digits to a value that is within the bound. -/
theorem digits_eq_ok_iff
    {value : Nat}
    (hFits : value ≤ bound) :
    digits bound value cs = .ok n ↔
      (∀ c ∈ cs, c.isDigit = true) ∧
        Nat.ofDigitChars 10 cs value = n ∧ n ≤ bound := by
  induction cs generalizing value with
  | nil =>
      constructor
      · intro hRead
        cases hRead
        exact ⟨fun c hMem => absurd hMem List.not_mem_nil,
          Nat.ofDigitChars_nil, hFits⟩
      · rintro ⟨-, hValue, -⟩
        rw [Nat.ofDigitChars_nil] at hValue
        rw [digits, hValue]
  | cons c cs ih =>
      by_cases hDigit : c.isDigit = true
      · have hStep :=
          Json.Reader.digit?_of_isDigit hDigit
        have hLater :=
          Json.Reader.le_ofDigitChars cs
            (10 * value + Json.Reader.digitValue c)
        simp only [digits, hStep, List.forall_mem_cons,
          hDigit, true_and]
        rw [Nat.ofDigitChars_cons]
        by_cases hPast :
            bound < 10 * value + Json.Reader.digitValue c
        · -- The value only grows from here on.
          rw [if_pos hPast]
          constructor
          · intro hRead
            cases hRead
          · rintro ⟨-, rfl, hBound⟩
            exact absurd (Nat.le_trans hLater hBound)
              (Nat.not_le.mpr hPast)
        · rw [if_neg hPast]
          exact ih (Nat.not_lt.mp hPast)
      · constructor
        · intro hRead
          rw [digits, digit?_eq_none hDigit] at hRead
          cases hRead
        · rintro ⟨hAll, -⟩
          exact absurd (hAll c List.mem_cons_self) hDigit

------------------------------------------------------------
-- Numerals
------------------------------------------------------------

theorem not_isDigit_plus :
    ¬ '+'.isDigit = true := by
  decide

/- A sign is no part of the digits. -/
theorem denotes_plus_iff :
    Denotes bound ('+' :: cs) n ↔
      cs ≠ [] ∧ (∀ c ∈ cs, c.isDigit = true) ∧
        Nat.ofDigitChars 10 cs 0 = n ∧ n ≤ bound := by
  constructor
  · rintro ⟨ds, rfl | hSigned, hSome, hDigits, hValue⟩
    · exact absurd (hDigits '+' List.mem_cons_self)
        not_isDigit_plus
    · cases hSigned
      exact ⟨hSome, hDigits, hValue⟩
  · rintro ⟨hSome, hDigits, hValue⟩
    exact ⟨cs, Or.inr rfl, hSome, hDigits, hValue⟩

theorem denotes_unsigned_iff
    (hUnsigned : ∀ ds, cs ≠ '+' :: ds) :
    Denotes bound cs n ↔
      cs ≠ [] ∧ (∀ c ∈ cs, c.isDigit = true) ∧
        Nat.ofDigitChars 10 cs 0 = n ∧ n ≤ bound := by
  constructor
  · rintro ⟨ds, rfl | hSigned, hSome, hDigits, hValue⟩
    · exact ⟨hSome, hDigits, hValue⟩
    · exact absurd hSigned (hUnsigned ds)
  · rintro ⟨hSome, hDigits, hValue⟩
    exact ⟨cs, Or.inl rfl, hSome, hDigits, hValue⟩

/- Exactly the numerals up to the bound are read. -/
theorem read_eq_ok_iff :
    read bound cs = .ok n ↔ Denotes bound cs n := by
  have hDigits (ds : List Char) :
      digits bound 0 ds = .ok n ↔
        (∀ c ∈ ds, c.isDigit = true) ∧
          Nat.ofDigitChars 10 ds 0 = n ∧ n ≤ bound :=
    digits_eq_ok_iff (Nat.zero_le bound)
  unfold read
  split
  case h_1 =>
    rw [denotes_unsigned_iff fun ds hSigned => by
      cases hSigned]
    simp
  case h_2 =>
    rw [denotes_plus_iff]
    simp
  case h_3 c cs =>
    rw [denotes_plus_iff, hDigits]
    simp
  case h_4 hEmpty hLone hSigned =>
    have hUnsigned : ∀ ds, cs ≠ '+' :: ds := by
      intro ds hSame
      cases ds with
      | nil => exact hLone hSame
      | cons d ds => exact hSigned d ds hSame
    have hSome : cs ≠ [] := hEmpty
    rw [denotes_unsigned_iff hUnsigned, hDigits,
      and_iff_right hSome]

theorem read?_eq_some_iff :
    read? bound cs = some n ↔ Denotes bound cs n := by
  rw [← read_eq_ok_iff, read?]
  cases read bound cs with
  | error e => simp [Except.toOption]
  | ok m => simp [Except.toOption]

end

end Numeral

end JokerRun
