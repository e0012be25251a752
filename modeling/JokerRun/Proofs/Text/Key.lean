import JokerRun.Text.Key

/-
  Keys in lower case.

  The lower case of a text is looked at only to find out
  whether it is one of the keys, and keys are written with
  ASCII characters and the symbols of the suits.  The lower
  case of any other character, the Kelvin sign apart, keeps
  a character that stands in no key.  So a key is known by
  what happens to its own characters, whatever the lower
  case of all others is.

  Key definitions include:
    * `Text.isKeySign`
    * `Text.Lowers`

  Key theorems include:
    * `Text.lowers_map_lowerKey`
    * `Text.Lowers.eq_iff`
    * `Text.Lowers.congr`
-/

------------------------------------------------------------
-- Lower Case
------------------------------------------------------------

namespace JokerRun

namespace Text

/- A character that a key may have. -/
def isKeySign
    (c : Char) : Bool :=
  decide (c.toNat < 128) || ['♠', '♥', '♣', '♦'].contains c

/-
  A text and its lower case, as far as keys are concerned.
  A character outside of keys may become several ones, and
  which ones may depend on its place in the text.
-/
inductive Lowers : List Char → List Char → Prop where
  | nil : Lowers [] []
  | capital
      {c : Char}
      {cs ks : List Char}
      (hCapital : 'A' ≤ c ∧ c ≤ 'Z')
      (hRest : Lowers cs ks) :
      Lowers (c :: cs) (Char.ofNat (c.toNat + 32) :: ks)
  | kelvin
      {cs ks : List Char}
      (hRest : Lowers cs ks) :
      Lowers ('\u212a' :: cs) ('k' :: ks)
  | kept
      {c : Char}
      {cs ks : List Char}
      (hSign : isKeySign c = true)
      (hOther : ¬ ('A' ≤ c ∧ c ≤ 'Z'))
      (hRest : Lowers cs ks) :
      Lowers (c :: cs) (c :: ks)
  | foreign
      {c : Char}
      {v cs ks : List Char}
      (hForeign : isKeySign c = false)
      (hOther : c ≠ '\u212a')
      (hStays : ∃ d ∈ v, isKeySign d = false)
      (hRest : Lowers cs ks) :
      Lowers (c :: cs) (v ++ ks)

/- The characters of ASCII stand in keys. -/
theorem isKeySign_of_lt
    {c : Char}
    (hAscii : c.toNat < 128) :
    isKeySign c = true := by
  rw [isKeySign, decide_eq_true hAscii, Bool.true_or]

theorem isKeySign_of_isDigit
    {c : Char}
    (hDigit : c.isDigit = true) :
    isKeySign c = true := by
  simp only [Char.isDigit, Bool.and_eq_true,
    decide_eq_true_eq] at hDigit
  have hBound : c.toNat ≤ '9'.toNat := hDigit.2
  exact isKeySign_of_lt (Nat.lt_of_le_of_lt hBound (by decide))

theorem isKeySign_of_capital
    {c : Char}
    (hCapital : 'A' ≤ c ∧ c ≤ 'Z') :
    isKeySign c = true := by
  have hBound : c.toNat ≤ 'Z'.toNat := hCapital.2
  exact isKeySign_of_lt (Nat.lt_of_le_of_lt hBound (by decide))

theorem lowerKey_of_capital
    {c : Char}
    (hCapital : 'A' ≤ c ∧ c ≤ 'Z') :
    lowerKey c = Char.ofNat (c.toNat + 32) := by
  rw [lowerKey, if_pos hCapital]

theorem lowerKey_of_other
    {c : Char}
    (hCapital : ¬ ('A' ≤ c ∧ c ≤ 'Z'))
    (hKelvin : c ≠ '\u212a') :
    lowerKey c = c := by
  rw [lowerKey, if_neg hCapital, if_neg hKelvin]

theorem ne_kelvin_of_isKeySign
    {c : Char}
    (hSign : isKeySign c = true) :
    c ≠ '\u212a' := by
  rintro rfl
  exact absurd hSign (by decide)

/- The normal form of keys is such a lower case. -/
theorem lowers_map_lowerKey
    (cs : List Char) :
    Lowers cs (cs.map lowerKey) := by
  induction cs with
  | nil => exact .nil
  | cons c cs ih =>
      rw [List.map_cons]
      by_cases hCapital : 'A' ≤ c ∧ c ≤ 'Z'
      · rw [lowerKey_of_capital hCapital]
        exact .capital hCapital ih
      · by_cases hKelvin : c = '\u212a'
        · subst hKelvin
          exact .kelvin ih
        · rw [lowerKey_of_other hCapital hKelvin]
          cases hSign : isKeySign c with
          | true => exact .kept hSign hCapital ih
          | false =>
              exact .foreign (v := [c]) hSign hKelvin
                ⟨c, List.mem_singleton_self c, hSign⟩ ih

------------------------------------------------------------
-- Keys
------------------------------------------------------------

section

variable {cs ks : List Char}

/- Texts that agree about keys still do behind a character. -/
theorem cons_eq_key_iff
    {ls w : List Char}
    (hRest :
      ∀ {v}, (∀ c ∈ v, isKeySign c = true) →
        (ks = v ↔ ls = v))
    (hSigns : ∀ c ∈ w, isKeySign c = true)
    (d : Char) :
    d :: ks = w ↔ d :: ls = w := by
  cases w with
  | nil => simp only [reduceCtorEq]
  | cons e v =>
      rw [List.cons.injEq, List.cons.injEq,
        hRest (List.forall_mem_cons.mp hSigns).2]

/- All lower cases of a text agree about a key. -/
theorem Lowers.eq_iff
    (hLowers : Lowers cs ks)
    {w : List Char}
    (hSigns : ∀ c ∈ w, isKeySign c = true) :
    ks = w ↔ cs.map lowerKey = w := by
  induction hLowers generalizing w with
  | nil => exact Iff.rfl
  | capital hCapital hRest ih =>
      rw [List.map_cons, lowerKey_of_capital hCapital]
      exact cons_eq_key_iff ih hSigns _
  | kelvin hRest ih => exact cons_eq_key_iff ih hSigns _
  | kept hSign hOther hRest ih =>
      rw [List.map_cons, lowerKey_of_other hOther
        (ne_kelvin_of_isKeySign hSign)]
      exact cons_eq_key_iff ih hSigns _
  | @foreign c v cs ks hForeign hOther hStays hRest ih =>
      -- Neither of the two texts is a key.
      have hCapital : ¬ ('A' ≤ c ∧ c ≤ 'Z') := by
        intro hCapital
        rw [isKeySign_of_capital hCapital] at hForeign
        cases hForeign
      rw [List.map_cons, lowerKey_of_other hCapital hOther]
      constructor
      · rintro rfl
        rcases hStays with ⟨d, hMem, hNoSign⟩
        rw [hSigns d (List.mem_append_left ks hMem)] at hNoSign
        cases hNoSign
      · rintro rfl
        rw [hSigns c List.mem_cons_self] at hForeign
        cases hForeign

/- They agree about whatever holds of keys alone. -/
theorem Lowers.congr
    (hLowers : Lowers cs ks)
    {P : List Char → Prop}
    (hKeys : ∀ w, P w → ∀ c ∈ w, isKeySign c = true) :
    P ks ↔ P (cs.map lowerKey) := by
  constructor
  · intro hKey
    have hSame := (hLowers.eq_iff (hKeys ks hKey)).mp rfl
    rw [hSame]
    exact hKey
  · intro hKey
    have hSame := (hLowers.eq_iff (hKeys _ hKey)).mpr rfl
    rw [hSame]
    exact hKey

end

end Text

end JokerRun
