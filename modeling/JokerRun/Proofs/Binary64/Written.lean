import JokerRun.Binary64.Layout
import JokerRun.Proofs.Binary64.Shortest
import JokerRun.Proofs.Json.Numbers

/-
  A written number names the number that it was written for.

  Both forms show the digits of a decimal that rounds to the
  number.  Where the point stands, how many zeros there are
  and whether an exponent follows changes neither the digits
  nor their place, so a text that is read with one rounding
  gives the number back, with its sign.

  Key definitions include:
    * `Decimal.PointedAs`
    * `Binary64.EndsDigits`
    * `Binary64.readEnd?`

  Key theorems include:
    * `Binary64.readMagnitude?_digits`
    * `Binary64.readMagnitude?_point`
    * `Binary64.readMagnitude?_positional`
    * `Binary64.readMagnitude?_scientific`
    * `Binary64.read?_of_readMagnitude?`
    * `Binary64.read?_plain` and `Binary64.plain_injective`
    * `Binary64.read?_recorded`
-/

------------------------------------------------------------
-- Digits
------------------------------------------------------------

namespace JokerRun

namespace Decimal

theorem isDigit_figures
    (n : Nat) :
    ∀ c ∈ figures n, c.isDigit = true := by
  intro c hMem
  rw [figures, Nat.toList_repr] at hMem
  exact Nat.isDigit_of_mem_toDigits (by decide) (by decide)
    hMem

theorem isDigit_zeros
    (n : Nat) :
    ∀ c ∈ zeros n, c.isDigit = true := by
  intro c hMem
  rw [List.eq_of_mem_replicate hMem]
  rfl

/- The digits of a number are worth this number. -/
theorem ofDigitChars_figures
    (n : Nat) :
    Nat.ofDigitChars 10 (figures n) 0 = n := by
  rw [figures, Nat.toList_repr, Nat.ofDigitChars_ten_toDigits]

theorem ofDigitChars_zeros
    (k n : Nat) :
    Nat.ofDigitChars 10 (zeros k) n = 10 ^ k * n :=
  Nat.ofDigitChars_replicate_zero

/- Digits with zeros after them. -/
theorem ofDigitChars_figures_zeros
    (n k : Nat) :
    Nat.ofDigitChars 10 (figures n ++ zeros k) 0 =
      n * 10 ^ k := by
  rw [Nat.ofDigitChars_append, ofDigitChars_figures,
    ofDigitChars_zeros, Nat.mul_comm]

/- Digits with zeros before them. -/
theorem ofDigitChars_zeros_figures
    (n k : Nat) :
    Nat.ofDigitChars 10 (zeros k ++ figures n) 0 = n := by
  rw [Nat.ofDigitChars_append, ofDigitChars_zeros,
    Nat.mul_zero, ofDigitChars_figures]

theorem length_zeros
    (k : Nat) :
    (zeros k).length = k :=
  List.length_replicate

theorem figures_ne_nil
    (n : Nat) :
    figures n ≠ [] := by
  rw [figures, Nat.toList_repr]
  exact Nat.toDigits_ne_nil

/- A decimal whose positional form has a point. -/
structure PointedAs
    (x : Decimal)
    (ds fs : List Char) : Prop where
  text : x.positional = ds ++ '.' :: fs
  front : ds ≠ []
  digits : ∀ c ∈ ds ++ fs, c.isDigit = true
  worth : Nat.ofDigitChars 10 (ds ++ fs) 0 = x.digits
  places : x.exponent = -(fs.length : Int)

/- The point stands among the digits. -/
theorem pointedAs_inside
    {n k : Nat}
    (hInside : k + 1 < (figures n).length) :
    PointedAs ⟨n, .negSucc k⟩
      ((figures n).take ((figures n).length - (k + 1)))
      ((figures n).drop ((figures n).length - (k + 1))) where
  text := if_pos hInside
  front := by
    rw [ne_eq, ← List.length_eq_zero_iff, List.length_take]
    omega
  digits := by
    rw [List.take_append_drop]
    exact isDigit_figures n
  worth := by
    rw [List.take_append_drop, ofDigitChars_figures]
  places := by
    change Int.negSucc k = _
    rw [List.length_drop]
    omega

/- All digits stand behind the point. -/
theorem pointedAs_outside
    {n k : Nat}
    (hOutside : ¬ k + 1 < (figures n).length) :
    PointedAs ⟨n, .negSucc k⟩ (zeros 1)
      (zeros (k + 1 - (figures n).length) ++ figures n) where
  text := if_neg hOutside
  front := List.cons_ne_nil _ _
  digits :=
    List.forall_mem_append.mpr
      ⟨isDigit_zeros 1,
        List.forall_mem_append.mpr
          ⟨isDigit_zeros _, isDigit_figures n⟩⟩
  worth := by
    rw [Nat.ofDigitChars_append, ofDigitChars_zeros,
      Nat.mul_zero, ofDigitChars_zeros_figures]
  places := by
    change Int.negSucc k = _
    rw [List.length_append, length_zeros]
    omega

theorem exists_pointedAs
    (n k : Nat) :
    ∃ ds fs, PointedAs ⟨n, .negSucc k⟩ ds fs := by
  by_cases hInside : k + 1 < (figures n).length
  · exact ⟨_, _, pointedAs_inside hInside⟩
  · exact ⟨_, _, pointedAs_outside hInside⟩

end Decimal

namespace Binary64

/- A text that does not begin with a digit. -/
def EndsDigits
    (cs : List Char) : Prop :=
  ∀ c, cs.head? = some c → Numeral.digit? c = none

theorem endsDigits_nil : EndsDigits [] := by
  intro c hHead
  cases hHead

/- A run of digits, and what stands after it. -/
theorem digitRun_append
    {ds rest : List Char}
    (hDigits : ∀ c ∈ ds, c.isDigit = true)
    (hRest : EndsDigits rest)
    (value count : Nat) :
    digitRun value count (ds ++ rest) =
      (Nat.ofDigitChars 10 ds value, count + ds.length,
        rest) := by
  induction ds generalizing value count with
  | nil =>
      rw [List.nil_append, Nat.ofDigitChars_nil]
      cases rest with
      | nil => rfl
      | cons c cs =>
          simp only [digitRun, hRest c rfl]
          rfl
  | cons c ds ih =>
      rcases List.forall_mem_cons.mp hDigits with
        ⟨hHead, hTail⟩
      simp only [List.cons_append, digitRun,
        Json.Reader.digit?_of_isDigit hHead, ih hTail,
        Nat.ofDigitChars_cons, List.length_cons,
        Nat.add_right_comm, Nat.add_assoc]
      rfl

------------------------------------------------------------
-- Unsigned Texts
------------------------------------------------------------

/- What the text after all digits makes of them. -/
def readEnd?
    (negative : Bool)
    (digits places : Nat) : List Char → Option Binary64
  | [] => some (ofDecimal negative digits (-(places : Int)))
  | e :: cs =>
      if e = 'e' ∨ e = 'E' then
        (readExponent? cs).map fun x =>
          ofDecimal negative digits (x - (places : Int))
      else
        none

section

variable {ds fs rest : List Char}

/- Digits without a point. -/
theorem readMagnitude?_digits
    (negative : Bool)
    (hSome : ds ≠ [])
    (hDigits : ∀ c ∈ ds, c.isDigit = true)
    (hRest : EndsDigits rest)
    (hNoPoint : rest.head? ≠ some '.') :
    readMagnitude? negative (ds ++ rest) =
      readEnd? negative (Nat.ofDigitChars 10 ds 0) 0 rest := by
  have hCount := List.length_pos_of_ne_nil hSome
  unfold readMagnitude?
  rw [digitRun_append hDigits hRest]
  dsimp only
  split
  case h_1 => exact absurd rfl hNoPoint
  case h_2 =>
    dsimp only
    rw [if_neg (by omega)]
    cases rest <;> rfl

/- Digits on both sides of a point. -/
theorem readMagnitude?_point
    (negative : Bool)
    (hSome : ds ≠ [])
    (hDigits : ∀ c ∈ ds, c.isDigit = true)
    (hPlaces : ∀ c ∈ fs, c.isDigit = true)
    (hRest : EndsDigits rest) :
    readMagnitude? negative (ds ++ '.' :: (fs ++ rest)) =
      readEnd? negative (Nat.ofDigitChars 10 (ds ++ fs) 0)
        fs.length rest := by
  have hCount := List.length_pos_of_ne_nil hSome
  have hPoint : EndsDigits ('.' :: (fs ++ rest)) := by
    intro c hHead
    cases hHead
    decide
  unfold readMagnitude?
  rw [digitRun_append hDigits hPoint]
  dsimp only
  split
  case h_1 cs hSame =>
    cases hSame
    rw [digitRun_append hPlaces hRest,
      Nat.ofDigitChars_append]
    dsimp only
    rw [if_neg (by omega), Nat.zero_add]
    cases rest <;> rfl
  case h_2 hNoPoint => exact absurd rfl (hNoPoint _)

/- Digits without a point, and nothing after them. -/
theorem readMagnitude?_alone
    (negative : Bool)
    (hFront : ds ≠ [])
    (hDigits : ∀ c ∈ ds, c.isDigit = true) :
    readMagnitude? negative ds =
      some (ofDecimal negative (Nat.ofDigitChars 10 ds 0) 0) := by
  have hRead :=
    readMagnitude?_digits negative hFront hDigits
      endsDigits_nil (Option.some_ne_none '.').symm
  rw [List.append_nil] at hRead
  exact hRead

/- Digits on both sides of a point, and nothing after them. -/
theorem readMagnitude?_around
    (negative : Bool)
    (hFront : ds ≠ [])
    (hDigits : ∀ c ∈ ds ++ fs, c.isDigit = true) :
    readMagnitude? negative (ds ++ '.' :: fs) =
      some
        (ofDecimal negative (Nat.ofDigitChars 10 (ds ++ fs) 0)
          (-(fs.length : Int))) := by
  rcases List.forall_mem_append.mp hDigits with
    ⟨hWhole, hPlaces⟩
  have hRead :=
    readMagnitude?_point negative hFront hWhole hPlaces
      endsDigits_nil
  rw [List.append_nil] at hRead
  exact hRead

/- A text that begins otherwise is no magnitude. -/
theorem readMagnitude?_eq_none
    (negative : Bool)
    {c : Char}
    {cs : List Char}
    (hOther : Numeral.digit? c = none)
    (hNoPoint : c ≠ '.') :
    readMagnitude? negative (c :: cs) = none := by
  have hEnds : EndsDigits (c :: cs) := by
    intro d hHead
    cases hHead
    exact hOther
  have hNone : ∀ d ∈ [], Char.isDigit d = true :=
    List.forall_mem_nil _
  have hRun := digitRun_append hNone hEnds 0 0
  unfold readMagnitude?
  rw [List.nil_append] at hRun
  rw [hRun]
  dsimp only
  split
  case h_1 cs' hSame =>
    cases hSame
    exact absurd rfl hNoPoint
  case h_2 => rfl

end

------------------------------------------------------------
-- Names And Signs
------------------------------------------------------------

/- The first letter of a special value begins no decimal. -/
theorem not_decimal_of_toLower
    {c : Char}
    (hLetter : c.toLower = 'n' ∨ c.toLower = 'i') :
    Numeral.digit? c = none ∧ c ≠ '.' := by
  by_cases hUpper : c.val ≥ 'A'.val ∧ c.val ≤ 'Z'.val
  · have hAbove : ¬ c ≤ '9' := by
      intro hDigit
      exact absurd (Nat.le_trans hUpper.1 hDigit) (by decide)
    constructor
    · rw [Numeral.digit?, if_neg fun hBounds =>
        hAbove hBounds.2]
    · rintro rfl
      exact absurd hUpper (by decide)
  · have hSame : c.toLower = c := dif_neg hUpper
    rw [hSame] at hLetter
    rcases hLetter with rfl | rfl <;> decide

/- So no special value is taken for a decimal. -/
theorem readMagnitude?_of_name
    (negative : Bool)
    {cs : List Char}
    {w : String}
    (hName : String.ofList (cs.map Char.toLower) = w)
    (hLetter :
      w.toList.head? = some 'n' ∨ w.toList.head? = some 'i') :
    readMagnitude? negative cs = none := by
  rw [← hName, String.toList_ofList, List.head?_map]
    at hLetter
  cases cs with
  | nil => rcases hLetter with hNone | hNone <;> cases hNone
  | cons c cs =>
      simp only [List.head?_cons, Option.map_some,
        Option.some.injEq] at hLetter
      rcases not_decimal_of_toLower hLetter with
        ⟨hOther, hNoPoint⟩
      exact readMagnitude?_eq_none negative hOther hNoPoint

theorem readUnsigned?_of_readMagnitude?
    {negative : Bool}
    {cs : List Char}
    {x : Binary64}
    (hRead : readMagnitude? negative cs = some x) :
    readUnsigned? negative cs = some x := by
  have hNoName (w : String)
      (hName : String.ofList (cs.map Char.toLower) = w)
      (hLetter :
        w.toList.head? = some 'n' ∨
          w.toList.head? = some 'i') : False := by
    rw [readMagnitude?_of_name negative hName hLetter] at hRead
    cases hRead
  unfold readUnsigned?
  split
  case h_1 hName => exact (hNoName _ hName (Or.inl rfl)).elim
  case h_2 hName => exact (hNoName _ hName (Or.inr rfl)).elim
  case h_3 hName => exact (hNoName _ hName (Or.inr rfl)).elim
  case h_4 => exact hRead

/- A magnitude is read with the sign before it. -/
theorem read?_of_readMagnitude?
    {negative : Bool}
    {cs : List Char}
    {x : Binary64}
    (hRead : readMagnitude? negative cs = some x) :
    read? (minus negative ++ String.ofList cs) = some x := by
  have hUnsigned := readUnsigned?_of_readMagnitude? hRead
  unfold read?
  rw [String.toList_append, String.toList_ofList]
  cases negative with
  | true => exact hUnsigned
  | false =>
      have hNoSign : (minus false).toList = [] := rfl
      rw [hNoSign, List.nil_append]
      split
      case h_1 r =>
        rw [readMagnitude?_eq_none false (by decide)
          (by decide)] at hRead
        cases hRead
      case h_2 r =>
        rw [readMagnitude?_eq_none false (by decide)
          (by decide)] at hRead
        cases hRead
      case h_3 => exact hUnsigned

------------------------------------------------------------
-- Positional Form
------------------------------------------------------------

section

open Decimal

variable {u : Nat}
variable {x : Decimal}

/- Wherever the point stands, the number is the same one. -/
theorem readMagnitude?_positional
    (negative : Bool)
    (hGrid : OnGrid u)
    (hSome : u ≠ 0)
    (hRounds : Rounds u x.digits x.exponent) :
    readMagnitude? negative x.positional =
      some (.finite negative u hGrid) := by
  rcases x with ⟨n, k | k⟩
  · change readMagnitude? negative (figures n ++ zeros k) = _
    have hFront : figures n ++ zeros k ≠ [] :=
      List.append_ne_nil_of_left_ne_nil (figures_ne_nil n) _
    have hDigits : ∀ c ∈ figures n ++ zeros k, c.isDigit = true :=
      List.forall_mem_append.mpr
        ⟨isDigit_figures n, isDigit_zeros k⟩
    rw [readMagnitude?_alone negative hFront hDigits,
      ofDigitChars_figures_zeros,
      ofDecimal_of_rounds negative hGrid hSome
        (rounds_natCast_iff.mp hRounds)]
  · rcases exists_pointedAs n k with ⟨ds, fs, hPointed⟩
    rw [hPointed.text,
      readMagnitude?_around negative hPointed.front
        hPointed.digits,
      hPointed.worth, ← hPointed.places,
      ofDecimal_of_rounds negative hGrid hSome hRounds]

------------------------------------------------------------
-- Form With An Exponent
------------------------------------------------------------

/- An exponent with its sign. -/
def signedFigures
    (z : Int) : List Char :=
  (if z < 0 then '-' else '+') :: figures z.natAbs

/- A signed exponent is read as it was written. -/
theorem readExponent?_signed
    (z : Int) :
    readExponent? (signedFigures z) = some z := by
  have hRun :
      digitRun 0 0 (figures z.natAbs) =
        (z.natAbs, (figures z.natAbs).length, []) := by
    have hAll :=
      digitRun_append (isDigit_figures z.natAbs)
        endsDigits_nil 0 0
    rw [List.append_nil, ofDigitChars_figures, Nat.zero_add]
      at hAll
    exact hAll
  have hCount : (figures z.natAbs).length ≠ 0 :=
    Nat.ne_zero_of_lt
      (List.length_pos_of_ne_nil (figures_ne_nil _))
  unfold signedFigures
  by_cases hNegative : z < 0
  · rw [if_pos hNegative]
    unfold readExponent?
    split
    rename_i sign ds hSign
    cases hSign
    rw [hRun]
    exact (if_neg hCount).trans (congrArg some (by omega))
  · rw [if_neg hNegative]
    unfold readExponent?
    split
    rename_i sign ds hSign
    cases hSign
    rw [hRun]
    exact (if_neg hCount).trans (congrArg some (by omega))

/- A text that ends with an exponent. -/
theorem readEnd?_signed
    (negative : Bool)
    (digits places : Nat)
    (z : Int) :
    readEnd? negative digits places ('e' :: signedFigures z) =
      some (ofDecimal negative digits (z - (places : Int))) := by
  rw [readEnd?, if_pos (Or.inl rfl), readExponent?_signed,
    Option.map_some]

theorem endsDigits_exponent
    (cs : List Char) :
    EndsDigits ('e' :: cs) := by
  intro c hHead
  cases hHead
  decide

theorem exponent_ne_point
    (cs : List Char) :
    ('e' :: cs).head? ≠ some '.' := by
  intro hHead
  exact absurd (Option.some.inj hHead) (by decide)

/- One digit, or several of them around a point. -/
theorem readMagnitude?_mantissa
    (negative : Bool)
    {d : Char}
    {ds : List Char}
    (hDigits : ∀ c ∈ d :: ds, c.isDigit = true)
    (z : Int) :
    readMagnitude? negative
        ((match d :: ds with
          | [] => []
          | [d] => [d]
          | d :: ds => d :: '.' :: ds) ++
            'e' :: signedFigures z) =
      some
        (ofDecimal negative (Nat.ofDigitChars 10 (d :: ds) 0)
          (z - (ds.length : Int))) := by
  rw [← readEnd?_signed]
  cases ds with
  | nil =>
      exact readMagnitude?_digits negative
        (List.cons_ne_nil d []) hDigits
        (endsDigits_exponent _) (exponent_ne_point _)
  | cons d' ds =>
      rcases List.forall_mem_cons.mp hDigits with
        ⟨hFirst, hOthers⟩
      have hFront : ∀ c ∈ [d], c.isDigit = true :=
        List.forall_mem_singleton.mpr hFirst
      exact readMagnitude?_point negative
        (List.cons_ne_nil d []) hFront hOthers
        (endsDigits_exponent _)

/- A form with an exponent stands for the same number. -/
theorem readMagnitude?_scientific
    (negative : Bool)
    (hGrid : OnGrid u)
    (hSome : u ≠ 0)
    (hRounds : Rounds u x.digits x.exponent) :
    readMagnitude? negative x.scientific =
      some (.finite negative u hGrid) := by
  have hDigits := isDigit_figures x.digits
  have hWorth := ofDigitChars_figures x.digits
  have hLeading :
      x.leading =
        x.exponent + ((figures x.digits).length : Int) - 1 :=
    rfl
  unfold scientific
  dsimp only
  cases hFigures : figures x.digits with
  | nil => exact absurd hFigures (figures_ne_nil x.digits)
  | cons d ds =>
      rw [hFigures] at hDigits hWorth hLeading
      rw [List.length_cons] at hLeading
      have hPlaces :
          x.leading - (ds.length : Int) = x.exponent := by
        omega
      refine (readMagnitude?_mantissa negative hDigits
        x.leading).trans ?_
      rw [hWorth, hPlaces,
        ofDecimal_of_rounds negative hGrid hSome hRounds]

/- So does the form of stored data, however large it is. -/
theorem readMagnitude?_recordedDecimal
    (negative : Bool)
    (hGrid : OnGrid u)
    (hSome : u ≠ 0)
    (hRounds : Rounds u x.digits x.exponent) :
    readMagnitude? negative (recordedDecimal x) =
      some (.finite negative u hGrid) := by
  unfold recordedDecimal
  split_ifs with hFar hWhole
  · exact readMagnitude?_scientific negative hGrid hSome
      hRounds
  · rcases x with ⟨n, k | k⟩
    · have hFront : figures n ++ zeros k ≠ [] :=
        List.append_ne_nil_of_left_ne_nil
          (figures_ne_nil n) _
      have hDigits :
          ∀ c ∈ (figures n ++ zeros k) ++ zeros 1,
            c.isDigit = true :=
        List.forall_mem_append.mpr
          ⟨List.forall_mem_append.mpr
            ⟨isDigit_figures n,
              isDigit_zeros k⟩,
            isDigit_zeros 1⟩
      have hPlain := rounds_natCast_iff.mp hRounds
      have hRead :=
        readMagnitude?_around negative hFront hDigits
      rw [Nat.ofDigitChars_append, ofDigitChars_figures_zeros,
        ofDigitChars_zeros, length_zeros] at hRead
      refine hRead.trans (congrArg some ?_)
      apply ofDecimal_of_rounds negative hGrid hSome
      rw [Nat.pow_one, Nat.mul_comm]
      exact rounds_succ_iff.mp hPlain
    · exact absurd hWhole
        (Int.not_le.mpr (Int.negSucc_lt_zero k))
  · exact readMagnitude?_positional negative hGrid hSome
      hRounds

end

------------------------------------------------------------
-- Written Numbers
------------------------------------------------------------

/- Zero is read as zero, with its sign. -/
theorem ofDecimal_zero
    (negative : Bool)
    (exponent : Int)
    (hGrid : OnGrid 0) :
    ofDecimal negative 0 exponent =
      .finite negative 0 hGrid := by
  unfold ofDecimal zero ofUnits
  rw [if_pos rfl, dif_pos hGrid]

/- The form of messages gives every number back. -/
theorem read?_plain
    (x : Binary64) :
    read? x.plain = some x := by
  cases x with
  | nan => decide
  | infinite negative => cases negative <;> decide
  | finite negative u hGrid =>
      unfold plain
      dsimp only
      split_ifs with hZero
      · subst hZero
        have hRead :=
          readMagnitude?_alone negative
            (List.cons_ne_nil '0' []) (Decimal.isDigit_zeros 1)
        exact read?_of_readMagnitude?
          (hRead.trans
            (congrArg some (ofDecimal_zero negative 0 hGrid)))
      · exact read?_of_readMagnitude?
          (readMagnitude?_positional negative hGrid hZero
            (rounds_shortest .up hZero))

/- So numbers that differ are never written alike. -/
theorem plain_injective :
    Function.Injective plain := by
  intro x y hSame
  have hRead := read?_plain x
  rw [hSame, read?_plain] at hRead
  exact (Option.some.inj hRead).symm

/- The form of stored data gives finite numbers back. -/
theorem read?_recorded
    (negative : Bool)
    {u : Nat}
    (hGrid : OnGrid u) :
    read? (finite negative u hGrid).recorded =
      some (.finite negative u hGrid) := by
  unfold recorded
  dsimp only
  split_ifs with hZero
  · subst hZero
    have hRead :=
      readMagnitude?_around negative
        (List.cons_ne_nil '0' []) (Decimal.isDigit_zeros 2)
    exact read?_of_readMagnitude?
      (hRead.trans
        (congrArg some (ofDecimal_zero negative (-1) hGrid)))
  · exact read?_of_readMagnitude?
      (readMagnitude?_recordedDecimal negative hGrid hZero
        (rounds_shortest .even hZero))

end Binary64

end JokerRun
