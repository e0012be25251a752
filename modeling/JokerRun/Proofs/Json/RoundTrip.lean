import JokerRun.Proofs.Json.Numbers

/-
  The reader inverts the compact writer.

  A text is written with escapes and read back character by
  character.  A value without floating-point numbers whose
  whole numbers are in range is read back from its compact
  text, by induction on the value.  The reader's budget is
  three steps for each character, which covers the steps
  between an array or object and what stands in it.

  Key definitions include:
    * `Json.Plain`
    * `Json.Reader.ReadsBack`

  Key theorems include:
    * `Json.Reader.units_escaped`
    * `Json.Reader.literal_written`
    * `Json.Reader.someItems_written`
    * `Json.Reader.someMembers_written`
    * `Json.Plain.readsBack`
    * `Json.Plain.parse_compact`
-/

------------------------------------------------------------
-- Lists Read Item By Item
------------------------------------------------------------

namespace JokerRun

namespace Json

/- What inverts on each item inverts on the list. -/
theorem mapM_map_of_inverse
    {α β : Type}
    {f : α → β}
    {g : β → Option α}
    {xs : List α}
    (hInverse : ∀ x ∈ xs, g (f x) = some x) :
    (xs.map f).mapM g = some xs := by
  induction xs with
  | nil => rfl
  | cons x xs ih =>
      have hHead := hInverse x List.mem_cons_self
      have hTail :=
        ih fun y hMem => hInverse y (List.mem_cons_of_mem x hMem)
      rw [List.map_cons, List.mapM_cons, hHead, hTail]
      rfl

/- What is read of a list is read of its items. -/
theorem mem_of_mapM
    {α β : Type}
    {f : α → Option β}
    {xs : List α}
    {ys : List β}
    (hRead : xs.mapM f = some ys) :
    ∀ y ∈ ys, ∃ x ∈ xs, f x = some y := by
  induction xs generalizing ys with
  | nil =>
      rw [List.mapM_nil] at hRead
      cases hRead
      intro y hMem
      contradiction
  | cons x xs ih =>
      rw [List.mapM_cons] at hRead
      rcases Option.bind_eq_some_iff.mp hRead with
        ⟨z, hHead, hRest⟩
      rcases Option.bind_eq_some_iff.mp hRest with
        ⟨zs, hTail, hSame⟩
      cases hSame
      intro y hMem
      rcases List.mem_cons.mp hMem with rfl | hLater
      · exact ⟨x, List.mem_cons_self, hHead⟩
      · rcases ih hTail y hLater with ⟨w, hItem, hValue⟩
        exact ⟨w, List.mem_cons_of_mem x hItem, hValue⟩

------------------------------------------------------------
-- Escapes
------------------------------------------------------------

namespace Reader

theorem hexDigit?_hexDigit
    {n : Nat}
    (hDigit : n < 16) :
    hexDigit? (Writer.hexDigit n) = some n := by
  have hAll :
      ∀ k < 16, hexDigit? (Writer.hexDigit k) = some k := by
    decide
  exact hAll n hDigit

/- The code of a control character stands for it. -/
theorem escape_control
    {c : Char}
    (hControl : c.toNat < 32)
    (r : List Char) :
    escape
        ('u' :: '0' :: '0' :: Writer.hexDigit (c.toNat / 16) ::
          Writer.hexDigit (c.toNat % 16) :: r) =
      some (.char c, r) := by
  have hZero : hexDigit? '0' = some 0 := by
    decide
  have hFront : c.toNat / 16 < 16 := by
    omega
  have hBack : c.toNat % 16 < 16 := by
    omega
  have hCode :
      ((0 * 16 + 0) * 16 + c.toNat / 16) * 16 + c.toNat % 16 =
        c.toNat := by
    omega
  have hWhole : ¬ (0xd800 ≤ c.toNat ∧ c.toNat ≤ 0xdfff) := by
    omega
  simp only [escape, hexCode, hZero, hexDigit?_hexDigit hFront,
    hexDigit?_hexDigit hBack, bind, Option.bind_some, pure,
    hCode, unitOf, hWhole, if_false, Char.ofNat_toNat]

/- An escape is one unit. -/
theorem units_backslash
    (n : Nat)
    {cs r : List Char}
    {u : Unit}
    (hEscape : escape cs = some (u, r)) :
    units (n + 1) ('\\' :: cs) =
      (units n r).map fun p => (u :: p.1, p.2) := by
  have hOther : ¬ '\\' = '"' := by
    decide
  simp only [units, hOther, if_false, if_true, hEscape, bind,
    Option.bind_some]
  cases units n r with
  | none => rfl
  | some p => rfl

/- What is written for a character is read as that character. -/
theorem units_escaped
    (n : Nat)
    (c : Char)
    (r : List Char) :
    units (n + 1) (Writer.escaped c ++ r) =
      (units n r).map fun p => (.char c :: p.1, p.2) := by
  unfold Writer.escaped
  split
  case h_8 hQuote hBackslash _ _ _ _ _ =>
    by_cases hControl : c.toNat < 32
    · rw [if_pos hControl]
      exact units_backslash n (escape_control hControl r)
    · rw [if_neg hControl, List.cons_append, List.nil_append,
        units, if_neg hQuote, if_neg hBackslash,
        if_neg hControl]
      cases units n r with
      | none => rfl
      | some p => rfl
  all_goals exact units_backslash n rfl

------------------------------------------------------------
-- Literals
------------------------------------------------------------

theorem length_le_length_escaped
    (cs : List Char) :
    cs.length ≤ (cs.flatMap Writer.escaped).length := by
  have hEach : ∀ c, 1 ≤ (Writer.escaped c).length := by
    intro c
    unfold Writer.escaped
    split
    case h_8 =>
      split <;> simp only [List.length_cons] <;> omega
    all_goals
      simp only [List.length_cons]
      omega
  induction cs with
  | nil => exact Nat.le_refl 0
  | cons c cs ih =>
      have hHead := hEach c
      rw [List.flatMap_cons, List.length_append,
        List.length_cons]
      omega

/- The units of a written literal are its characters. -/
theorem units_written
    {cs : List Char}
    {n : Nat}
    (hFuel : cs.length < n)
    (rest : List Char) :
    units n (cs.flatMap Writer.escaped ++ '"' :: rest) =
      some (cs.map .char, rest) := by
  induction cs generalizing n with
  | nil =>
      cases n with
      | zero => contradiction
      | succ n => simp only [List.flatMap_nil, List.nil_append,
          units, if_true, List.map_nil]
  | cons c cs ih =>
      cases n with
      | zero => contradiction
      | succ n =>
          have hRest := ih (Nat.lt_of_succ_lt_succ hFuel)
          rw [List.flatMap_cons, List.append_assoc,
            units_escaped, hRest]
          rfl

theorem joined_chars
    (cs : List Char) :
    joined (cs.map .char) = some cs := by
  induction cs with
  | nil => rfl
  | cons c cs ih =>
      simp only [List.map_cons, joined, ih, Option.map_some]

/- A written literal is read back, after its opening quote. -/
theorem literal_written
    (s : String)
    (rest : List Char) :
    literal (s.toList.flatMap Writer.escaped ++ '"' :: rest) =
      some (some s, rest) := by
  have hFuel :
      s.toList.length <
        (s.toList.flatMap Writer.escaped ++
          '"' :: rest).length + 1 := by
    have hLength := length_le_length_escaped s.toList
    rw [List.length_append]
    omega
  simp only [literal, units_written hFuel, joined_chars, bind,
    Option.bind_some, pure, Option.map_some,
    String.ofList_toList]

end Reader

------------------------------------------------------------
-- Plain Values
------------------------------------------------------------

/- A value that is written without loss. -/
inductive Plain : Json → Prop where
  | null : Plain .null
  | bool (b : Bool) : Plain (.bool b)
  | whole
      {n : Int}
      (hLow : lowestWhole ≤ n)
      (hHigh : n ≤ highestWhole) :
      Plain (.whole n)
  | string (s : String) : Plain (.string s)
  | array
      {vs : List Json}
      (hItems : ∀ v ∈ vs, Plain v) :
      Plain (.array vs)
  | object
      {ms : List (String × Json)}
      (hMembers : ∀ m ∈ ms, Plain m.2) :
      Plain (.object ms)

namespace Reader

/- Reader and writer agree on the character. -/
@[simp] theorem openObject_eq :
    Writer.openObject = openObject := rfl

/- Reader and writer agree on the character. -/
@[simp] theorem closeObject_eq :
    Writer.closeObject = closeObject := rfl

/- A written whole number starts with a sign or a digit. -/
theorem whole_eq_cons
    (n : Int) :
    ∃ c cs, Writer.whole n = c :: cs ∧
      (c = '-' ∨ c.isDigit = true) := by
  unfold Writer.whole
  rw [Nat.toList_repr]
  by_cases hNegative : n < 0
  · rw [if_pos hNegative]
    exact ⟨_, _, rfl, Or.inl rfl⟩
  · rw [if_neg hNegative]
    cases hDigits : Nat.toDigits 10 n.natAbs with
    | nil => exact absurd hDigits Nat.toDigits_ne_nil
    | cons c cs =>
        have hMem : c ∈ Nat.toDigits 10 n.natAbs := by
          rw [hDigits]
          exact List.mem_cons_self
        refine ⟨c, cs, rfl, Or.inr ?_⟩
        exact Nat.isDigit_of_mem_toDigits (by decide)
          (by decide) hMem

/- A sign or a digit is no other mark. -/
theorem ne_of_numberStart
    {c d : Char}
    (hStart : c = '-' ∨ c.isDigit = true)
    (hMark : d ≠ '-' ∧ d.isDigit = false) :
    c ≠ d := by
  rintro rfl
  rcases hStart with hSign | hDigit
  · exact hMark.1 hSign
  · rw [hMark.2] at hDigit
    contradiction

theorem isSpace_of_numberStart
    {c : Char}
    (hStart : c = '-' ∨ c.isDigit = true) :
    isSpace c = false := by
  have hSpace := ne_of_numberStart (d := ' ') hStart
    (by decide)
  have hLine := ne_of_numberStart (d := '\n') hStart
    (by decide)
  have hTab := ne_of_numberStart (d := '\t') hStart
    (by decide)
  have hReturn := ne_of_numberStart (d := '\r') hStart
    (by decide)
  simp only [isSpace, Bool.or_eq_false_iff, beq_eq_false_iff_ne]
  exact ⟨⟨⟨hSpace, hLine⟩, hTab⟩, hReturn⟩

/- A written value starts with what is no blank, no bracket. -/
theorem value_eq_cons
    {v : Json}
    (hPlain : Plain v) :
    ∃ c cs, Writer.value v = c :: cs ∧ isSpace c = false ∧
      c ≠ ']' := by
  cases hPlain with
  | null => exact ⟨_, _, rfl, by decide, by decide⟩
  | bool b =>
      cases b with
      | false => exact ⟨_, _, rfl, by decide, by decide⟩
      | true => exact ⟨_, _, rfl, by decide, by decide⟩
  | @whole n hLow hHigh =>
      rcases whole_eq_cons n with ⟨c, cs, hEq, hStart⟩
      refine ⟨c, cs, ?_, isSpace_of_numberStart hStart, ?_⟩
      · rw [Writer.value, hEq]
      · exact ne_of_numberStart hStart (by decide)
  | string s => exact ⟨_, _, rfl, by decide, by decide⟩
  | @array vs hItems =>
      cases vs with
      | nil => exact ⟨_, _, rfl, by decide, by decide⟩
      | cons v vs =>
          refine
            ⟨'[', Writer.value v ++ Writer.value.items vs, ?_,
              by decide, by decide⟩
          rw [Writer.value, List.cons_append]
  | @object ms hMembers =>
      cases ms with
      | nil =>
          exact ⟨openObject, _, rfl, by decide, by decide⟩
      | cons m ms =>
          refine
            ⟨openObject, Writer.literal m.1 ++
              ':' :: Writer.value m.2 ++ Writer.value.members ms,
              ?_, by decide, by decide⟩
          rw [Writer.value, List.cons_append, List.cons_append,
            openObject_eq]

------------------------------------------------------------
-- Items And Members
------------------------------------------------------------

/- A value is read back wherever it is written. -/
def ReadsBack
    (v : Json) : Prop :=
  ∀ n rest, EndsNumber rest →
    3 * (Writer.value v).length ≤ n →
      value n (Writer.value v ++ rest) = some (v, rest)

theorem skip_cons
    {c : Char}
    (hInk : isSpace c = false)
    (cs : List Char) :
    skip (c :: cs) = c :: cs := by
  rw [skip, List.dropWhile_cons, hInk]
  rfl

/- After a value stands a comma or what closes around it. -/
theorem endsNumber_cons
    {c : Char}
    (hMark : c = ',' ∨ c = ']' ∨ c = closeObject)
    (cs : List Char) :
    EndsNumber (c :: cs) := by
  intro d hHead
  have hSame : c = d := Option.some.inj hHead
  subst hSame
  rcases hMark with rfl | rfl | rfl <;> decide

/- Items are read back up to the bracket that closes them. -/
theorem someItems_written
    {v : Json}
    {vs : List Json}
    (hFirst : ReadsBack v)
    (hLater : ∀ w ∈ vs, ReadsBack w)
    {n : Nat}
    (rest : List Char)
    (hFuel :
      3 * (Writer.value v ++ Writer.value.items vs).length <
        n) :
    someItems n
        (Writer.value v ++ (Writer.value.items vs ++ rest)) =
      some (v :: vs, rest) := by
  induction vs generalizing v n with
  | nil =>
      cases n with
      | zero => contradiction
      | succ n =>
          have hRead :=
            hFirst n (']' :: rest)
              (endsNumber_cons (by decide) rest)
              (by rw [List.length_append] at hFuel; omega)
          simp only [Writer.value.items, List.cons_append,
            List.nil_append, someItems, hRead, bind,
            Option.bind_some, skip_cons (c := ']') (by decide),
            pure]
  | cons w ws ih =>
      cases n with
      | zero => contradiction
      | succ n =>
          simp only [Writer.value.items, List.cons_append,
            List.length_append, List.length_cons] at hFuel
          have hRead :=
            hFirst n
              (',' :: (Writer.value w ++
                (Writer.value.items ws ++ rest)))
              (endsNumber_cons (by decide) _) (by omega)
          have hNext :=
            ih (hLater w List.mem_cons_self)
              (fun u hMem =>
                hLater u (List.mem_cons_of_mem w hMem))
              (n := n)
              (by rw [List.length_append]; omega)
          simp only [Writer.value.items, List.cons_append,
            List.append_assoc, someItems, hRead, bind,
            Option.bind_some, skip_cons (c := ',') (by decide),
            hNext, pure]

/- Members are read back up to the brace that closes them. -/
theorem someMembers_written
    {k : String}
    {v : Json}
    {ms : List (String × Json)}
    (hFirst : ReadsBack v)
    (hLater : ∀ m ∈ ms, ReadsBack m.2)
    {n : Nat}
    (rest : List Char)
    (hFuel :
      3 * (Writer.literal k ++ ':' :: Writer.value v ++
        Writer.value.members ms).length < n) :
    someMembers n
        (Writer.literal k ++ (':' :: (Writer.value v ++
          (Writer.value.members ms ++ rest)))) =
      some ((some k, v) :: ms.map fun m => (some m.1, m.2),
        rest) := by
  induction ms generalizing k v n with
  | nil =>
      cases n with
      | zero => contradiction
      | succ n =>
          have hRead :=
            hFirst n (closeObject :: rest)
              (endsNumber_cons (by decide) rest)
              (by
                simp only [List.length_append,
                  List.length_cons] at hFuel
                omega)
          simp only [Writer.literal, Writer.value.members,
            List.cons_append, List.append_assoc,
            List.nil_append, closeObject_eq, someMembers,
            skip_cons (c := '"') (by decide), literal_written,
            bind, Option.bind_some,
            skip_cons (c := ':') (by decide), hRead,
            skip_cons (c := closeObject) (by decide), if_true,
            pure, List.map_nil]
  | cons m ms ih =>
      cases n with
      | zero => contradiction
      | succ n =>
          have hComma : ¬ ',' = closeObject := by
            decide
          simp only [Writer.value.members, List.cons_append,
            List.append_assoc, List.length_append,
            List.length_cons] at hFuel
          have hRead :=
            hFirst n
              (',' :: (Writer.literal m.1 ++
                (':' :: (Writer.value m.2 ++
                  (Writer.value.members ms ++ rest)))))
              (endsNumber_cons (by decide) _) (by omega)
          have hNext :=
            ih (k := m.1) (hLater m List.mem_cons_self)
              (fun u hMem =>
                hLater u (List.mem_cons_of_mem m hMem))
              (n := n)
              (by
                simp only [List.length_append,
                  List.length_cons]
                omega)
          rw [Writer.literal]
          simp only [Writer.value.members,
            List.cons_append, List.append_assoc,
            List.nil_append, someMembers,
            skip_cons (c := '"') (by decide), literal_written,
            bind, Option.bind_some,
            skip_cons (c := ':') (by decide), hRead,
            skip_cons (c := ',') (by decide), hComma, if_false,
            if_true, hNext, pure, List.map_cons]

/- The members of an object whose keys are texts. -/
theorem objectOf_texts
    (ms : List (String × Json)) :
    objectOf (ms.map fun m => (some m.1, m.2)) =
      .object ms := by
  have hKeys :
      (ms.map fun m => (some m.1, m.2)).mapM
          (fun m => m.1.map fun k => (k, m.2)) =
        some ms :=
    mapM_map_of_inverse fun m _ => rfl
  rw [objectOf, hKeys]

------------------------------------------------------------
-- Values
------------------------------------------------------------

/- What starts with a sign or a digit is read as a number. -/
theorem value_number
    {c : Char}
    (hStart : c = '-' ∨ c.isDigit = true)
    (n : Nat)
    (cs : List Char) :
    value (n + 1) (c :: cs) = number (c :: cs) := by
  have hQuote := ne_of_numberStart (d := '"') hStart
    (by decide)
  have hBracket := ne_of_numberStart (d := '[') hStart
    (by decide)
  have hBrace := ne_of_numberStart (d := openObject) hStart
    (by decide)
  have hNull := ne_of_numberStart (d := 'n') hStart (by decide)
  have hTrue := ne_of_numberStart (d := 't') hStart (by decide)
  have hFalse := ne_of_numberStart (d := 'f') hStart
    (by decide)
  simp only [value, skip_cons (isSpace_of_numberStart hStart),
    hQuote, hBracket, hBrace, hNull, hTrue, hFalse, if_false]

/- What does not close an array is its first item. -/
theorem items_cons
    {c : Char}
    (hInk : isSpace c = false)
    (hOpen : c ≠ ']')
    (n : Nat)
    (cs : List Char) :
    items (n + 1) (c :: cs) = someItems n (c :: cs) := by
  rw [items, skip_cons hInk]
  split
  · rename_i hEq
    exact absurd (List.cons.inj hEq).1 hOpen
  · rfl

/- A quote opens the first member of an object. -/
theorem members_quote
    (n : Nat)
    (cs : List Char) :
    members (n + 1) ('"' :: cs) = someMembers n ('"' :: cs) := by
  have hOpen : ¬ '"' = closeObject := by
    decide
  simp only [members, skip_cons (c := '"') (by decide), hOpen,
    if_false]

/- An array is read back if its items are. -/
theorem array_readsBack
    {vs : List Json}
    (hItems : ∀ v ∈ vs, Plain v)
    (hRead : ∀ v ∈ vs, ReadsBack v) :
    ReadsBack (.array vs) := by
  intro n rest hRest hFuel
  cases vs with
  | nil =>
      simp only [Writer.value, List.length_cons,
        List.length_nil] at hFuel
      match n with
      | n + 2 => rfl
  | cons v vs =>
      simp only [Writer.value, List.cons_append,
        List.length_cons] at hFuel
      match n with
      | n + 2 =>
          have hSome :=
            someItems_written (hRead v List.mem_cons_self)
              (fun w hMem =>
                hRead w (List.mem_cons_of_mem v hMem))
              (n := n) rest (by omega)
          rcases value_eq_cons (hItems v List.mem_cons_self)
            with ⟨c, cs, hEq, hInk, hOpen⟩
          have hAll :
              items (n + 1)
                  (Writer.value v ++
                    (Writer.value.items vs ++ rest)) =
                some (v :: vs, rest) := by
            rw [hEq, List.cons_append] at hSome ⊢
            rw [items_cons hInk hOpen, hSome]
          have hQuote : ¬ '[' = '"' := by
            decide
          simp only [Writer.value, List.cons_append,
            List.append_assoc, value,
            skip_cons (c := '[') (by decide), hQuote, if_false,
            if_true, hAll, Option.map_some]

/- An object is read back if its members are. -/
theorem object_readsBack
    {ms : List (String × Json)}
    (hRead : ∀ m ∈ ms, ReadsBack m.2) :
    ReadsBack (.object ms) := by
  intro n rest hRest hFuel
  cases ms with
  | nil =>
      simp only [Writer.value, List.length_cons,
        List.length_nil] at hFuel
      match n with
      | n + 2 => rfl
  | cons m ms =>
      simp only [Writer.value, List.cons_append,
        List.append_assoc, List.length_cons] at hFuel
      match n with
      | n + 2 =>
          have hSome :=
            someMembers_written (k := m.1)
              (hRead m List.mem_cons_self)
              (fun w hMem =>
                hRead w (List.mem_cons_of_mem m hMem))
              (n := n) rest
              (by
                rw [List.append_assoc, List.cons_append]
                omega)
          have hAll :
              members (n + 1)
                  (Writer.literal m.1 ++
                    (':' :: (Writer.value m.2 ++
                      (Writer.value.members ms ++ rest)))) =
                some ((some m.1, m.2) ::
                  ms.map fun m => (some m.1, m.2), rest) := by
            rw [Writer.literal, List.cons_append,
              List.cons_append] at hSome ⊢
            rw [members_quote, hSome]
          have hQuote : ¬ openObject = '"' := by
            decide
          have hBracket : ¬ openObject = '[' := by
            decide
          simp only [Writer.value, openObject_eq,
            List.cons_append, List.append_assoc, value,
            skip_cons (c := openObject) (by decide), hQuote,
            hBracket, if_false, if_true, hAll, Option.map_some]
          exact congrArg (fun v => some (v, rest))
            (objectOf_texts (m :: ms))

end Reader

/- A plain value is read back wherever it is written. -/
theorem Plain.readsBack
    {v : Json}
    (hPlain : Plain v) :
    Reader.ReadsBack v := by
  induction hPlain with
  | null =>
      intro n rest hRest hFuel
      cases n with
      | zero => contradiction
      | succ n => rfl
  | bool b =>
      intro n rest hRest hFuel
      cases n with
      | zero => cases b <;> contradiction
      | succ n => cases b <;> rfl
  | @whole k hLow hHigh =>
      intro n rest hRest hFuel
      rcases Reader.whole_eq_cons k with ⟨c, cs, hEq, hStart⟩
      rw [Writer.value] at hFuel ⊢
      cases n with
      | zero =>
          rw [hEq] at hFuel
          contradiction
      | succ n =>
          have hNumber :=
            Reader.number_whole hLow hHigh hRest
          rw [hEq, List.cons_append] at hNumber ⊢
          rw [Reader.value_number hStart, hNumber]
  | string s =>
      intro n rest hRest hFuel
      cases n with
      | zero => contradiction
      | succ n =>
          simp only [Writer.value, Writer.literal,
            List.cons_append, List.append_assoc,
            List.nil_append, Reader.value,
            Reader.skip_cons (c := '"') (by decide), if_true,
            Reader.literal_written, Option.map_some,
            Reader.textValue]
  | @array vs hItems ih => exact Reader.array_readsBack hItems ih
  | @object ms hMembers ih => exact Reader.object_readsBack ih

/- A plain value is the value of its compact text. -/
theorem Plain.parse_compact
    {v : Json}
    (hPlain : Plain v) :
    parse v.compact = some v := by
  have hEnd : Reader.EndsNumber [] := by
    intro c hHead
    contradiction
  have hRead :=
    hPlain.readsBack (3 * (Writer.value v).length + 3) [] hEnd
      (Nat.le_add_right _ 3)
  rw [List.append_nil] at hRead
  simp only [parse, compact, String.toList_ofList, parseChars,
    hRead, Reader.skip, List.dropWhile_nil]

/- Quotes and control characters are escaped, others are not. -/
example :
    Writer.value (.array [.string "\"\x01é", .whole (-7)]) =
      ['[', '"', '\\', '"', '\\', 'u', '0', '0', '0', '1',
        'é', '"', ',', '-', '7', ']'] := by
  rfl

end Json

end JokerRun
