import JokerRun.Card.Basic
import JokerRun.Proofs.Hand.Reference
import JokerRun.Proofs.Text.Key
import JokerRun.Proofs.Text.Numeral

/-
  Which texts name suits, ranks and cards.

  A rank is named by one of nine words or by a numeral for
  its place; the ace stands at two places.  Words start with
  letters, so no text is both.  A written card is the key of
  a rank with the key of a suit, one character, behind it.
  Blanks around a key do not count, nor does the case of
  its letters.

  Key definitions include:
    * `Suit.Named`
    * `Rank.Named`

  Key theorems include:
    * `Suit.ofKey?_eq_some_iff`
    * `Rank.ofKey?_eq_some_iff`
    * `Card.ofNotation?_eq_some_iff`
    * `Card.keys_follow_grammar`
-/

------------------------------------------------------------
-- Suits
------------------------------------------------------------

namespace JokerRun

/- The first item that passes, if no other one does. -/
theorem find?_eq_some_iff_of_unique
    {α : Type}
    {p : α → Bool}
    {xs : List α}
    {x : α}
    (hMem : x ∈ xs)
    (hUnique : ∀ y, p y = true → p x = true → y = x) :
    xs.find? p = some x ↔ p x = true := by
  refine ⟨List.find?_some, fun hPass => ?_⟩
  cases hFound : xs.find? p with
  | none =>
      exact absurd hPass (List.find?_eq_none.mp hFound x hMem)
  | some y =>
      rw [hUnique y (List.find?_some hFound) hPass]

namespace Suit

/- The keys of the suits, in lower case. -/
def keyTable : List (String × Suit) :=
  [("spades", .spades), ("spade", .spades), ("s", .spades),
    ("♠", .spades),
    ("hearts", .hearts), ("heart", .hearts), ("h", .hearts),
    ("♥", .hearts),
    ("clubs", .clubs), ("club", .clubs), ("c", .clubs),
    ("♣", .clubs),
    ("diamonds", .diamonds), ("diamond", .diamonds),
    ("d", .diamonds), ("♦", .diamonds)]

/- A key in lower case and the suit that it names. -/
def Named
    (key : List Char)
    (s : Suit) : Prop :=
  (String.ofList key, s) ∈ keyTable

instance
    (key : List Char)
    (s : Suit) :
    Decidable (Named key s) := by
  unfold Named
  infer_instance

theorem contains_keys_iff
    {s : Suit}
    {w : String} :
    s.keys.contains w = true ↔ (w, s) ∈ keyTable := by
  cases s <;> simp [keys, keyTable]

theorem keyTable_unique :
    ∀ e ∈ keyTable, ∀ f ∈ keyTable, e.1 = f.1 → e.2 = f.2 := by
  decide

/- A suit is read of exactly the keys that name it. -/
theorem ofKey?_eq_some_iff
    {cs : List Char}
    {s : Suit} :
    ofKey? cs = some s ↔ Named (Text.normalKey cs) s := by
  rw [ofKey?, find?_eq_some_iff_of_unique s.mem_all,
    contains_keys_iff]
  · rfl
  · intro q hOther hThis
    exact keyTable_unique _ (contains_keys_iff.mp hOther) _
      (contains_keys_iff.mp hThis) rfl

theorem Named.isKeySign
    {key : List Char}
    {s : Suit}
    (hNamed : Named key s) :
    ∀ c ∈ key, Text.isKeySign c = true := by
  have hTable :
      ∀ e ∈ keyTable, e.1.toList.all Text.isKeySign = true := by
    decide
  have hKey := hTable _ hNamed
  rw [String.toList_ofList] at hKey
  exact List.all_eq_true.mp hKey

/- Any lower case of a text tells whether it names a suit. -/
theorem ofKey?_eq_some_iff_of_lowers
    {cs ks : List Char}
    {s : Suit}
    (hLowers : Text.Lowers (Text.trim cs) ks) :
    ofKey? cs = some s ↔ Named ks s := by
  rw [ofKey?_eq_some_iff, Text.normalKey]
  exact (hLowers.congr (P := fun key => Named key s)
    fun _ hNamed => hNamed.isKeySign).symm

end Suit

------------------------------------------------------------
-- Ranks
------------------------------------------------------------

namespace Rank

/- The words for the ranks, in lower case. -/
def wordTable : List (String × Rank) :=
  [("jack", .jack), ("j", .jack), ("queen", .queen),
    ("q", .queen), ("king", .king), ("k", .king),
    ("ace", .ace), ("a", .ace), ("t", .ten)]

/-
  A key in lower case and the rank that it names: by a word,
  or by a numeral for the place of the rank, however many
  zeros it starts with.
-/
inductive Named
    (key : List Char)
    (r : Rank) : Prop where
  | word
      (hWord : (String.ofList key, r) ∈ wordTable) :
      Named key r
  | place
      (hPlace : Numeral.Spells key r.value) :
      Named key r
  | one
      (hOne : Numeral.Spells key 1)
      (hAce : r = .ace) :
      Named key r

theorem contains_words_iff
    {r : Rank}
    {w : String} :
    r.words.contains w = true ↔ (w, r) ∈ wordTable := by
  cases r <;> simp [words, wordTable]

theorem wordTable_unique :
    ∀ e ∈ wordTable, ∀ f ∈ wordTable,
      e.1 = f.1 → e.2 = f.2 := by
  decide

/- The word for a rank is found. -/
theorem find?_words_iff
    {r : Rank}
    {w : String} :
    (all.find? fun r => r.words.contains w) = some r ↔
      (w, r) ∈ wordTable := by
  rw [find?_eq_some_iff_of_unique r.mem_all,
    contains_words_iff]
  intro q hOther hThis
  exact wordTable_unique _ (contains_words_iff.mp hOther) _
    (contains_words_iff.mp hThis) rfl

/- No word is a numeral. -/
theorem not_spells_of_word
    {key : List Char}
    {r : Rank}
    (hWord : (String.ofList key, r) ∈ wordTable)
    (n : Nat) :
    ¬ Numeral.Spells key n := by
  have hTable :
      ∀ e ∈ wordTable,
        (e.1.toList.head?.all fun c =>
          !c.isDigit && c != '+') = true := by
    decide
  intro hSpells
  rcases hSpells.exists_cons with ⟨c, rest, rfl, hStart⟩
  have hLetter := hTable _ hWord
  rw [String.toList_ofList] at hLetter
  rcases hStart with hDigit | rfl
  · simp [hDigit] at hLetter
  · simp at hLetter

/- The places of a rank; the ace has two. -/
theorem ofValue?_eq_some_iff
    {n : Nat}
    {r : Rank} :
    ofValue? n = some r ↔
      n = r.value ∨ n = 1 ∧ r = .ace := by
  constructor
  · intro hPlace
    unfold ofValue? at hPlace
    split at hPlace
    · cases hPlace
      exact Or.inr ⟨rfl, rfl⟩
    · have hFound := List.find?_some hPlace
      exact Or.inl (beq_iff_eq.mp hFound).symm
  · rintro (rfl | ⟨rfl, rfl⟩)
    · exact r.ofValue?_value
    · rfl

/- A key that is a word names the rank of the word only. -/
theorem named_iff_of_word
    {key : List Char}
    {q r : Rank}
    (hWord : (String.ofList key, q) ∈ wordTable) :
    Named key r ↔ q = r := by
  constructor
  · intro hNamed
    cases hNamed with
    | word hOther => exact wordTable_unique _ hWord _ hOther rfl
    | place hPlace =>
        exact absurd hPlace (not_spells_of_word hWord _)
    | one hOne =>
        exact absurd hOne (not_spells_of_word hWord _)
  · rintro rfl
    exact .word hWord

/- Any other key names a rank by its place. -/
theorem named_iff_of_no_word
    {key : List Char}
    {r : Rank}
    (hNoWord : (String.ofList key, r) ∉ wordTable) :
    Named key r ↔
      ∃ n, Numeral.Denotes 255 key n ∧ ofValue? n = some r := by
  simp only [Numeral.denotes_iff, ofValue?_eq_some_iff]
  constructor
  · intro hNamed
    have hBound : r.value ≤ 255 := by
      cases r <;> decide
    cases hNamed with
    | word hWord => exact absurd hWord hNoWord
    | place hPlace =>
        exact ⟨r.value, ⟨hPlace, hBound⟩, Or.inl rfl⟩
    | one hOne hAce =>
        exact ⟨1, ⟨hOne, by decide⟩, Or.inr ⟨rfl, hAce⟩⟩
  · rintro ⟨n, ⟨hSpells, -⟩, rfl | ⟨rfl, rfl⟩⟩
    · exact .place hSpells
    · exact .one hSpells rfl

/- A rank is read of exactly the keys that name it. -/
theorem ofKey?_eq_some_iff
    {cs : List Char}
    {r : Rank} :
    ofKey? cs = some r ↔ Named (Text.normalKey cs) r := by
  unfold ofKey?
  generalize Text.normalKey cs = key
  cases hFound : all.find? fun r =>
      r.words.contains (String.ofList key) with
  | some q =>
      rw [named_iff_of_word (find?_words_iff.mp hFound)]
      simp only [hFound, Option.some.injEq]
  | none =>
      have hNoWord : (String.ofList key, r) ∉ wordTable := by
        intro hWord
        rw [find?_words_iff.mpr hWord] at hFound
        cases hFound
      rw [named_iff_of_no_word hNoWord]
      simp only [hFound, Option.bind_eq_some_iff,
        Numeral.read?_eq_some_iff]

theorem Named.isKeySign
    {key : List Char}
    {r : Rank}
    (hNamed : Named key r) :
    ∀ c ∈ key, Text.isKeySign c = true := by
  have hTable :
      ∀ e ∈ wordTable,
        e.1.toList.all Text.isKeySign = true := by
    decide
  have hNumeral {n : Nat} (hSpells : Numeral.Spells key n) :
      ∀ c ∈ key, Text.isKeySign c = true := by
    intro c hMem
    rcases hSpells.forall_mem c hMem with hDigit | rfl
    · exact Text.isKeySign_of_isDigit hDigit
    · decide
  cases hNamed with
  | word hWord =>
      have hKey := hTable _ hWord
      rw [String.toList_ofList] at hKey
      exact List.all_eq_true.mp hKey
  | place hPlace => exact hNumeral hPlace
  | one hOne => exact hNumeral hOne

/- Any lower case of a text tells whether it names a rank. -/
theorem ofKey?_eq_some_iff_of_lowers
    {cs ks : List Char}
    {r : Rank}
    (hLowers : Text.Lowers (Text.trim cs) ks) :
    ofKey? cs = some r ↔ Named ks r := by
  rw [ofKey?_eq_some_iff, Text.normalKey]
  exact (hLowers.congr (P := fun key => Named key r)
    fun _ hNamed => hNamed.isKeySign).symm

end Rank

------------------------------------------------------------
-- Written Cards
------------------------------------------------------------

namespace Card

section

variable {cs : List Char}
variable {suit : Suit}
variable {rank : Rank}

/- A written card has a character before its last one. -/
theorem exists_split_of_ofNotation?
    (hRead : ofNotation? cs = some (suit, rank)) :
    ∃ front last,
      Text.trim cs = front ++ [last] ∧ front ≠ [] := by
  unfold ofNotation? at hRead
  split at hRead
  · cases hRead
  · cases hRead
  · rename_i s r rs hMany
    refine ⟨(r :: rs).reverse, s, ?_,
      List.reverse_ne_nil_iff.mpr (List.cons_ne_nil r rs)⟩
    rw [← List.reverse_cons, ← hMany, List.reverse_reverse]

/- The last character tells the suit, the others the rank. -/
theorem ofNotation?_of_split
    {front : List Char}
    {last : Char}
    (hText : Text.trim cs = front ++ [last])
    (hSome : front ≠ []) :
    ofNotation? cs = some (suit, rank) ↔
      Suit.ofKey? [last] = some suit ∧
        Rank.ofKey? front = some rank := by
  rcases List.exists_cons_of_ne_nil
      (List.reverse_ne_nil_iff.mpr hSome) with ⟨r, rs, hFront⟩
  have hBack : (r :: rs).reverse = front := by
    rw [← hFront, List.reverse_reverse]
  rw [ofNotation?, hText, List.reverse_concat, hFront]
  simp only [hBack]
  cases Suit.ofKey? [last] with
  | none => simp only [reduceCtorEq, false_and]
  | some s =>
      cases Rank.ofKey? front with
      | none => simp only [reduceCtorEq, and_false]
      | some r => simp only [Option.some.injEq, Prod.mk.injEq]

/- A written card is split before its last character. -/
theorem ofNotation?_eq_some_iff :
    ofNotation? cs = some (suit, rank) ↔
      ∃ front last,
        Text.trim cs = front ++ [last] ∧
        front ≠ [] ∧
        Suit.ofKey? [last] = some suit ∧
        Rank.ofKey? front = some rank := by
  constructor
  · intro hRead
    rcases exists_split_of_ofNotation? hRead with
      ⟨front, last, hText, hSome⟩
    exact ⟨front, last, hText, hSome,
      (ofNotation?_of_split hText hSome).mp hRead⟩
  · rintro ⟨front, last, hText, hSome, hKeys⟩
    exact (ofNotation?_of_split hText hSome).mpr hKeys

end

/-
  Whatever the lower case of characters outside of keys is,
  ranks are read of the keys that name them and of nothing
  else, and cards of a rank's key with a suit's key of one
  character behind it.
-/
theorem keys_follow_grammar
    {lower : List Char → List Char}
    (hLower : ∀ cs, Text.Lowers cs (lower cs)) :
    (∀ (s : String) (rank : Rank),
      Rank.ofKey? s.toList = some rank ↔
        Rank.Named (lower (Text.trim s.toList)) rank) ∧
    (∀ s : String,
      Rank.ofKey? s.toList = none ↔
        ∀ rank, ¬ Rank.Named (lower (Text.trim s.toList)) rank) ∧
    ∀ (s : String) (suit : Suit) (rank : Rank),
      ofNotation? s.toList = some (suit, rank) ↔
        ∃ front last,
          Text.trim s.toList = front ++ [last] ∧
          front ≠ [] ∧
          Suit.Named (lower (Text.trim [last])) suit ∧
          Rank.Named (lower (Text.trim front)) rank := by
  have hSuit (cs : List Char) (suit : Suit) :=
    Suit.ofKey?_eq_some_iff_of_lowers (s := suit)
      (hLower (Text.trim cs))
  have hRank (cs : List Char) (rank : Rank) :=
    Rank.ofKey?_eq_some_iff_of_lowers (r := rank)
      (hLower (Text.trim cs))
  refine ⟨fun s rank => hRank s.toList rank, ?_, ?_⟩
  · intro s
    rw [Option.eq_none_iff_forall_ne_some]
    exact forall_congr' fun rank =>
      not_congr (hRank s.toList rank)
  · intro s suit rank
    simp only [ofNotation?_eq_some_iff, hSuit, hRank]

/- A sign, zeros, a blank and the Kelvin sign are no matter. -/
theorem keys_follow_grammar_kelvin :
    (∀ cs, Text.Lowers cs (cs.map Text.lowerKey)) ∧
      Rank.ofKey? "+0012 ".toList = some .queen ∧
      Rank.ofKey? " King".toList = some .king ∧
      ofNotation? "01 H".toList = some (.hearts, .ace) := by
  have hLower := Text.lowers_map_lowerKey
  rcases keys_follow_grammar hLower with ⟨hRank, -, hCard⟩
  refine ⟨hLower, (hRank _ _).mpr ?_, (hRank _ _).mpr ?_,
    (hCard _ _ _).mpr ?_⟩
  · exact .place ⟨['0', '0', '1', '2'], Or.inr rfl,
      List.cons_ne_nil _ _, List.all_eq_true.mp rfl, rfl⟩
  · exact .word (by decide)
  · exact ⟨['0', '1', ' '], 'H', by decide, by decide,
      by decide, .one ⟨['0', '1'], Or.inl rfl,
        List.cons_ne_nil _ _, List.all_eq_true.mp rfl, rfl⟩
        rfl⟩

end Card

end JokerRun
