import Mathlib.Data.String.Basic
import Mathlib.Tactic.SplitIfs

/-
  Texts compare as their UTF-8 bytes do.

  Of two characters the greater one has the greater
  encoding, and the two differ within both encodings.  So
  the first character in which two texts differ decides
  about their bytes, too.

  Key definitions include:
    * `Text.bytes`

  Key theorems include:
    * `Text.encoding_lt_encoding`
    * `Text.bytes_lt_bytes_iff`
-/

------------------------------------------------------------
-- Characters
------------------------------------------------------------

namespace JokerRun

namespace Text

/- The UTF-8 bytes of a text. -/
def bytes
    (s : String) : List UInt8 :=
  s.toUTF8.data.toList

/-
  The encodings of two characters differ before either of
  them ends, so whatever follows does not matter.
-/
theorem encoding_lt_encoding
    {c d : Char}
    (hLess : c < d)
    (after later : List UInt8) :
    String.utf8EncodeChar c ++ after <
      String.utf8EncodeChar d ++ later := by
  have hCode : c.val.toNat < d.val.toNat :=
    UInt32.lt_iff_toNat_lt.mp hLess
  have hRange : d.val.toNat < 1114112 := by
    have hValid := d.valid
    simp only [UInt32.isValidChar, Nat.isValidChar] at hValid
    omega
  unfold String.utf8EncodeChar
  generalize c.val.toNat = m at *
  generalize d.val.toNat = n at *
  dsimp only
  -- One case for each pair of lengths; a longer encoding
  -- starts with a greater byte.
  split_ifs <;>
    simp (disch := omega) only [List.cons_append,
      List.nil_append, List.cons_lt_cons_iff,
      UInt8.lt_iff_toNat_lt, ← UInt8.toNat_inj,
      UInt8.toNat_ofNat', Nat.mod_eq_of_lt] <;>
    omega

------------------------------------------------------------
-- Texts
------------------------------------------------------------

/- The bytes of a text are those of its characters. -/
theorem bytes_eq_flatMap
    (s : String) :
    bytes s = s.toList.flatMap String.utf8EncodeChar := by
  have hBytes :
      bytes (String.ofList s.toList) =
        s.toList.flatMap String.utf8EncodeChar := by
    unfold bytes
    rw [String.toUTF8_eq_toByteArray,
      String.toByteArray_ofList, List.utf8Encode,
      List.data_toByteArray]
  rwa [String.ofList_toList] at hBytes

theorem flatMap_encoding_lt
    {cs ds : List Char}
    (hLess : cs < ds) :
    cs.flatMap String.utf8EncodeChar <
      ds.flatMap String.utf8EncodeChar := by
  induction cs generalizing ds with
  | nil =>
      cases ds with
      | nil => exact absurd hLess (List.lt_irrefl [])
      | cons d ds =>
          rw [List.flatMap_nil, List.flatMap_cons]
          rcases List.exists_cons_of_ne_nil
              (String.utf8EncodeChar_ne_nil (c := d)) with
            ⟨b, bs, hEncoding⟩
          rw [hEncoding, List.cons_append]
          exact List.nil_lt_cons b _
  | cons c cs ih =>
      cases ds with
      | nil => exact absurd hLess (List.not_lt_nil _)
      | cons d ds =>
          rw [List.flatMap_cons, List.flatMap_cons]
          rcases List.cons_lt_cons_iff.mp hLess with
            hHead | ⟨rfl, hTail⟩
          · exact encoding_lt_encoding hHead _ _
          · exact List.append_left_lt (ih hTail)

/- Texts compare as their UTF-8 bytes do. -/
theorem bytes_lt_bytes_iff
    {s t : String} :
    bytes s < bytes t ↔ s < t := by
  have hForth :
      ∀ {s t : String}, s < t → bytes s < bytes t := by
    intro s t hLess
    rw [bytes_eq_flatMap, bytes_eq_flatMap]
    exact flatMap_encoding_lt hLess
  refine ⟨?_, hForth⟩
  intro hBytes
  rcases lt_trichotomy s t with hLess | rfl | hMore
  · exact hLess
  · exact absurd hBytes (List.lt_irrefl _)
  · exact absurd (hForth hMore) (List.lt_asymm hBytes)

end Text

end JokerRun
