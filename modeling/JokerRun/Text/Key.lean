import JokerRun.Text.Blank

/-
  The normal form of the keys that name suits, ranks and
  categories: blanks at the ends do not count, nor does the
  case of letters.

  Key definitions include:
    * `Text.lowerKey`
    * `Text.normalKey`
-/

------------------------------------------------------------
-- Normal Form
------------------------------------------------------------

namespace JokerRun

namespace Text

/-
  Lower case as far as a key can tell: besides the capitals
  of ASCII, the Kelvin sign is the one character whose lower
  case is a single ASCII letter.
-/
def lowerKey
    (c : Char) : Char :=
  if 'A' ≤ c ∧ c ≤ 'Z' then
    Char.ofNat (c.toNat + 32)
  else if c = '\u212a' then
    'k'
  else
    c

/- The normal form of a key. -/
def normalKey
    (cs : List Char) : List Char :=
  (trim cs).map lowerKey

end Text

end JokerRun
