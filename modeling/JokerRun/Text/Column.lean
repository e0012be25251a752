/-
  Columns of fixed width; widths count characters.

  Key definitions include:
    * `Text.padRight`
    * `Text.padLeft`
-/

------------------------------------------------------------
-- Padding
------------------------------------------------------------

namespace JokerRun

namespace Text

/- The spaces that a text lacks to a width. -/
def gap
    (width : Nat)
    (s : String) : String :=
  String.ofList (List.replicate (width - s.length) ' ')

/- A text at the left of its column. -/
def padRight
    (width : Nat)
    (s : String) : String :=
  s ++ gap width s

/- A text at the right of its column. -/
def padLeft
    (width : Nat)
    (s : String) : String :=
  gap width s ++ s

end Text

end JokerRun
