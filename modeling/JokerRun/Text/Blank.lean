/-
  White space and the pieces of a text.

  Blanks are the 25 characters of the Unicode property
  White_Space.  A text is cut at the characters of a class;
  its pieces are the non-empty stretches between the cuts.

  Key definitions include:
    * `Text.isBlank`
    * `Text.trim`
    * `Text.cut`
    * `Text.pieces`
-/

------------------------------------------------------------
-- Blanks
------------------------------------------------------------

namespace JokerRun

namespace Text

/- A character of the property White_Space. -/
def isBlank
    (c : Char) : Bool :=
  let n := c.toNat
  (decide (9 ≤ n) && decide (n ≤ 13)) ||
    (decide (8192 ≤ n) && decide (n ≤ 8202)) ||
    [32, 133, 160, 5760, 8232, 8233, 8239, 8287, 12288].contains n

/- A text without the blanks at its front. -/
def trimFront
    (cs : List Char) : List Char :=
  cs.dropWhile isBlank

/- A text without the blanks at its two ends. -/
def trim
    (cs : List Char) : List Char :=
  (trimFront (trimFront cs).reverse).reverse

------------------------------------------------------------
-- Cuts
------------------------------------------------------------

/-
  The stretches of a text between the characters of a class,
  empty ones included.
-/
def cut
    (isCut : Char → Bool) : List Char → List (List Char)
  | [] => [[]]
  | c :: cs =>
      if isCut c then
        [] :: cut isCut cs
      else
        match cut isCut cs with
        | [] => [[c]]
        | w :: ws => (c :: w) :: ws

/- The non-empty stretches of a text. -/
def pieces
    (isCut : Char → Bool)
    (cs : List Char) : List (List Char) :=
  (cut isCut cs).filter fun w => !w.isEmpty

/- The words of a text. -/
def words
    (cs : List Char) : List (List Char) :=
  pieces isBlank cs

end Text

end JokerRun
