import JokerRun.Text.Unshown

/-
  Quoted text for messages.

  Quotes and backslashes are escaped, the common control
  characters have letters, and a character that would not
  show on its own is written as its number.

  Key definitions include:
    * `Text.quoted`
-/

------------------------------------------------------------
-- Escapes
------------------------------------------------------------

namespace JokerRun

namespace Text

/- A number in lower-case hexadecimal digits. -/
def hexFigures
    (n : Nat) : List Char :=
  Nat.toDigits 16 n

/- The opening brace of a numbered character. -/
def openBrace : Char :=
  '\x7b'

/- The closing brace of a numbered character. -/
def closeBrace : Char :=
  '\x7d'

/- A character as quoted text shows it. -/
def quotedChar
    (c : Char) : List Char :=
  match c with
  | '"' => ['\\', '"']
  | '\\' => ['\\', '\\']
  | '\n' => ['\\', 'n']
  | '\r' => ['\\', 'r']
  | '\t' => ['\\', 't']
  | '\x00' => ['\\', '0']
  | c =>
      if isUnshown c then
        '\\' :: 'u' :: openBrace ::
          hexFigures c.toNat ++ [closeBrace]
      else
        [c]

/- A text between quotes. -/
def quoted
    (s : String) : String :=
  String.ofList ('"' :: s.toList.flatMap quotedChar ++ ['"'])

end Text

end JokerRun
