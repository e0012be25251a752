import JokerRun.Card.Basic
import JokerRun.Card.Chips
import JokerRun.Text.Blank
import JokerRun.Text.Numeral

/-
  Lists that players write: cards and positions.

  Key definitions include:
    * `CardList.parse?`
    * `IndexList.parse`
    * `IndexList.parseOne`
-/

------------------------------------------------------------
-- Cards
------------------------------------------------------------

namespace JokerRun

namespace CardList

/- A character between written cards. -/
def isBreak
    (c : Char) : Bool :=
  Text.isBlank c || c == ','

/- The written cards of a text. -/
def tokens
    (s : String) : List (List Char) :=
  Text.pieces isBreak s.toList

/- The faces of written cards; the first bad one is the error. -/
def faces : List (List Char) → Except String (List (Suit × Rank))
  | [] => .ok []
  | w :: ws =>
      match Card.ofNotation? w with
      | none => .error (String.ofList w)
      | some f => (faces ws).map (f :: ·)

/- The cards of faces, numbered in order. -/
def number
    (chips : RankChips) : Nat → List (Suit × Rank) → List Card
  | _, [] => []
  | id, (s, r) :: fs =>
      ⟨id, s, r, chips.chipsFor r⟩ :: number chips (id + 1) fs

/- The cards of a text, or its first bad piece. -/
def parse
    (s : String)
    (chips : RankChips)
    (firstId : Nat) : Except String (List Card) :=
  (faces (tokens s)).map (number chips firstId)

/- The faces before the first piece that is no card. -/
def goodFaces : List (List Char) → List (Suit × Rank)
  | [] => []
  | w :: ws =>
      match Card.ofNotation? w with
      | none => []
      | some f => f :: goodFaces ws

/- The notices that reading the cards leaves. -/
def notices
    (s : String)
    (chips : RankChips) : List Notice :=
  (goodFaces (tokens s)).flatMap fun f =>
    chips.lookupNotices f.2

end CardList

------------------------------------------------------------
-- Positions
------------------------------------------------------------

namespace IndexList

/- Why arguments give no positions. -/
inductive Fault where
  | invalid (part : String)
  | missing
  | notOne
deriving DecidableEq, Repr

/- The wording of a fault. -/
def Fault.message : Fault → String
  | .invalid part => s!"invalid index '{part}'"
  | .missing => "missing indices"
  | .notOne => "expected exactly one index"

/- The written positions of an argument. -/
def parts
    (arg : String) : List (List Char) :=
  ((Text.cut (· == ',') arg.toList).map Text.trim).filter
    fun w => !w.isEmpty

/- The values of written positions. -/
def readAll : List (List Char) → Except Fault (List Nat)
  | [] => .ok []
  | w :: ws =>
      match Numeral.read? Numeral.largest64 w with
      | none => .error (.invalid (String.ofList w))
      | some n => (readAll ws).map (n :: ·)

/- The positions that arguments list, at least one. -/
def parse
    (args : List String) : Except Fault (List Nat) :=
  match readAll (args.flatMap parts) with
  | .error e => .error e
  | .ok [] => .error .missing
  | .ok (i :: is) => .ok (i :: is)

/- The one position that arguments list. -/
def parseOne
    (args : List String) : Except Fault Nat :=
  match parse args with
  | .error e => .error e
  | .ok [i] => .ok i
  | .ok _ => .error .notOne

end IndexList

end JokerRun
