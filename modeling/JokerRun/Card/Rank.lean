import JokerRun.Text.Key
import JokerRun.Text.Numeral

/-
  The thirteen ranks, the ace high.

  Key definitions include:
    * `Rank`
    * `Rank.value`
    * `Rank.ofValue?`
    * `Rank.ofKey?`
-/

------------------------------------------------------------
-- Ranks
------------------------------------------------------------

namespace JokerRun

/- A rank. -/
inductive Rank where
  | two
  | three
  | four
  | five
  | six
  | seven
  | eight
  | nine
  | ten
  | jack
  | queen
  | king
  | ace
deriving DecidableEq, Repr

namespace Rank

/- Every rank, ascending. -/
def all : List Rank :=
  [.two, .three, .four, .five, .six, .seven, .eight, .nine,
    .ten, .jack, .queen, .king, .ace]

/- The place of a rank, from 2 to 14. -/
def value : Rank → Nat
  | .two => 2
  | .three => 3
  | .four => 4
  | .five => 5
  | .six => 6
  | .seven => 7
  | .eight => 8
  | .nine => 9
  | .ten => 10
  | .jack => 11
  | .queen => 12
  | .king => 13
  | .ace => 14

/- The rank at a place; 1 is the ace as well. -/
def ofValue? : Nat → Option Rank
  | 1 => some .ace
  | n => all.find? fun r => r.value == n

/- The name of a rank. -/
def name : Rank → String
  | .jack => "Jack"
  | .queen => "Queen"
  | .king => "King"
  | .ace => "Ace"
  | r => toString r.value

/- The rank on the corner of a card. -/
def short : Rank → String
  | .jack => "J"
  | .queen => "Q"
  | .king => "K"
  | .ace => "A"
  | r => r.name

------------------------------------------------------------
-- Keys
------------------------------------------------------------

/- The words that name a rank, in normal form. -/
def words : Rank → List String
  | .ten => ["t"]
  | .jack => ["jack", "j"]
  | .queen => ["queen", "q"]
  | .king => ["king", "k"]
  | .ace => ["ace", "a"]
  | _ => []

/- The rank that a key names, by a word or by its place. -/
def ofKey?
    (cs : List Char) : Option Rank :=
  let key := Text.normalKey cs
  match all.find? fun r =>
      r.words.contains (String.ofList key) with
  | some r => some r
  | none => (Numeral.read? 255 key).bind ofValue?

end Rank

end JokerRun
