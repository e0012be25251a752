import JokerRun.Card.Rank
import JokerRun.Notice

/-
  The chips that a card of each rank brings.

  Key definitions include:
    * `RankChips`
    * `RankChips.standard`
    * `RankChips.chipsFor`
    * `RankChips.missing`
-/

------------------------------------------------------------
-- The Table
------------------------------------------------------------

namespace JokerRun

/- The chips of each rank that has an entry. -/
structure RankChips where
  get? : Rank → Option Int

namespace RankChips

/- The table without entries. -/
def empty : RankChips :=
  ⟨fun _ => none⟩

/- The face value of a rank. -/
def faceValue : Rank → Int
  | .jack => 10
  | .queen => 10
  | .king => 10
  | .ace => 11
  | r => (r.value : Int)

/- The table of face values. -/
def standard : RankChips :=
  ⟨fun r => some (faceValue r)⟩

/- A table with one entry set. -/
def insert
    (t : RankChips)
    (rank : Rank)
    (chips : Int) : RankChips :=
  ⟨fun r => if r = rank then some chips else t.get? r⟩

/- The ranks without an entry, ascending. -/
def missing
    (t : RankChips) : List Rank :=
  Rank.all.filter fun r => (t.get? r).isNone

/- The entries, by ascending rank. -/
def entries
    (t : RankChips) : List (Rank × Int) :=
  Rank.all.filterMap fun r =>
    (t.get? r).map fun chips => (r, chips)

/- The number of entries. -/
def size
    (t : RankChips) : Nat :=
  t.entries.length

/- Whether there is no entry. -/
def isEmpty
    (t : RankChips) : Bool :=
  t.size == 0

------------------------------------------------------------
-- Chips For A Card
------------------------------------------------------------

/- The chips of a rank; a missing one brings none. -/
def chipsFor
    (t : RankChips)
    (rank : Rank) : Int :=
  (t.get? rank).getD 0

/- The notice that looking up a missing rank leaves. -/
def lookupNotices
    (t : RankChips)
    (rank : Rank) : List Notice :=
  match t.get? rank with
  | some _ => []
  | none =>
      [Notice.warning
        s!"no chip value for rank {rank.name}, using 0"]

end RankChips

end JokerRun
