import JokerRun.Card.Chips
import JokerRun.Json.Field
import JokerRun.Json.Reader
import JokerRun.Text.Quoted

/-
  The table of rank chips as content.

  Key definitions include:
    * `RankEntry`
    * `RankTable.build`
    * `RankTable.parse?`
-/

------------------------------------------------------------
-- Entries
------------------------------------------------------------

namespace JokerRun

/- One entry of the table. -/
structure RankEntry where
  chips : Int
deriving DecidableEq, Repr

namespace RankEntry

/- The stored form of an entry. -/
def stored
    (e : RankEntry) : Json :=
  .object [("chips", .whole e.chips)]

/- The entry of a stored form; chips may be absent. -/
def ofStored?
    (v : Json) : Option RankEntry := do
  let fs ← v.fields? ["chips"]
  let chips ← fs.optional "chips" 0 Json.amount?
  return ⟨chips⟩

end RankEntry

------------------------------------------------------------
-- The Table
------------------------------------------------------------

namespace RankTable

/- What an entry adds: chips of its rank, or a warning. -/
def addEntry
    (t : RankChips × List String)
    (e : String × RankEntry) : RankChips × List String :=
  match Rank.ofKey? e.1.toList with
  | some r => (t.1.insert r e.2.chips, t.2)
  | none =>
      (t.1,
        t.2 ++
          [s!"unknown rank key {Text.quoted e.1} in rank table"])

/- A warning for each rank without chips. -/
def missingWarnings
    (t : RankChips) : List String :=
  t.missing.map fun r =>
    s!"rank {r.name} has no chip value and will score 0"

/- The table of entries, with the warnings that it leaves. -/
def build
    (es : Dictionary RankEntry) : RankChips × List String :=
  let (t, warnings) :=
    es.entries.foldl addEntry (RankChips.empty, [])
  (t, warnings ++ missingWarnings t)

/- The entries that a text stands for. -/
def entries?
    (s : String) : Option (Dictionary RankEntry) :=
  (Json.parse s).bind (Json.dictionary? RankEntry.ofStored?)

/- The table of a text, with the warnings that it leaves. -/
def parse?
    (s : String) : Option (RankChips × List String) :=
  (entries? s).map build

end RankTable

end JokerRun
