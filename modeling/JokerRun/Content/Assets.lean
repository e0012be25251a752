import JokerRun.Content.Jokers
import JokerRun.Content.Ranks
import JokerRun.Stored.Rules

/-
  A directory of content: rules, rank chips and jokers.

  Without a file of rules the standard ones hold; a file of
  rules that cannot be read is an error.  A file of ranks or
  jokers that cannot be read only leaves a warning, and its
  table or catalog is empty.

  Key definitions include:
    * `FileState`
    * `FileError`
    * `Assets`
    * `Assets.load`
-/

------------------------------------------------------------
-- Files
------------------------------------------------------------

namespace JokerRun

/- What stands under a path. -/
inductive FileState where
  | missing
  /- The path leads through a file. -/
  | behindFile
  | directory
  /-
    Reading fails for another reason of the file system; it
    may be seen that something stands there or not.
  -/
  | blocked (isSeen : Bool) (reason : String)
  | bytes (b : List UInt8)
deriving DecidableEq, Repr

/- Why a file gives no content. -/
inductive FileError where
  | notFound
  | notDirectory
  | isDirectory
  | blocked (reason : String)
  | notText
  | malformed
  | record (e : RecordError)
deriving BEq, Repr

namespace FileError

/-
  The wording of a fault; text that is no stored data is only
  marked as such.
-/
def detail : FileError → String
  | .notFound => "No such file or directory (os error 2)"
  | .notDirectory => "Not a directory (os error 20)"
  | .isDirectory => "Is a directory (os error 21)"
  | .blocked reason => reason
  | .notText => "stream did not contain valid UTF-8"
  | .malformed => "<json>"
  | .record e => e.message

/- What was tried when the fault arose. -/
def attempt : FileError → String
  | .notFound => "read"
  | .notDirectory => "read"
  | .isDirectory => "read"
  | .blocked _ => "read"
  | .notText => "read"
  | .malformed => "parse"
  | .record _ => "parse"

/- The fault of a file. -/
def message
    (path : String)
    (e : FileError) : String :=
  s!"{e.attempt} {path}: {e.detail}"

/- The fault of a text that gives no catalog. -/
def ofFault : JokerTable.Fault → FileError
  | .malformed => .malformed
  | .record e => .record e

end FileError

namespace FileState

/- Whether anything stands under the path. -/
def isPresent : FileState → Bool
  | .missing => false
  | .behindFile => false
  | .directory => true
  | .blocked isSeen _ => isSeen
  | .bytes _ => true

/- The text of a file. -/
def text : FileState → Except FileError String
  | .missing => .error .notFound
  | .behindFile => .error .notDirectory
  | .directory => .error .isDirectory
  | .blocked _ reason => .error (.blocked reason)
  | .bytes b =>
      match String.fromUTF8? ⟨b.toArray⟩ with
      | none => .error .notText
      | some s => .ok s

end FileState

/- A file's name inside a directory. -/
def pathIn
    (dir name : String) : String :=
  match dir.toList.getLast? with
  | none => name
  | some '/' => dir ++ name
  | some _ => dir ++ "/" ++ name

------------------------------------------------------------
-- Parts
------------------------------------------------------------

/- What a directory of content gives. -/
structure Assets where
  rules : Rules
  chips : RankChips
  catalog : Catalog
  warnings : List String

namespace Assets

/- The file of the rules. -/
def rulesFile : String :=
  "game.json"

/- The file of the rank chips. -/
def ranksFile : String :=
  "ranks.json"

/- The file of the jokers. -/
def jokersFile : String :=
  "jokers.json"

/- The rules of a text. -/
def parseRules
    (s : String) : Except FileError Rules :=
  match (Json.parse s).bind Rules.ofStored? with
  | none => .error .malformed
  | some r => .ok r

/- The rules of a file; without a file the standard ones. -/
def rulesOf
    (f : FileState) : Except FileError Rules :=
  if f.isPresent then f.text.bind parseRules
  else .ok Rules.standard

/- The table of a text. -/
def parseRanks
    (s : String) :
    Except FileError (RankChips × List String) :=
  match RankTable.parse? s with
  | none => .error .malformed
  | some t => .ok t

/- The rank chips of a file, with the warnings. -/
def ranksOf
    (path : String)
    (f : FileState) : RankChips × List String :=
  match f.text.bind parseRanks with
  | .ok t => t
  | .error e =>
      (RankChips.empty,
        s!"{e.message path}; every rank scores 0" ::
          RankTable.missingWarnings RankChips.empty)

/- The catalog of a text, with the warnings. -/
def parseJokers
    (s : String) : Except FileError Catalog × List String :=
  let (c, warnings) := JokerTable.parse s
  (c.mapError FileError.ofFault, warnings)

/- The catalog of a file or its fault, with the warnings. -/
def readJokers
    (f : FileState) : Except FileError Catalog × List String :=
  match f.text with
  | .error e => (.error e, [])
  | .ok s => parseJokers s

/- The catalog of a file, with the warnings. -/
def jokersOf
    (path : String)
    (f : FileState) : Catalog × List String :=
  match readJokers f with
  | (.ok c, warnings) => (c, warnings)
  | (.error e, warnings) =>
      (Catalog.empty,
        warnings ++
          [s!"{e.message path}; no jokers available"])

------------------------------------------------------------
-- Directories
------------------------------------------------------------

/- A file of rules that cannot be read. -/
structure LoadError where
  path : String
  cause : FileError
deriving BEq, Repr

/- The wording of the fault. -/
def LoadError.message
    (e : LoadError) : String :=
  e.cause.message e.path

/- The content of a directory whose files are given. -/
def load
    (dir : String)
    (file : String → FileState) : Except LoadError Assets :=
  let rulesPath := pathIn dir rulesFile
  let ranksPath := pathIn dir ranksFile
  let jokersPath := pathIn dir jokersFile
  match rulesOf (file rulesPath) with
  | .error e => .error ⟨rulesPath, e⟩
  | .ok rules =>
      let (chips, rankWarnings) :=
        ranksOf ranksPath (file ranksPath)
      let (catalog, jokerWarnings) :=
        jokersOf jokersPath (file jokersPath)
      .ok ⟨rules, chips, catalog,
        rankWarnings ++ jokerWarnings⟩

/- The notice about a directory without a file of rules. -/
def rulesNotices
    (dir : String)
    (file : String → FileState) : List Notice :=
  if (file (pathIn dir rulesFile)).isPresent then
    []
  else
    [Notice.debug
      s!"no {rulesFile} in {dir}, using default rules"]

/- The notices that loading a directory leaves. -/
def loadNotices
    (dir : String)
    (file : String → FileState)
    (a : Assets) : List Notice :=
  rulesNotices dir file ++
    a.warnings.map Notice.warning ++
    [Notice.info
      s!"loaded {a.catalog.size} abilities and {a.chips.size} rank chip entries from {dir}"]

end Assets

end JokerRun
