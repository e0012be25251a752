import JokerRun.CommandLine.Commands
import JokerRun.CommandLine.Options
import JokerRun.Content.Assets

/-
  The program: scoring one hand, or a run that answers the
  lines of a player.

  The files that the program reads are given as a function
  of their paths, so what it writes is a function of its
  arguments, its files and its input.

  Key definitions include:
    * `Output`
    * `Failure`
    * `Program.score`
    * `Session`
    * `Session.answer`
    * `Program.start`
    * `Program.transcript`
-/

------------------------------------------------------------
-- Output
------------------------------------------------------------

namespace JokerRun

/- Text for players and text for the operator. -/
structure Output where
  stdout : String
  stderr : String
deriving DecidableEq, Repr

namespace Output

/- No text. -/
def empty : Output :=
  ⟨"", ""⟩

/- One text after the other. -/
def append
    (a b : Output) : Output :=
  ⟨a.stdout ++ b.stdout, a.stderr ++ b.stderr⟩

/- Lines for players. -/
def ofLines
    (ls : List String) : Output :=
  ⟨String.join (ls.map fun l => l ++ "\n"), ""⟩

/- The notices that are shown. -/
def ofNotices
    (verbose : Bool)
    (ns : List Notice) : Output :=
  ⟨"",
    String.join
      ((ns.filter fun n => n.isShown verbose).map fun n =>
        n.line ++ "\n")⟩

/- The line of an error. -/
def ofError
    (message : String) : Output :=
  ⟨"", s!"error: {message}\n"⟩

end Output

------------------------------------------------------------
-- Failures
------------------------------------------------------------

/- Why the program gives up. -/
inductive Failure where
  | noCards
  | load (dir : String) (e : Assets.LoadError)
  | badCard (token : String)
  | unknownJoker (id : String) (known : List String)
  | run (e : RunError)
deriving BEq, Repr

/- The wording of a failure. -/
def Failure.message : Failure → String
  | .noCards =>
      "score needs the played cards, e.g. \"10D JD QD KD AD\""
  | .load dir e => s!"load assets from {dir}: {e.message}"
  | .badCard w => s!"invalid card '{w}'"
  | .unknownJoker id known =>
      let ids := String.intercalate ", " known
      s!"unknown joker id '{id}' (known: {ids})"
  | .run e => e.message

------------------------------------------------------------
-- Scoring
------------------------------------------------------------

namespace Program

/- The jokers with given identifiers, in order. -/
def board
    (catalog : Catalog) :
    List String → Except Failure (List Ability)
  | [] => .ok []
  | id :: ids =>
      match catalog.get? id with
      | none => .error (.unknownJoker id catalog.ids)
      | some a => (board catalog ids).map (a :: ·)

/- The notice about more cards than the table allows. -/
def selectionNotices
    (limit played : Nat) : List Notice :=
  if limit < played then
    [Notice.warning
      s!"{played} cards played, the table allows {limit}"]
  else
    []

/- The written result of a played hand. -/
def report
    (json : Bool)
    (s : PlaySummary)
    (played : List Card) : List String :=
  if json then [Screen.storedScore s played]
  else Screen.score s played

/- Written cards, or the failure of the first bad one. -/
def cards
    (text : String)
    (chips : RankChips)
    (firstId : Nat) : Except Failure (List Card) :=
  (CardList.parse text chips firstId).mapError .badCard

/-
  The result of played cards with content at hand: what is
  written, or the failure, and the notices on the way.
-/
def scoreWith
    (o : Options)
    (a : Assets)
    (text : String) :
    Except Failure (List String) × List Notice :=
  let first := CardList.notices text a.chips
  match cards text a.chips 1 with
  | .error e => (.error e, first)
  | .ok selected =>
      let heldText := o.held.getD ""
      let noted :=
        first ++
          selectionNotices a.rules.run.maxSelection
            selected.length ++
          CardList.notices heldText a.chips
      match cards heldText a.chips (selected.length + 1) with
      | .error e => (.error e, noted)
      | .ok held =>
          match board a.catalog o.jokers with
          | .error e => (.error e, noted)
          | .ok jokers =>
              let s :=
                Scoring.play a.rules.hands selected held jokers
              (.ok (report o.json s selected), noted)

/- The content that the options name. -/
def load
    (o : Options)
    (file : String → FileState) : Except Failure Assets :=
  (Assets.load o.assets file).mapError (.load o.assets)

/- The command that scores one hand. -/
def score
    (o : Options)
    (file : String → FileState) :
    Except Failure (List String) × List Notice :=
  match o.cards with
  | none => (.error .noCards, [])
  | some text =>
      match load o file with
      | .error e => (.error e, [])
      | .ok a =>
          let (result, notices) := scoreWith o a text
          (result,
            Assets.loadNotices o.assets file a ++ notices)

end Program

------------------------------------------------------------
-- Sessions
------------------------------------------------------------

/- A run that waits for a line. -/
structure Session where
  run : Run
  verbose : Bool

namespace Session

/- What stands before a line of the player. -/
def prompt
    (s : Session) : Output :=
  ⟨s.run.phase.word ++ "> ", ""⟩

/- The line of a complaint. -/
def complaintLines : Option Complaint → List String
  | none => []
  | some c => ["! " ++ c.message]

/- What is written about a reaction. -/
def reactionOutput
    (s : Session)
    (x : Reaction) : Output :=
  (Output.ofLines
      (x.lines ++ complaintLines x.complaint ++
        Screen.events x.events)).append
    (Output.ofNotices s.verbose x.notices)

/- The words that end a session. -/
def isFarewell
    (word : String) : Bool :=
  word == "quit" || word == "exit" || word == "q"

/-
  The answer to a line of the player, and the session after
  it unless the player leaves.
-/
def answer
    (s : Session)
    (line : String) : Output × Option Session :=
  match (Text.words line.toList).map String.ofList with
  | [] => (.empty, some s)
  | word :: args =>
      if isFarewell word then
        (.empty, none)
      else
        let x := s.run.execute word args
        (s.reactionOutput x, some { s with run := x.run })

/- All that is written while lines are answered. -/
def transcript
    (s : Session) : List String → Output
  | [] => s.prompt
  | l :: ls =>
      match s.answer l with
      | (out, none) => s.prompt.append out
      | (out, some t) =>
          (s.prompt.append out).append (t.transcript ls)

end Session

------------------------------------------------------------
-- The Program
------------------------------------------------------------

namespace Program

/- How the program goes on after its start. -/
inductive Course where
  /- It ends with an exit code. -/
  | done (code : Nat)
  /- It answers the lines of a player. -/
  | waiting (s : Session)

/- What is written before the first line of a run. -/
def welcome
    (o : Options)
    (a : Assets)
    (t : Turn Unit) : List String :=
  s!"loaded {a.catalog.size} jokers ({a.warnings.length} content warnings), seed {o.seed}" ::
    Screen.events t.events ++ Screen.help ++
    Screen.hand t.run

/- The command that begins a run. -/
def begin
    (o : Options)
    (file : String → FileState) : Output × Course :=
  match load o file with
  | .error e => (.ofError e.message, .done 1)
  | .ok a =>
      let r :=
        Run.begin a.rules a.chips a.catalog
          (UInt64.ofNat o.seed)
      let t := r.startRound
      ((Output.ofNotices o.verbose
          (Assets.loadNotices o.assets file a ++
            t.notices)).append
          (.ofLines (welcome o a t)),
        .waiting ⟨t.run, o.verbose⟩)

/- What a scored hand leaves. -/
def scored
    (o : Options)
    (file : String → FileState) : Output × Course :=
  match score o file with
  | (.ok lines, notices) =>
      ((Output.ofNotices o.verbose notices).append
        (.ofLines lines), .done 0)
  | (.error e, notices) =>
      ((Output.ofNotices o.verbose notices).append
        (.ofError e.message), .done 1)

/- The start of the program. -/
def start
    (args : List String)
    (file : String → FileState) : Output × Course :=
  match Options.parse args with
  | .error e =>
      ((Output.ofError e.message).append
        (.ofLines Screen.usage), .done 2)
  | .ok o =>
      match o.command with
      | .help => (.ofLines Screen.usage, .done 0)
      | .score => scored o file
      | .run => begin o file

/- The lines of an input. -/
def inputLines
    (s : String) : List String :=
  let ls := Text.cut (· == '\n') s.toList
  let ended := if ls.getLast? = some [] then ls.dropLast else ls
  ended.map String.ofList

/- All that the program writes, and its exit code. -/
def transcript
    (args : List String)
    (file : String → FileState)
    (input : String) : Output × Nat :=
  match start args file with
  | (out, .done code) => (out, code)
  | (out, .waiting s) =>
      (out.append (s.transcript (inputLines input)), 0)

end Program

end JokerRun
