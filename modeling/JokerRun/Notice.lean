/-
  Notices: lines for the operator of the table, apart from
  the game's own output.

  Key definitions include:
    * `Notice`
    * `Notice.line`
    * `Notice.isShown`
-/

------------------------------------------------------------
-- Notices
------------------------------------------------------------

namespace JokerRun

/- How much a notice matters. -/
inductive Level where
  | error
  | warning
  | info
  | debug
deriving DecidableEq, Repr

/- The label that opens a notice's line. -/
def Level.label : Level → String
  | .error => "error"
  | .warning => "warning"
  | .info => "info"
  | .debug => "debug"

/- One line for the operator. -/
structure Notice where
  level : Level
  text : String
deriving DecidableEq, Repr

namespace Notice

/- A notice about something tolerated. -/
def warning
    (text : String) : Notice :=
  ⟨.warning, text⟩

/- A notice about the course of the game. -/
def info
    (text : String) : Notice :=
  ⟨.info, text⟩

/- A notice about details. -/
def debug
    (text : String) : Notice :=
  ⟨.debug, text⟩

/- The written line. -/
def line
    (n : Notice) : String :=
  n.level.label ++ ": " ++ n.text

/- Errors and warnings are always shown, the rest on demand. -/
def isShown
    (verbose : Bool)
    (n : Notice) : Bool :=
  match n.level with
  | .error => true
  | .warning => true
  | .info => verbose
  | .debug => verbose

end Notice

end JokerRun
