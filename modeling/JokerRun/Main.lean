import JokerRun.CommandLine.Program

/-
  The command line.

  Key definitions include:
    * `main`
-/

------------------------------------------------------------
-- Files And Streams
------------------------------------------------------------

namespace JokerRun

namespace Shell

/- What stands under a path of the file system. -/
def look
    (path : String) : IO FileState := do
  try
    let b ← IO.FS.readBinFile path
    return .bytes b.toList
  catch e =>
    match e with
    | .inappropriateType _ 21 _ => return .directory
    | .inappropriateType .. => return .behindFile
    | .permissionDenied _ code reason =>
        return .blocked true s!"{reason} (os error {code})"
    | _ => return .missing

/- The content files of a directory, looked at once. -/
def lookAll
    (dir : String) : IO (String → FileState) := do
  let names :=
    [Assets.rulesFile, Assets.ranksFile, Assets.jokersFile]
  let found ← names.mapM fun name => do
    let path := pathIn dir name
    return (path, ← look path)
  return fun path => (found.lookup path).getD .missing

/- Both texts written. -/
def write
    (out : Output) : IO Unit := do
  let stdout ← IO.getStdout
  let stderr ← IO.getStderr
  stderr.putStr out.stderr
  stdout.putStr out.stdout
  stdout.flush

------------------------------------------------------------
-- Conversation
------------------------------------------------------------

/- The lines of the player answered until the player leaves. -/
partial def converse
    (s : Session) : IO UInt32 := do
  write s.prompt
  let line ← (← IO.getStdin).getLine
  if line.isEmpty then
    return 0
  let (out, next) := s.answer line
  write out
  match next with
  | none => return 0
  | some t => converse t

/- The conversation; input that is no text ends it. -/
def converseSafely
    (s : Session) : IO UInt32 := do
  try
    converse s
  catch _ =>
    write
      (.ofError
        "read stdin: stream did not contain valid UTF-8")
    return 1

/- The directory of content that the arguments name. -/
def contentDir
    (args : List String) : String :=
  match Options.parse args with
  | .ok o => o.assets
  | .error _ => Options.standard.assets

end Shell

end JokerRun

/- The program. -/
def main
    (args : List String) : IO UInt32 := do
  let file ← JokerRun.Shell.lookAll
    (JokerRun.Shell.contentDir args)
  let (out, course) := JokerRun.Program.start args file
  JokerRun.Shell.write out
  match course with
  | .done code => return UInt32.ofNat code
  | .waiting s => JokerRun.Shell.converseSafely s
