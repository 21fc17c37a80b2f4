import ClassScript.Cli
import ClassScript.Syntax.Incomplete

/-! The interpreter as a program. The command line is read, the files it names are
read from disk, and the command runs on them: what it prints goes to the output, and
an error to the error stream with a failing exit status. The interactive session reads
statements from the input, a statement going on over further lines while it is
incomplete; the output of each statement is printed, and its error, if any, goes to
the error stream without ending the session. -/
open ClassScript

/-- The contents of those of the files that can be read. -/
def readFiles (paths : List String) : IO (List (String × String)) :=
  paths.filterMapM fun (p : String) => do
    try
      let text ← IO.FS.readFile p
      return some (p, text)
    catch _ => return none

/-- Reads one statement, line after line while it is incomplete; none once the input
has ended. -/
partial def readStatement (stdin stdout : IO.FS.Stream) (prompt : String)
    (acc : Option String) : IO (Option String) := do
  stdout.putStr (if acc.isSome then ReplInput.continuation else prompt)
  stdout.flush
  let line ← stdin.getLine
  if line.isEmpty then return none
  let line := (line.dropEndWhile fun c => c == '\n' || c == '\r').toString
  let text := match acc with
    | some t => t ++ "\n" ++ line
    | none => line
  if Token.incomplete text then readStatement stdin stdout prompt (some text)
  else return some text

/-- The interactive session: statements run one by one on one session. -/
partial def interact (stdin stdout stderr : IO.FS.Stream) (prompt : String) (s : Session) :
    IO Unit := do
  match ← readStatement stdin stdout prompt none with
  | none => stdout.putStrLn ""
  | some src =>
    match ReplInput.classify src with
    | .blank => interact stdin stdout stderr prompt s
    | .quit => return
    | .vars =>
      stdout.putStr s.vars
      interact stdin stdout stderr prompt s
    | .unknownCommand =>
      stdout.putStrLn ReplInput.unknownCommandText
      interact stdin stdout stderr prompt s
    | .source text =>
      let (r, s) := s.step text
      stdout.putStr r.out
      if let some e := r.error then stderr.putStrLn e.message
      interact stdin stdout stderr prompt s

def main (argv : List String) : IO UInt32 := do
  let paths := match Invocation.parse argv with
    | .ok inv => inv.files
    | .error _ => []
  let files ← readFiles paths
  let stdout ← IO.getStdout
  let stderr ← IO.getStderr
  match Cli.plan argv (fun p => files.lookup p) with
  | .finished r =>
    stdout.putStr r.out
    match r.error with
    | some e =>
      stderr.putStrLn e.message
      return 1
    | none => return 0
  | .interactive settings =>
    stdout.putStrLn ReplInput.banner
    interact (← IO.getStdin) stdout stderr settings.prompt (Session.start settings.fieldCacheSize)
    return 0
