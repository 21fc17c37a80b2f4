import ClassScript.Config.Load
import ClassScript.Eval.Session
import ClassScript.Syntax.Printer

/-! The command line of the interpreter: global flags `--config FILE` and `--loglevel L`,
then `run`, `ast`, `dumpconfig` or `repl`. The files it reads are given to it, so that
running is a function of the arguments and the files. -/
namespace ClassScript

inductive Task where
  | run
  | ast
  | repl
  | dumpConfig
  deriving DecidableEq, Repr

def Task.ofWord? : String → Option Task
  | "run" => some .run
  | "ast" => some .ast
  | "repl" => some .repl
  | "dumpconfig" => some .dumpConfig
  | _ => none

/-- A command line read: its flags, command and remaining arguments. -/
structure Invocation where
  config : Option String
  logLevel : Option String
  task : Option Task
  args : List String
  deriving DecidableEq, Repr

inductive AppError where
  | usage (message : String)
  | missingArgument
  | missing (path : String)
  | config (e : ConfigError)
  | script (e : StepError)

namespace AppError

def message : AppError → String
  | .usage m => m
  | .missingArgument => "missing FILE argument"
  | .missing p => "open " ++ p ++ ": no such file or directory"
  | .config e => e.message
  | .script e => e.message

def errorClass : AppError → ErrorClass
  | .config e => e.errorClass
  | .script e => e.errorClass
  | _ => .plain

end AppError

namespace Invocation

def knownFlag? : String → Option Bool
  | "config" => some true
  | "loglevel" => some false
  | _ => none

/-- Reads flags from the front of `args` into `inv`, up to the first argument that is
no flag or after `--`; `known` says which names are flags and where they go. -/
def flags (known : String → Option Bool) (inv : Invocation) :
    List String → Except String (Invocation × List String)
  | [] => .ok (inv, [])
  | arg :: rest =>
    let cs := arg.toList
    match cs with
    | '-' :: c :: more =>
      if c == '-' && more.isEmpty then .ok (inv, rest)
      else
        let body := if c == '-' then more else c :: more
        match body with
        | [] => .error ("bad flag syntax: " ++ arg)
        | b :: _ =>
          if b == '-' || b == '=' then .error ("bad flag syntax: " ++ arg)
          else
            let name := String.ofList (body.takeWhile (· != '='))
            let given := body.dropWhile (· != '=')
            match known name with
            | none => .error ("flag provided but not defined: -" ++ name)
            | some isConfig =>
              let set := fun (v : String) =>
                if isConfig then { inv with config := some v } else { inv with logLevel := some v }
              match given with
              | _ :: v => flags known (set (String.ofList v)) rest
              | [] =>
                match rest with
                | v :: rest' => flags known (set v) rest'
                | [] => .error ("flag needs an argument: -" ++ name)
    | _ => .ok (inv, arg :: rest)

def parse (argv : List String) : Except String Invocation := do
  let (inv, rest) ← flags knownFlag? ⟨none, none, none, []⟩ argv
  match rest with
  | word :: more =>
    match Task.ofWord? word with
    | some t =>
      let (_, args) ← flags (fun _ => none) inv more
      return { inv with task := some t, args := args }
    | none => return { inv with args := rest }
  | [] => return inv

def files (inv : Invocation) : List String := inv.config.toList ++ inv.args.head?.toList

end Invocation

/-- What a command printed, and the error it stopped with, if any. -/
structure Report where
  out : String
  error : Option AppError

/-- What a command line comes to: a finished run, or an interactive session with the
settings it runs under. -/
inductive Plan where
  | finished (r : Report)
  | interactive (s : Settings)

namespace Cli

def stopped (e : AppError) : Report := ⟨"", some e⟩

/-- The settings of a command line: from the file named, if any, then the severity
flag, validated. -/
def settings (inv : Invocation) (files : String → Option String) : Except AppError Settings := do
  let s ← match inv.config with
    | some path =>
      if path.isEmpty then pure Settings.standard
      else (Settings.load path (files path)).mapError .config
    | none => pure Settings.standard
  let s := match inv.logLevel with
    | some l => { s with logLevel := l }
    | none => s
  match s.validate with
  | .ok _ => return s
  | .error e => throw (.config (.invalid e))

def source (inv : Invocation) (files : String → Option String) : Except AppError String :=
  match inv.args.head? with
  | none | some "" => .error .missingArgument
  | some path =>
    match files path with
    | some text => .ok text
    | none => .error (.missing path)

def runFile (inv : Invocation) (files : String → Option String) : Report :=
  match source inv files with
  | .error e => stopped e
  | .ok src =>
    match settings inv files with
    | .error e => stopped e
    | .ok s =>
      let (r, _) := (Session.start s.fieldCacheSize).step src
      ⟨r.out, r.error.map .script⟩

/-- Prints the statements of a script that parse, one tree a line, then reports the
syntax errors if there are any. -/
def printTree (inv : Invocation) (files : String → Option String) : Report :=
  match source inv files with
  | .error e => stopped e
  | .ok src =>
    match Token.scan src with
    | .error e => stopped (.script (.scan e))
    | .ok tokens =>
      let (stmts, errs) := Parse.program Alg.printer tokens
      let out := String.join (stmts.map (· ++ "\n"))
      match errs with
      | [] => ⟨out, none⟩
      | e :: es => ⟨out, some (.script (.rejected (e :: es)))⟩

def dumpSettings (inv : Invocation) (files : String → Option String) : Report :=
  match settings inv files with
  | .error e => stopped e
  | .ok s => ⟨s.dump, none⟩

def session (inv : Invocation) (files : String → Option String) : Plan :=
  match settings inv files with
  | .error e => .finished (stopped e)
  | .ok s => .interactive s

/-- What a command line comes to, given the files it may read. -/
def plan (argv : List String) (files : String → Option String) : Plan :=
  match Invocation.parse argv with
  | .error m => .finished (stopped (.usage m))
  | .ok inv =>
    match inv.task with
    | some .run => .finished (runFile inv files)
    | some .ast => .finished (printTree inv files)
    | some .dumpConfig => .finished (dumpSettings inv files)
    | some .repl => session inv files
    | none => if inv.args.isEmpty then session inv files else .finished (runFile inv files)

end Cli

inductive ReplInput where
  | blank
  | quit
  | vars
  | unknownCommand
  | source (text : String)
  deriving DecidableEq, Repr

namespace ReplInput

/-- What the session does with an input: commands start with a colon. -/
def classify (src : String) : ReplInput :=
  let t := Text.trimBlank src
  if t.isEmpty then .blank
  else if t == ":quit" then .quit
  else if t == ":vars" then .vars
  else if t.startsWith ":" then .unknownCommand
  else .source src

def banner : String := "classbox (version 0.1.0). Type :quit to exit."

def continuation : String := "... "

def unknownCommandText : String := "unknown command. Commands: :vars, :quit."

end ReplInput

end ClassScript
