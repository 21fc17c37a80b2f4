import ClassScript.Eval.Meaning
import ClassScript.Syntax.Parse
import ClassScript.Syntax.Scan

/-! A session runs sources one after another on one machine. Each source is scanned
and parsed, through the algebra of what statements do, first: a scan fault or any syntax
error stops it before anything runs. Its statements then run in order in the global
scope, and the first fault stops the source; what ran before stays. The global scope
starts with the five builtins. -/
namespace ClassScript

/-- Why a source stopped. -/
inductive StepError where
  | scan (e : ScanError)
  | rejected (errors : List SyntaxError)
  | fault (f : Fault)
  deriving DecidableEq, Repr

namespace StepError

def message : StepError → String
  | .scan e => e.message
  | .rejected errs => "\n".intercalate (errs.map (·.message))
  | .fault f => f.message

def errorClass : StepError → ErrorClass
  | .scan e => e.errorClass
  | .rejected _ => .syntaxErrors
  | .fault f => f.errorClass

end StepError

structure Session where
  machine : Machine
  globals : Frame

/-- What one source printed, and why it stopped early if it did. -/
structure StepResult where
  out : String
  error : Option StepError

namespace Session

/-- The budget of steps of one statement at top level. -/
def budget : Nat := Nat.pow 2 62

/-- A session with the builtins bound and a field cache of the given capacity. -/
def start (capacity : Int) : Session :=
  ⟨Machine.empty capacity, Builtin.all.map fun b => (b.name, .builtin b)⟩

/-- Runs top-level statements, each given by what it does, in order, stopping at the first
fault. -/
def runMeanings (s : Session) : List (Nat → Scope → Act Scope) → Option Fault × Session
  | [] => (none, s)
  | run :: rest =>
    match (run budget [s.globals]).run s.machine with
    | .ok scope m =>
      let globals := match scope with
        | g :: _ => g
        | [] => s.globals
      runMeanings ⟨m, globals⟩ rest
    | .error f m => (some f, { s with machine := m })

def runAll (s : Session) (stmts : List Stmt) : Option Fault × Session :=
  s.runMeanings (stmts.map fun stmt n scope => Act.exec n stmt scope)

@[simp] theorem runAll_nil (s : Session) : s.runAll [] = (none, s) := rfl

theorem runAll_cons (s : Session) (stmt : Stmt) (rest : List Stmt) :
    s.runAll (stmt :: rest) =
      match (Act.exec budget stmt [s.globals]).run s.machine with
      | .ok scope m =>
        let globals := match scope with
          | g :: _ => g
          | [] => s.globals
        runAll ⟨m, globals⟩ rest
      | .error f m => (some f, { s with machine := m }) := rfl

/-- Scans, parses and runs one source. -/
def step (s : Session) (source : String) : StepResult × Session :=
  let s := { s with machine := { s.machine with out := "" } }
  match Token.scan source with
  | .error e => (⟨"", some (.scan e)⟩, s)
  | .ok tokens =>
    match Parse.program Act.evaluator tokens with
    | (_, e :: es) => (⟨"", some (.rejected (e :: es))⟩, s)
    | (meanings, []) =>
      let (fault?, s) := s.runMeanings meanings
      (⟨s.machine.out, fault?.map .fault⟩, s)

/-- The global variables, builtins left out, by name: one line each with the type,
the name and the value's text. -/
def vars (s : Session) : String :=
  let names := (s.globals.map (·.1)).mergeSort fun a b => decide (a ≤ b)
  String.join <| names.filterMap fun name =>
    match s.globals.lookup name with
    | some (.builtin _) | none => none
    | some v =>
      some (s.machine.typeName v ++ " " ++ name ++ " = " ++ (s.machine.render v).1 ++ "\n")

end Session

end ClassScript
