import ClassScript.Eval.Stmt
import ClassScript.Syntax.Alg

/-! What programs do, as an algebra: an expression means what it evaluates to in a scope,
a statement what it does with a budget of steps in a scope. A source is run by parsing it
through this algebra and running the meanings of its statements. -/
namespace ClassScript

namespace Act

def evalEach (scope : Scope) : List (Scope → Act Value) → Act (List Value)
  | [] => pure []
  | e :: es => do
    let v ← e scope
    let vs ← evalEach scope es
    return v :: vs

/-- The truth value of a condition given by its meaning. -/
def test (keyword : String) (c : Scope → Act Value) (scope : Scope) : Act Bool := do
  let v ← c scope
  within (.condition keyword) (asBool v)

/-- A statement's meaning run with a budget: running it costs one step. -/
def metered (run : Nat → Scope → Act Scope) : Nat → Scope → Act Scope
  | 0, _ => fault .outOfSteps
  | n + 1, scope => run n scope

def runEach : List (Nat → Scope → Act Scope) → Nat → Scope → Act Scope
  | [], _, scope => return scope
  | _ :: _, 0, _ => fault .outOfSteps
  | s :: rest, n + 1, scope => do
    let scope ← s n scope
    runEach rest n scope

/-- A `while` loop, given the meanings of its condition and its body. -/
def loop (c : Scope → Act Value) (body : Nat → Scope → Act Scope) : Nat → Scope → Act Scope
  | 0, _ => fault .outOfSteps
  | n + 1, scope => do
    if ← test "while" c scope then
      let scope ← body n scope
      loop c body n scope
    else return scope

/-- A declaration whose initial value is given by its meaning. -/
def declareWith (scope : Scope) (type name : Name) (init : Option (Scope → Act Value)) :
    Act Scope := do
  let t ← atLine type.line (ofExcept ((← get).registry.lookup type.text))
  let box ← newDefault t
  match init with
  | some e =>
    let v ← e scope
    atLine name.line (within (.declare name.text) (do checkAssignable t v; setValue box v))
  | none => pure ()
  return scope.define name.text box

/-- What expressions and statements do when run: an expression's meaning takes the scope
it is evaluated in, a statement's also the budget of steps it may take. A name, a literal,
`new` and a class declaration have no parts and mean what they do. -/
def evaluator : Alg (Scope → Act Value) (Nat → Scope → Act Scope) where
  literal l scope := eval scope (.literal l)
  grouping e := e
  var name scope := eval scope (.var name)
  assign name rhs scope := do
    let v ← rhs scope
    match scope.lookup? name.text with
    | none => atLine name.line (fault (.undefined name.text))
    | some box =>
      atLine name.line (checkAssignable ((← get).tyOf box) v)
      atLine name.line (within (.assignTo name.text) (setValue box v))
      return box
  unary op line e scope := do
    let v ← e scope
    atLine line (Act.unary op v)
  binary op line l r scope := do
    let lv ← l scope
    let rv ← r scope
    atLine line (Act.binary op lv rv)
  logical op line l r scope := do
    let lv ← l scope
    let truthy ← atLine line (asBool lv)
    match op with
    | .or => if truthy then return lv else r scope
    | .and => if truthy then r scope else return lv
  call callee line args scope := do
    let f ← callee scope
    let vs ← evalEach scope args
    match f with
    | .builtin b =>
      if vs.length ≠ b.arity then atLine line (fault (.arity b.arity vs.length))
      else atLine line (within (.builtin b.name) (callBuiltin b vs))
    | _ => atLine line (fault (.notCallable (← typeName f)))
  new cls scope := eval scope (.new cls)
  get obj field scope := do
    let a ← instanceBox (← obj scope) field
    atLine field.line (getField a field.text)
  set obj field rhs scope := do
    let a ← instanceBox (← obj scope) field
    let v ← rhs scope
    let stored ← atLine field.line (fieldValue a field.text v)
    atLine field.line (setField a field.text stored)
    return stored
  expr e := metered fun _ scope => do
    let _ ← e scope
    return scope
  block body := metered fun n scope => do
    let _ ← runEach body n ([] :: scope)
    return scope
  ifElse c t e := metered fun n scope => do
    if ← test "if" c scope then t n scope else e n scope
  whileLoop c body := loop c body
  declare type name init := metered fun _ scope => declareWith scope type name init
  classDecl name parent fields n scope := exec n (.classDecl name parent fields) scope

end Act

end ClassScript
