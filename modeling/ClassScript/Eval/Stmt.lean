import ClassScript.Eval.Expr

/-! Running statements. A declaration binds a new box in the innermost frame, a block runs
in a frame of its own and gives back the scope it started with, and a condition must
convert to a truth value. Every statement costs one step of a budget. -/
namespace ClassScript

namespace Act

/-- The truth value of a condition of an `if` or `while`. -/
def condition (keyword : String) (scope : Scope) (c : Expr) : Act Bool := do
  let v ← eval scope c
  within (.condition keyword) (asBool v)

/-- Makes, fills and declares a class. -/
def declareClass (name : Name) (parent : Option Name) (fields : List FieldDecl) : Act Unit := do
  let super ← match parent with
    | some p => some <$> atLine p.line (ofExcept ((← get).registry.lookupClass p.text))
    | none => pure none
  let c ← modifyGet fun m =>
    let (c, r) := m.registry.newClass name.text super
    (c, { m with registry := r })
  for f in fields do
    let ft ← if f.type.text = name.text then pure (Ty.cls c)
      else atLine f.type.line (ofExcept ((← get).registry.lookup f.type.text))
    atLine f.name.line (updateRegistry (·.addField c f.name.text ft))
  atLine name.line (updateRegistry (·.declare c))
  consult c

/-- Declares a variable: a new box of its type, given the initial value if any. -/
def declareVar (scope : Scope) (type name : Name) (init : Option Expr) : Act Scope := do
  let t ← atLine type.line (ofExcept ((← get).registry.lookup type.text))
  let box ← newDefault t
  match init with
  | some e =>
    let v ← eval scope e
    atLine name.line (within (.declare name.text) (do checkAssignable t v; setValue box v))
  | none => pure ()
  return scope.define name.text box

mutual

/-- Runs a statement with a budget of steps. -/
def exec : Nat → Stmt → Scope → Act Scope
  | 0, _, _ => fault .outOfSteps
  | n + 1, stmt, scope =>
    match stmt with
    | .expr e => do
      let _ ← eval scope e
      return scope
    | .block body => do
      let _ ← execAll n body ([] :: scope)
      return scope
    | .ifElse c t e => do
      if ← condition "if" scope c then exec n t scope else exec n e scope
    | .whileLoop c body => do
      if ← condition "while" scope c then
        let scope ← exec n body scope
        exec n (.whileLoop c body) scope
      else return scope
    | .var type name init => declareVar scope type name init
    | .classDecl name parent fields => do
      declareClass name parent fields
      return scope

/-- Runs statements in order, stopping at the first fault. -/
def execAll : Nat → List Stmt → Scope → Act Scope
  | _, [], scope => return scope
  | 0, _ :: _, _ => fault .outOfSteps
  | n + 1, s :: rest, scope => do
    let scope ← exec n s scope
    execAll n rest scope

end

end Act

end ClassScript
