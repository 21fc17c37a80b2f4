import ClassScript.Eval.Scope
import ClassScript.Object.Instance
import ClassScript.Object.Identity
import ClassScript.Syntax.Tree

/-! Evaluating expressions. Operands are evaluated left to right, and a fault is reported at
the line of the operator, name or call parenthesis it arose at. A scalar stored in a field is
copied into a new box of the field's type, while an instance is stored as itself. -/
namespace ClassScript

namespace Act

/-- Whether a box of type `target` may take `v`: an instance must be of the target's
class or a subclass of it. -/
def checkAssignable (target : Ty) (v : Value) : Act Unit := do
  match target with
  | .cls want =>
    let m ← get
    match m.object? v with
    | some (_, got, _, _) =>
      if m.registry.isSubclassOf got want then pure ()
      else fault (.cannotAssign (m.registry.className got) (m.registry.className want))
    | none => pure ()
  | _ => pure ()

def isNumber : Option Cell → Bool
  | some (.int _) | some (.real _) => true
  | _ => false

def isString : Option Cell → Bool
  | some (.string _) => true
  | _ => false

def unary (op : UnaryOp) (v : Value) : Act Value := do
  match op with
  | .neg =>
    match ← cellOf v with
    | some (.int n) => alloc (.int (-n))
    | some (.real r) => alloc (.real r.neg)
    | _ => fault (.notANumber "-" (← typeName v))
  | .not => alloc (.bool !(← asBool v))

/-- Integer arithmetic: wrapping, and division toward zero. -/
def intArith (op : BinaryOp) (a b : Int64) : Act Value :=
  match op with
  | .add => alloc (.int (a + b))
  | .sub => alloc (.int (a - b))
  | .mul => alloc (.int (a * b))
  | _ => if b = 0 then fault .divisionByZero else alloc (.int (a / b))

def realArith (op : BinaryOp) (a b : Real) : Act Value :=
  match op with
  | .add => alloc (.real (a.add b))
  | .sub => alloc (.real (a.sub b))
  | .mul => alloc (.real (a.mul b))
  | _ => alloc (.real (a.div b))

/-- An operator applied to two evaluated operands. -/
def binary (op : BinaryOp) (l r : Value) : Act Value := do
  match op with
  | .eq => alloc (.bool ((← get).valueEquals l r))
  | .ne => alloc (.bool !((← get).valueEquals l r))
  | _ =>
    let lc ← cellOf l
    let rc ← cellOf r
    if op = .add ∧ (isString lc ∨ isString rc) then
      let ls ← text l
      let rs ← text r
      alloc (.string (ls ++ rs))
    else if !isNumber lc then fault (.notANumber op.symbol (← typeName l))
    else if !isNumber rc then fault (.notANumber op.symbol (← typeName r))
    else match op with
      | .lt => alloc (.bool ((← asReal l).lt (← asReal r)))
      | .le => alloc (.bool ((← asReal l).le (← asReal r)))
      | .gt => alloc (.bool ((← asReal r).lt (← asReal l)))
      | .ge => alloc (.bool ((← asReal r).le (← asReal l)))
      | _ =>
        match lc, rc with
        | some (.int a), some (.int b) => intArith op a b
        | _, _ => realArith op (← asReal l) (← asReal r)

/-- The value to store in field `name` of the instance in box `a`: an instance as
itself, `null` as a new null instance of a class field, any other value converted
into a new box of the field's type. -/
def fieldValue (a : Nat) (name : String) (v : Value) : Act Value := do
  let m ← get
  let (c, clsName) := match m.cell? a with
    | some (.object c _ _) => (c, m.registry.className c)
    | _ => (0, m.typeName (.ref a))
  match ← fieldType c name with
  | none => fault (.missingField clsName name)
  | some ft =>
    checkAssignable ft v
    let m ← get
    let isClass := match ft with
      | .cls _ => true
      | _ => false
    match m.object? v, v with
    | some _, _ =>
      if isClass then return v
      else fault (.cannotStore (m.typeName v) (m.registry.tyName ft) name)
    | none, .null =>
      if isClass then newDefault ft
      else fault (.cannotStoreNull (m.registry.tyName ft) name)
    | none, _ =>
      let box ← newDefault ft
      setValue box v
      return box

def callBuiltin (b : Builtin) (args : List Value) : Act Value := do
  match b, args with
  | .print, [v] => emit (← text v); return .null
  | .str, [v] => alloc (.string (← text v))
  | .clone, [v] => clone v
  | .hash, [v] => alloc (.int ((← get).hash v).toInt64)
  | .parse, [target, source] => parseInto target (← text source); return target
  | _, _ => return .null

def literal : Literal → Act Value
  | .null => pure .null
  | .bool b => alloc (.bool b)
  | .int v => alloc (.int v)
  | .real v => alloc (.real v)
  | .string s => alloc (.string s)

def instanceBox (v : Value) (field : Name) : Act Nat := do
  match (← get).object? v with
  | some (a, _) => return a
  | none => atLine field.line (fault (.notAnObject (← typeName v) field.text))

mutual

/-- The value of an expression in a scope. -/
def eval (scope : Scope) : Expr → Act Value
  | .literal l => literal l
  | .grouping e => eval scope e
  | .var name =>
    match scope.lookup? name.text with
    | some v => pure v
    | none => atLine name.line (fault (.undefined name.text))
  | .assign name rhs => do
    let v ← eval scope rhs
    match scope.lookup? name.text with
    | none => atLine name.line (fault (.undefined name.text))
    | some box =>
      atLine name.line (checkAssignable ((← get).tyOf box) v)
      atLine name.line (within (.assignTo name.text) (setValue box v))
      return box
  | .unary op line e => do
    let v ← eval scope e
    atLine line (unary op v)
  | .binary op line l r => do
    let lv ← eval scope l
    let rv ← eval scope r
    atLine line (binary op lv rv)
  | .logical op line l r => do
    let lv ← eval scope l
    let truthy ← atLine line (asBool lv)
    match op with
    | .or => if truthy then return lv else eval scope r
    | .and => if truthy then eval scope r else return lv
  | .call callee line args => do
    let f ← eval scope callee
    let vs ← evalAll scope args
    match f with
    | .builtin b =>
      if vs.length ≠ b.arity then atLine line (fault (.arity b.arity vs.length))
      else atLine line (within (.builtin b.name) (callBuiltin b vs))
    | _ => atLine line (fault (.notCallable (← typeName f)))
  | .new cls => do
    let c ← atLine cls.line (ofExcept ((← get).registry.lookupClass cls.text))
    let obj ← newObject c
    match obj with
    | .ref a => initializeFields a
    | _ => pure ()
    return obj
  | .get obj field => do
    let a ← instanceBox (← eval scope obj) field
    atLine field.line (getField a field.text)
  | .set obj field rhs => do
    let a ← instanceBox (← eval scope obj) field
    let v ← eval scope rhs
    let stored ← atLine field.line (fieldValue a field.text v)
    atLine field.line (setField a field.text stored)
    return stored

def evalAll (scope : Scope) : List Expr → Act (List Value)
  | [] => pure []
  | e :: es => do
    let v ← eval scope e
    let vs ← evalAll scope es
    return v :: vs

end

end Act

end ClassScript
