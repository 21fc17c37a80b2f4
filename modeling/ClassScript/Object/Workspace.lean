import ClassScript.Object.Instance
import ClassScript.Object.Identity
import ClassScript.Object.FieldCache

/-! A workspace applies the operations of the object model one at a time, outside any
program. Values live in named slots; classes are kept by name whether they are declared
or not, so that a class can be made, filled and declared in separate steps and the
registry's rules on sealing, redeclaring and the field cache are met directly. An
operation gives an outcome or an error; one that fails keeps what it did before it
failed, and the next operation goes on from there. -/
namespace ClassScript

/-- A value named by an operation: a new scalar box, the null literal, or the value a
slot holds, itself and not a copy. -/
inductive ValueSpec where
  | int (v : Int64)
  | real (r : Real)
  | bool (b : Bool)
  | string (s : String)
  | null
  | slot (name : String)
  deriving Repr

inductive Reading where
  | bool
  | int
  | real
  deriving DecidableEq, Repr

/-- One operation on a workspace. Slots and classes are named; a type is named as in a
field declaration, where `self` is the class being made. -/
inductive Command where
  /-- Makes a class and keeps it by name, then adds its fields in order and, when
  `declare` holds, declares it. -/
  | makeClass (name : String) (parent : Option String) (fields : List (String × String))
      (declare : Bool)
  | declare (cls : String)
  | addField (cls field type : String)
  | lookup (name : String)
  /-- The fields of a class with their types, inherited ones included, and its own
  field declarations. -/
  | fieldTypes (cls : String)
  | subclass (cls ancestor : String)
  | cached
  | new (slot cls : String)
  | default (slot type : String)
  | bind (slot : String) (v : ValueSpec)
  | initFields (slot : String)
  | get (slot field : String) (into : Option String)
  | set (slot field : String) (v : ValueSpec)
  | assign (slot : String) (v : ValueSpec)
  | clone (slot : String) (into : Option String)
  | equals (slot : String) (v : ValueSpec)
  | same (slot : String) (v : ValueSpec)
  | hash (slot : String)
  | text (slot : String)
  | read (slot : String) (target : Reading)
  | parse (slot source : String)
  | fieldNames (slot : String)
  | hasField (slot field : String)
  | fieldType (slot field : String)
  | isNull (slot : String)
  | identity (slot : String)
  deriving Repr

inductive Outcome where
  | done
  | flag (b : Bool)
  | count (n : Nat)
  | word (s : String)
  | decimal (n : Int)
  | described (type text : String)
  | names (ns : Option (List String))
  | typeName (t : Option String)
  | fieldTypes (all : List (String × String)) (own : List String)
  deriving DecidableEq, Repr

/-- Why an operation failed: a fault of the object model, or a name the workspace does
not hold as needed. -/
inductive WorkError where
  | fault (f : Fault)
  | emptySlot (name : String)
  | notAnInstance (slot : String)
  | noClass (name : String)
  deriving DecidableEq, Repr

namespace WorkError

def message : WorkError → String
  | .fault f => f.message
  | .emptySlot n => "slot '" ++ n ++ "' is empty"
  | .notAnInstance n => "slot '" ++ n ++ "' does not hold an instance"
  | .noClass n => "no class '" ++ n ++ "'"

end WorkError

/-- The machine, the slots and the classes made, each by name. -/
structure Workspace where
  machine : Machine
  slots : List (String × Value)
  classes : List (String × Nat)

abbrev Work := EStateM WorkError Workspace

def rebind {α : Type} (xs : List (String × α)) (k : String) (v : α) : List (String × α) :=
  (k, v) :: xs.filter (·.1 != k)

namespace Work

/-- Runs an operation of the machine; a fault keeps the machine it stopped in. -/
def act {α : Type} (x : Act α) : Work α := fun w =>
  match x.run w.machine with
  | .ok a m => .ok a { w with machine := m }
  | .error f m => .error (.fault f) { w with machine := m }

def slot (name : String) : Work Value := do
  match (← get).slots.lookup name with
  | some v => return v
  | none => throw (.emptySlot name)

def store (name : String) (v : Value) : Work Unit :=
  modify fun w => { w with slots := rebind w.slots name v }

/-- The instance a slot holds: its box, class, identity and table. -/
def instanceAt (name : String) : Work (Nat × Nat × Nat × Option Nat) := do
  match (← get).machine.object? (← slot name) with
  | some o => return o
  | none => throw (.notAnInstance name)

def classNamed (name : String) : Work Nat := do
  match (← get).classes.lookup name with
  | some c => return c
  | none => throw (.noClass name)

/-- The parent named for a new class: a class of the workspace, else whatever the
registry says of the name. -/
def parentNamed (name : String) : Work Nat := do
  match (← get).classes.lookup name with
  | some c => return c
  | none => act (Act.ofExcept ((← get).machine.registry.lookupClass name))

/-- The type a name stands for: `self` for the class being made, `null`, a type of the
registry, then a class of the workspace that is not declared. -/
def resolve (self : Option Nat) (name : String) : Work Ty := do
  let w ← get
  match self, name with
  | some c, "self" => return .cls c
  | _, "null" => return .null
  | _, _ =>
    match w.machine.registry.lookup name with
    | .ok t => return t
    | .error e =>
      match w.classes.lookup name with
      | some c => return .cls c
      | none => act (Act.fault e)

def value : ValueSpec → Work Value
  | .int v => act (Act.alloc (.int v))
  | .real r => act (Act.alloc (.real r))
  | .bool b => act (Act.alloc (.bool b))
  | .string s => act (Act.alloc (.string s))
  | .null => pure .null
  | .slot n => slot n

def describe (v : Value) : Work Outcome := do
  let type := (← get).machine.typeName v
  return .described type (← act (Act.text v))

def registry : Work Registry := do
  return (← get).machine.registry

def makeClass (name : String) (parent : Option String) (fields : List (String × String))
    (declare : Bool) : Work Unit := do
  let p ← match parent with
    | some p => some <$> parentNamed p
    | none => pure none
  let c ← modifyGet fun w =>
    let (c, r) := w.machine.registry.newClass name p
    (c, { w with machine := { w.machine with registry := r }, classes := rebind w.classes name c })
  for f in fields do
    let ty ← resolve (some c) f.2
    act (Act.updateRegistry (·.addField c f.1 ty))
  if declare then act (Act.updateRegistry (·.declare c))

def perform : Command → Work Outcome
  | .makeClass name parent fields declare => do
    makeClass name parent fields declare
    return .done
  | .declare cls => do
    let c ← classNamed cls
    act (Act.updateRegistry (·.declare c))
    return .done
  | .addField cls field type => do
    let c ← classNamed cls
    let ty ← resolve (some c) type
    act (Act.updateRegistry (·.addField c field ty))
    return .done
  | .lookup name => do
    let r ← registry
    let c ← act (Act.ofExcept (r.lookupClass name))
    return .word (r.className c)
  | .fieldTypes cls => do
    let c ← classNamed cls
    act (Act.consult c)
    let r ← registry
    let own := ((r.get? c).map (·.fields)).getD []
    return .fieldTypes ((r.fieldTypes c).map fun f => (f.1, r.tyName f.2))
      (own.map fun f => r.tyName f.2 ++ " " ++ f.1)
  | .subclass cls ancestor => do
    let c ← classNamed cls
    let d ← classNamed ancestor
    return .flag ((← registry).isSubclassOf c d)
  | .cached => do
    return .count (← registry).cachedClasses
  | .new name cls => do
    let c ← classNamed cls
    let v ← act (Act.newObject c)
    store name v
    match (← get).machine.object? v with
    | some (_, _, id, _) => return .decimal id
    | none => return .done
  | .default name type => do
    let ty ← resolve none type
    let v ← act (Act.newDefault ty)
    store name v
    describe v
  | .bind name spec => do
    let v ← value spec
    store name v
    describe v
  | .initFields name => do
    let (a, _) ← instanceAt name
    act (Act.initializeFields a)
    return .word (← act (Act.text (.ref a)))
  | .get name field into => do
    let (a, _) ← instanceAt name
    let v ← act (Act.getField a field)
    if let some i := into then store i v
    describe v
  | .set name field spec => do
    let (a, _) ← instanceAt name
    let v ← value spec
    act (Act.setField a field v)
    return .done
  | .assign name spec => do
    let target ← slot name
    let v ← value spec
    act (Act.setValue target v)
    describe target
  | .clone name into => do
    let v ← act (Act.clone (← slot name))
    if let some i := into then store i v
    describe v
  | .equals name spec => do
    let v ← slot name
    let w ← value spec
    return .flag ((← get).machine.valueEquals v w)
  | .same name spec => do
    let v ← slot name
    let w ← value spec
    return .flag (v == w)
  | .hash name => do
    let v ← slot name
    return .decimal ((← get).machine.hash v).toNat
  | .text name => do
    return .word (← act (Act.text (← slot name)))
  | .read name target => do
    let v ← slot name
    match target with
    | .bool => return .flag (← act (Act.asBool v))
    | .int => return .decimal (← act (Act.asInt v)).toInt
    | .real => return .word (← act (Act.asReal v)).text
  | .parse name source => do
    let target ← slot name
    act (Act.parseInto target source)
    describe target
  | .fieldNames name => do
    let (a, _) ← instanceAt name
    return .names (← act (Act.fieldNames a))
  | .hasField name field => do
    let (_, c, _) ← instanceAt name
    act (Act.consult c)
    return .flag ((← registry).hasField c field)
  | .fieldType name field => do
    let (_, c, _) ← instanceAt name
    let t ← act (Act.fieldType c field)
    let r ← registry
    return .typeName (t.map r.tyName)
  | .isNull name => do
    let (_, _, _, t) ← instanceAt name
    return .flag t.isNone
  | .identity name => do
    let (_, c, id, _) ← instanceAt name
    return .word ((← get).machine.identity c id)

end Work

namespace Workspace

/-- An empty workspace whose field cache has the given capacity. -/
def start (capacity : Int) : Workspace := ⟨Machine.empty capacity, [], []⟩

/-- Carries out one command: its outcome or error, and the workspace after it. -/
def step (w : Workspace) (cmd : Command) : Except WorkError Outcome × Workspace :=
  match EStateM.run (Work.perform cmd) w with
  | .ok o w => (.ok o, w)
  | .error e w => (.error e, w)

end Workspace

end ClassScript
