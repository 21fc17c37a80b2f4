import ClassScript.Object.Fault

/-! Types and classes. A class has a name, an optional parent made before it, and its
own fields in declaration order; it gains fields until it is declared, and is sealed
from then on. The registry names the four scalar types and the declared classes. A
class's fields are its own and its ancestors', a field shadowing any ancestor field of
its name. The registry keeps the lookups of declared classes that go through its field
cache. -/
namespace ClassScript

/-- Types of values. Classes are known by their index in the registry. -/
inductive Ty where
  | int
  | real
  | bool
  | string
  | null
  | function
  | cls (c : Nat)
  deriving DecidableEq, Repr

/-- A class: its name, parent, own fields, and whether it is declared. -/
structure ClassDecl where
  name : String
  parent : Option Nat
  fields : List (String × Ty)
  declared : Bool
  deriving DecidableEq, Repr

/-- Every class made so far, the named types, the capacity of the field cache, and the
classes looked up through it, the latest first. -/
structure Registry where
  classes : Array ClassDecl
  named : List (String × Ty)
  capacity : Nat
  lookups : List Nat
  deriving Repr

namespace Registry

/-- The size of the field cache when none is given. -/
def defaultCapacity : Nat := 128

/-- A registry with the scalar types only; a capacity of zero or less means the
default. -/
def empty (capacity : Int) : Registry :=
  { classes := #[]
    named := [("int", .int), ("real", .real), ("bool", .bool), ("string", .string)]
    capacity := if capacity ≤ 0 then defaultCapacity else capacity.toNat
    lookups := [] }

def get? (r : Registry) (c : Nat) : Option ClassDecl := r.classes[c]?

def className (r : Registry) (c : Nat) : String :=
  ((r.get? c).map (·.name)).getD ""

def tyName (r : Registry) : Ty → String
  | .int => "int"
  | .real => "real"
  | .bool => "bool"
  | .string => "string"
  | .null => "null"
  | .function => "function"
  | .cls c => r.className c

/-- The parent of class `c`, when it was made before `c`. -/
def parentOf (r : Registry) (c : Nat) : Option Nat :=
  match (r.get? c).bind (·.parent) with
  | some p => if p < c then some p else none
  | none => none

/-- Sets `name` to `ty` in a field map, in place of an earlier entry of that name. -/
def override (fields : List (String × Ty)) (name : String) (ty : Ty) : List (String × Ty) :=
  if fields.any (·.1 == name) then fields.map fun f => if f.1 == name then (name, ty) else f
  else fields ++ [(name, ty)]

/-- The fields of class `c` and its ancestors: the ancestors' first, each class's own
fields replacing those they shadow. -/
def chainFields (r : Registry) (c : Nat) : List (String × Ty) :=
  let inherited := match h : r.parentOf c with
    | some p =>
      have : p < c := by
        unfold parentOf at h
        split at h
        · split at h
          · cases h; assumption
          · cases h
        · cases h
      chainFields r p
    | none => []
  let own := ((r.get? c).map (·.fields)).getD []
  own.foldl (fun acc f => override acc f.1 f.2) inherited
termination_by c

def fieldTypes (r : Registry) (c : Nat) : List (String × Ty) :=
  (r.chainFields c).mergeSort fun a b => decide (a.1 ≤ b.1)

def fieldType? (r : Registry) (c : Nat) (name : String) : Option Ty :=
  (r.fieldTypes c).lookup name

def hasField (r : Registry) (c : Nat) (name : String) : Bool :=
  (r.fieldType? c name).isSome

/-- Whether class `c` is `d` or descends from it. -/
def isSubclassOf (r : Registry) (c d : Nat) : Bool :=
  if c = d then true
  else match h : r.parentOf c with
    | some p =>
      have : p < c := by
        unfold parentOf at h
        split at h
        · split at h
          · cases h; assumption
          · cases h
        · cases h
      r.isSubclassOf p d
    | none => false
termination_by c

/-- Records that the fields of `c` were looked up: those of a declared class are looked up
through the field cache. -/
def consult (r : Registry) (c : Nat) : Registry :=
  match r.get? c with
  | some k => if k.declared then { r with lookups := c :: r.lookups } else r
  | none => r

def lookup (r : Registry) (name : String) : Except Fault.Cause Ty :=
  match r.named.lookup name with
  | some t => .ok t
  | none => .error (.unknownType name)

def lookupClass (r : Registry) (name : String) : Except Fault.Cause Nat :=
  match r.lookup name with
  | .ok (.cls c) => .ok c
  | .ok _ => .error (.notAClass name)
  | .error e => .error e

def newClass (r : Registry) (name : String) (parent : Option Nat) : Nat × Registry :=
  (r.classes.size, { r with classes := r.classes.push ⟨name, parent, [], false⟩ })

def addField (r : Registry) (c : Nat) (name : String) (ty : Ty) : Except Fault.Cause Registry :=
  match r.get? c with
  | none => .ok r
  | some k =>
    if k.declared then .error (.sealed name k.name)
    else if k.fields.any (·.1 == name) then .error (.duplicateField k.name name)
    else .ok { r with classes := r.classes.set! c { k with fields := k.fields ++ [(name, ty)] } }

/-- Declares a class: its name must be new and its parent declared. -/
def declare (r : Registry) (c : Nat) : Except Fault.Cause Registry :=
  match r.get? c with
  | none => .ok r
  | some k =>
    if (r.named.lookup k.name).isSome then .error (.redeclared k.name)
    else
      let parentOk := match k.parent with
        | some p => ((r.get? p).map (·.declared)).getD false
        | none => true
      if !parentOk then
        .error (.parentNotDeclared (match k.parent with
          | some p => r.className p
          | none => "") k.name)
      else
        .ok { r with
          classes := r.classes.set! c { k with declared := true }
          named := r.named ++ [(k.name, .cls c)] }

end Registry

end ClassScript
