import ClassScript.Object.Class

/-! The store of a running program. Every value lives in a box: a scalar box holds an
integer, a real, a truth value or a string and is overwritten in place; an instance
box holds its class, its identity and the field table it uses, or none while it is the
null value of its class. Several instance boxes may use one table, and one table may
hold the same box as another. Identities are handed out in order from 1. -/
namespace ClassScript

inductive Builtin where
  | print
  | str
  | clone
  | hash
  | parse
  deriving DecidableEq, Repr

namespace Builtin

def all : List Builtin := [.print, .str, .clone, .hash, .parse]

def name : Builtin → String
  | .print => "print"
  | .str => "str"
  | .clone => "clone"
  | .hash => "hash"
  | .parse => "parse"

def arity : Builtin → Nat
  | .parse => 2
  | _ => 1

end Builtin

/-- A value: a box of the store, the null literal, or a builtin function. -/
inductive Value where
  | ref (a : Nat)
  | null
  | builtin (f : Builtin)
  deriving DecidableEq, Repr

inductive Cell where
  | int (v : Int64)
  | real (v : Real)
  | bool (v : Bool)
  | string (v : String)
  | object (cls : Nat) (id : Nat) (table : Option Nat)
  deriving DecidableEq, Repr

abbrev Table := List (String × Value)

/-- The boxes, the field tables, and the next identity. -/
structure Heap where
  cells : Array Cell
  tables : Array Table
  nextId : Nat
  deriving Repr

def Heap.empty : Heap := ⟨#[], #[], 1⟩

/-- Everything a run changes: classes, store, and printed text. -/
structure Machine where
  registry : Registry
  heap : Heap
  out : String
  deriving Repr

/-- A machine with an empty store and a field cache of the given capacity. -/
def Machine.empty (capacity : Int) : Machine := ⟨Registry.empty capacity, Heap.empty, ""⟩

/-- Steps of a run: they change the machine and may stop with a fault, keeping what
they changed before it. -/
abbrev Act := EStateM Fault Machine

namespace Machine

def cell? (m : Machine) (a : Nat) : Option Cell := m.heap.cells[a]?

def table (m : Machine) (t : Nat) : Table := (m.heap.tables[t]?).getD []

def tyOf (m : Machine) : Value → Ty
  | .null => .null
  | .builtin _ => .function
  | .ref a =>
    match m.cell? a with
    | some (.int _) => .int
    | some (.real _) => .real
    | some (.bool _) => .bool
    | some (.string _) => .string
    | some (.object c _ _) => .cls c
    | none => .null

def typeName (m : Machine) (v : Value) : String := m.registry.tyName (m.tyOf v)

/-- The instance a value is: its box, class, identity and table. -/
def object? (m : Machine) : Value → Option (Nat × Nat × Nat × Option Nat)
  | .ref a =>
    match m.cell? a with
    | some (.object c id t) => some (a, c, id, t)
    | _ => none
  | _ => none

end Machine

namespace Act

def fault {α : Type} (c : Fault.Cause) : Act α := throw (Fault.ofCause c)

def ofExcept {α : Type} : Except Fault.Cause α → Act α
  | .ok a => pure a
  | .error c => fault c

/-- Runs `x`, putting a fault it stops with inside `ctx`. -/
def within {α : Type} (ctx : Fault.Context) (x : Act α) : Act α :=
  tryCatch x fun f => throw (f.within ctx)

def atLine {α : Type} (line : Nat) (x : Act α) : Act α := within (.line line) x

def alloc (c : Cell) : Act Value :=
  modifyGet fun m =>
    (.ref m.heap.cells.size, { m with heap := { m.heap with cells := m.heap.cells.push c } })

def setCell (a : Nat) (c : Cell) : Act Unit :=
  modify fun m => { m with heap := { m.heap with cells := m.heap.cells.set! a c } }

def freshId : Act Nat :=
  modifyGet fun m => (m.heap.nextId, { m with heap := { m.heap with nextId := m.heap.nextId + 1 } })

def newTable (t : Table) : Act Nat :=
  modifyGet fun m =>
    (m.heap.tables.size, { m with heap := { m.heap with tables := m.heap.tables.push t } })

def setTable (i : Nat) (t : Table) : Act Unit :=
  modify fun m => { m with heap := { m.heap with tables := m.heap.tables.set! i t } }

/-- Replaces the registry by the result of `f`, or stops with its fault. -/
def updateRegistry (f : Registry → Except Fault.Cause Registry) : Act Unit := do
  let r ← ofExcept (f (← get).registry)
  modify fun m => { m with registry := r }

def consult (c : Nat) : Act Unit :=
  modify fun m => { m with registry := m.registry.consult c }

def typeName (v : Value) : Act String := do
  return (← get).typeName v

def newObject (c : Nat) : Act Value := do
  let id ← freshId
  alloc (.object c id none)

/-- The default value of a type: a new zero box for a scalar type, a new null instance
for a class, and the null literal otherwise. -/
def newDefault : Ty → Act Value
  | .int => alloc (.int 0)
  | .real => alloc (.real ⟨0⟩)
  | .bool => alloc (.bool false)
  | .string => alloc (.string "")
  | .null | .function => pure .null
  | .cls c => newObject c

def emit (s : String) : Act Unit :=
  modify fun m => { m with out := m.out ++ s ++ "\n" }

end Act

end ClassScript
