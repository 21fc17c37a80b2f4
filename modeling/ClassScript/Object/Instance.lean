import ClassScript.Object.Convert

/-! Instances and their fields. Making an instance gives it the next identity and no
table; initialising gives it a new table with a default value under each field name of
its class. A field is read or written through the table, and only under a name the
table holds and the instance's own class has; an instance in the null state has no
fields to read or write. A clone is a new instance whose table is a copy of the
cloned instance's table: the copy holds the very same values. -/
namespace ClassScript

namespace Act

/-- Gives the instance in box `a` a new table of defaults, one per field of its class,
in the order of the field names. -/
def initializeFields (a : Nat) : Act Unit := do
  match (← get).cell? a with
  | some (.object c id _) =>
    consult c
    let fields := (← get).registry.fieldTypes c
    let values ← fields.mapM fun f => do return (f.1, ← newDefault f.2)
    let t ← newTable values
    setCell a (.object c id (some t))
  | _ => pure ()

def fieldType (c : Nat) (name : String) : Act (Option Ty) := do
  consult c
  return (← get).registry.fieldType? c name

/-- Whether class `c` has the field: looked up only when the table holds the name. -/
def visible (c : Nat) (entries : Table) (name : String) : Act Bool := do
  if (entries.lookup name).isSome then
    consult c
    return (← get).registry.hasField c name
  else return false

def getField (a : Nat) (name : String) : Act Value := do
  let m ← get
  match m.cell? a with
  | some (.object c _ none) => fault (.nullFieldRead (m.registry.className c) name)
  | some (.object c _ (some t)) =>
    let entries := m.table t
    if ← visible c entries name then
      match entries.lookup name with
      | some v => return v
      | none => fault (.missingField (m.registry.className c) name)
    else fault (.missingField (m.registry.className c) name)
  | _ => fault (.missingField (m.typeName (.ref a)) name)

def setField (a : Nat) (name : String) (v : Value) : Act Unit := do
  let m ← get
  match m.cell? a with
  | some (.object c _ none) => fault (.nullFieldWrite (m.registry.className c) name)
  | some (.object c _ (some t)) =>
    let entries := m.table t
    if ← visible c entries name then
      setTable t (entries.map fun e => if e.1 == name then (name, v) else e)
    else fault (.missingField (m.registry.className c) name)
  | _ => fault (.missingField (m.typeName (.ref a)) name)

/-- The field names visible through the instance in box `a`, in byte order; none for
an instance in the null state. -/
def fieldNames (a : Nat) : Act (Option (List String)) := do
  match (← get).cell? a with
  | some (.object c _ (some t)) =>
    let entries := (← get).table t
    if !entries.isEmpty then consult c
    return some (((← get).visibleFields c entries).map (·.1))
  | _ => return none

/-- A copy of a value: a new box for a scalar, a new instance on a copied table for an
instance, and the value itself otherwise. -/
def clone (v : Value) : Act Value := do
  match v with
  | .null | .builtin _ => return v
  | .ref a =>
    match (← get).cell? a with
    | some (.object c _ t) =>
      let copy ← newObject c
      match t, copy with
      | some t, .ref b =>
        let nt ← newTable ((← get).table t)
        match (← get).cell? b with
        | some (.object c id _) => setCell b (.object c id (some nt))
        | _ => pure ()
      | _, _ => pure ()
      return copy
    | some cell => alloc cell
    | none => return v

end Act

end ClassScript
