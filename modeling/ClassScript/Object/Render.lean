import ClassScript.Object.Heap

/-! The text of a value. Scalars print as their value, strings raw, `null` as `null`
and a builtin as `<fn name>`. An instance in the null state prints `null`; any other is
expanded as `{ f: v, g: w }`, its fields in byte order of their names and only those
its own class has, or `{ }` with none. One traversal expands each identity once: an
instance met again after its expansion began prints as `Type@id`. -/
namespace ClassScript

/-- What one traversal has done: the identities it expanded, newest first, and the
classes whose fields it looked up. -/
structure Trail where
  seen : List Nat
  consulted : List Nat
  deriving Repr

namespace Machine

def visibleFields (m : Machine) (c : Nat) (entries : Table) : Table :=
  (entries.filter fun e => m.registry.hasField c e.1).mergeSort fun a b => decide (a.1 ≤ b.1)

def identity (m : Machine) (c id : Nat) : String :=
  m.registry.className c ++ "@" ++ toString id

/-- Writes a value with `fuel` levels of expansion left. A budget of one level per box
is never spent, since every level expands a new identity. -/
def renderWith (m : Machine) : Nat → Value → Trail → String × Trail
  | _, .null, t => ("null", t)
  | _, .builtin f, t => ("<fn " ++ f.name ++ ">", t)
  | fuel, .ref a, t =>
    match m.cell? a with
    | some (.int v) => (toString v.toInt, t)
    | some (.real v) => (v.text, t)
    | some (.bool b) => (toString b, t)
    | some (.string s) => (s, t)
    | some (.object _ _ none) | none => ("null", t)
    | some (.object c id (some ti)) =>
      if id ∈ t.seen then (m.identity c id, t)
      else match fuel with
        | 0 => (m.identity c id, t)
        | fuel + 1 =>
          let entries := m.table ti
          let t := { seen := id :: t.seen
                     consulted := if entries.isEmpty then t.consulted else c :: t.consulted }
          let (parts, t) := (m.visibleFields c entries).foldl
            (fun (acc : List String × Trail) e =>
              let (s, t) := m.renderWith fuel e.2 acc.2
              (acc.1 ++ [e.1 ++ ": " ++ s], t))
            ([], t)
          ("\x7b " ++ ", ".intercalate parts ++ (if parts.isEmpty then "\x7d" else " \x7d"), t)

/-- The text of a value, and the classes whose fields were looked up to write it. -/
def render (m : Machine) (v : Value) : String × List Nat :=
  let (s, t) := m.renderWith (m.heap.cells.size + 1) v ⟨[], []⟩
  (s, t.consulted)

end Machine

def Act.text (v : Value) : Act String := do
  let (s, consulted) := (← get).render v
  consulted.reverse.forM Act.consult
  return s

end ClassScript
