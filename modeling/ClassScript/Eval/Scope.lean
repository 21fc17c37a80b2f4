import ClassScript.Object.Heap

/-! Scopes: the bindings of names to values, innermost frame first. A declaration
binds in the innermost frame, replacing a binding of the same name there; a name is
looked up from the innermost frame outward. A block runs in a new innermost frame,
which is dropped when the block ends. -/
namespace ClassScript

abbrev Frame := List (String × Value)

abbrev Scope := List Frame

namespace Frame

/-- Binds `name` to `v`, replacing an earlier binding of `name`. -/
def define (f : Frame) (name : String) (v : Value) : Frame :=
  (name, v) :: f.filter (·.1 != name)

end Frame

namespace Scope

def lookup? : Scope → String → Option Value
  | [], _ => none
  | f :: rest, name =>
    match f.lookup name with
    | some v => some v
    | none => lookup? rest name

/-- Binds `name` in the innermost frame. -/
def define : Scope → String → Value → Scope
  | [], name, v => [Frame.define [] name v]
  | f :: rest, name, v => f.define name v :: rest

end Scope

end ClassScript
