import ClassScript.Object.Heap

/-! Equality and hashing of values. Integers and reals are equal when their numbers
are, a NaN to nothing; truth values and strings compare with their own kind only;
`null` equals `null` and every instance in the null state; an instance otherwise
equals only its own box, and a builtin only itself. A hash is 64 bits: an integer's
own bits, a whole real's integer, a truth value 1 or 0, `null` 0, an instance its
identity, and a string or builtin the FNV-1a hash of its UTF-8 bytes or name. -/
namespace ClassScript

/-- The 64-bit FNV-1a hash of the UTF-8 bytes of a text. -/
def fnv1a (s : String) : UInt64 :=
  s.toUTF8.foldl (fun h b => (h ^^^ b.toUInt64) * 1099511628211) 14695981039346656037

namespace Machine

/-- Whether `a` equals `b`, as `a` judges it. -/
def valueEquals (m : Machine) (a b : Value) : Bool :=
  match a, b with
  | .builtin f, .builtin g => f == g
  | .builtin _, _ => false
  | .null, .null => true
  | .null, .ref _ =>
    match m.object? b with
    | some (_, _, _, t) => t.isNone
    | none => false
  | .null, _ => false
  | .ref x, _ =>
    match m.cell? x, b with
    | some (.object _ _ t), .null => t.isNone
    | some (.object ..), .ref y => x == y && (m.object? b).isSome
    | some (.object ..), _ => false
    | some cx, .ref y =>
      match cx, m.cell? y with
      | .int p, some (.int q) => p == q
      | .int p, some (.real q) => (Real.ofInt64 p).eqNum q
      | .real p, some (.real q) => p.eqNum q
      | .real p, some (.int q) => p.eqNum (Real.ofInt64 q)
      | .bool p, some (.bool q) => p == q
      | .string p, some (.string q) => p == q
      | _, _ => false
    | _, _ => false

def hash (m : Machine) : Value → UInt64
  | .null => 0
  | .builtin f => fnv1a f.name
  | .ref a =>
    match m.cell? a with
    | some (.int n) => n.toUInt64
    | some (.real r) => r.hash
    | some (.bool b) => if b then 1 else 0
    | some (.string s) => fnv1a s
    | some (.object _ id _) => id.toUInt64
    | none => 0

end Machine

end ClassScript
