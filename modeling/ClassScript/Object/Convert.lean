import ClassScript.Object.Render
import ClassScript.Text.Blank

/-! Conversions between values. Numbers and truth values convert into each other, a
real to an integer toward zero; a string is true when it is not empty and converts to
a number when it is one. Instances, `null` and builtins have no scalar conversion; as
text they are written. Storing into a box converts the value to the box's type;
storing into an instance box makes it use the other instance's table, or none for
`null`. Reading a box from text cuts blanks off numbers and truth values. -/
namespace ClassScript

namespace Act

def cellOf (v : Value) : Act (Option Cell) := do
  match v with
  | .ref a => return (← get).cell? a
  | _ => return none

def noConversion {α : Type} (v : Value) (target : String) : Act α := do
  fault (.cannotConvert (← typeName v) target)

def asBool (v : Value) : Act Bool := do
  match ← cellOf v with
  | some (.int n) => return n != 0
  | some (.real r) => return !r.isZero
  | some (.bool b) => return b
  | some (.string s) => return !s.isEmpty
  | _ => noConversion v "bool"

def asInt (v : Value) : Act Int64 := do
  match ← cellOf v with
  | some (.int n) => return n
  | some (.real r) => return r.toInt64
  | some (.bool b) => return if b then 1 else 0
  | some (.string s) =>
    match Numeral.readInt s with
    | .ok n => return n
    | .error _ => fault (.cannotConvertText s "int")
  | _ => noConversion v "int"

def asReal (v : Value) : Act Real := do
  match ← cellOf v with
  | some (.int n) => return Real.ofInt64 n
  | some (.real r) => return r
  | some (.bool b) => return Real.ofInt64 (if b then 1 else 0)
  | some (.string s) =>
    match Numeral.readReal s with
    | .ok r => return r
    | .error _ => fault (.cannotConvertText s "real")
  | _ => noConversion v "real"

/-- Stores `v` into the box `target`, converted to the box's type. -/
def setValue (target v : Value) : Act Unit := do
  match target with
  | .null => fault .assignNull
  | .builtin f => fault (.assignBuiltin f.name)
  | .ref a =>
    match (← get).cell? a with
    | some (.int _) => setCell a (.int (← asInt v))
    | some (.real _) => setCell a (.real (← asReal v))
    | some (.bool _) => setCell a (.bool (← asBool v))
    | some (.string _) => setCell a (.string (← text v))
    | some (.object c id _) =>
      match (← get).object? v, v with
      | some (_, _, _, t), _ => setCell a (.object c id t)
      | none, .null => setCell a (.object c id none)
      | none, _ => fault (.cannotConvert (← typeName v) ((← get).registry.className c))
    | none => pure ()

/-- Overwrites the box `target` with the value its text stands for. -/
def parseInto (target : Value) (s : String) : Act Unit := do
  match target with
  | .null => fault (.cannotParse s "null")
  | .builtin _ => fault (.cannotParse s "function")
  | .ref a =>
    match (← get).cell? a with
    | some (.int _) =>
      match Numeral.readInt (Text.trimBlank s) with
      | .ok n => setCell a (.int n)
      | .error e => fault (.badNumeral s "int" e)
    | some (.real _) =>
      match Numeral.readReal (Text.trimBlank s) with
      | .ok r => setCell a (.real r)
      | .error e => fault (.badNumeral s "real" e)
    | some (.bool _) =>
      match Numeral.readBool (Text.trimBlank s) with
      | .ok b => setCell a (.bool b)
      | .error e => fault (.badNumeral s "bool" e)
    | some (.string _) => setCell a (.string s)
    | some (.object c _ _) =>
      fault (.cannotParse s ("type '" ++ (← get).registry.className c ++ "'"))
    | none => pure ()

end Act

end ClassScript
