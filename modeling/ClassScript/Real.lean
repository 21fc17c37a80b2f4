import ClassScript.Decimal.Layout

/-! Reals of the language: binary64 numbers kept by their bit pattern, because hashing
shows the pattern of a NaN. Arithmetic computes on doubles; a NaN result keeps the
pattern of a NaN operand, the left one first, with its quiet bit set, and an invalid
operation on numbers gives the default NaN, whose sign bit is set. Negation flips the
sign bit of every pattern. -/
namespace ClassScript

structure Real where
  bits : UInt64
  deriving DecidableEq, Repr

namespace Real

/-- The double a pattern stands for. NaN patterns all give the one NaN of `Float`. -/
def toFloat (r : Real) : Float := Float.ofBits r.bits

def ofFloat (x : Float) : Real := ⟨x.toBits⟩

/-- Whether the pattern is a NaN: all exponent bits set and a fraction that is not zero. -/
def isNaN (r : Real) : Bool :=
  r.bits &&& 0x7FF0000000000000 == 0x7FF0000000000000 && r.bits &&& 0x000FFFFFFFFFFFFF != 0

def defaultNaN : Real := ⟨0xFFF8000000000000⟩

def quiet (r : Real) : Real := ⟨r.bits ||| 0x0008000000000000⟩

/-- Applies a binary operation of doubles, keeping NaN patterns as described above. -/
def lift (f : Float → Float → Float) (a b : Real) : Real :=
  let x := f a.toFloat b.toFloat
  if x.isNaN then
    if a.isNaN then a.quiet else if b.isNaN then b.quiet else defaultNaN
  else ofFloat x

def add : Real → Real → Real := lift (· + ·)
def sub : Real → Real → Real := lift (· - ·)
def mul : Real → Real → Real := lift (· * ·)
def div : Real → Real → Real := lift (· / ·)

def neg (a : Real) : Real := ⟨a.bits ^^^ 0x8000000000000000⟩

def ofInt64 (n : Int64) : Real := ofFloat (Float.ofInt n.toInt)

def toInt64 (r : Real) : Int64 := r.toFloat.toInt64

/-- Equality of numbers: a NaN equals nothing and the two zeros are equal. -/
def eqNum (a b : Real) : Bool := a.toFloat == b.toFloat

def lt (a b : Real) : Bool := a.toFloat < b.toFloat
def le (a b : Real) : Bool := a.toFloat ≤ b.toFloat

def isZero (r : Real) : Bool := r.bits &&& 0x7FFFFFFFFFFFFFFF == 0

/-- Reals are written with the shortest digits that read back: positionally for
decimal exponents from -4 to 5 and as `d.ddde±dd` outside them; `+Inf`, `-Inf`, `NaN`. -/
def layout : Decimal.Layout := ⟨-4, 5, 2, "+Inf", "-Inf", "NaN"⟩

def text (r : Real) : String := layout.render r.toFloat

/-- The integer a real stands for, when it is whole and in `[-2^63, 2^63)`. -/
def wholeValue (r : Real) : Option Int :=
  match Decimal.Binary.decode r.toFloat with
  | .finite b =>
    let magnitude : Option Nat :=
      if 0 ≤ b.e then some (b.m * Nat.pow 2 b.e.toNat)
      else if b.m % Nat.pow 2 (-b.e).toNat = 0 then some (b.m / Nat.pow 2 (-b.e).toNat) else none
    match magnitude with
    | some n =>
      let v : Int := if b.neg then -(n : Int) else n
      if -(Nat.pow 2 63 : Int) ≤ v ∧ v < Nat.pow 2 63 then some v else none
    | none => none
  | _ => none

/-- A whole real in the signed 64-bit range hashes as that integer, wrapped to 64 bits;
every other real hashes as its bit pattern. -/
def hash (r : Real) : UInt64 :=
  match r.wholeValue with
  | some v => UInt64.ofInt v
  | none => r.bits

end Real

end ClassScript
