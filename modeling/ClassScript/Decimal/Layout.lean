import ClassScript.Decimal.Shortest

/-! Writing shortest digits as text: positional notation for a middle band of decimal
exponents and scientific notation outside it, with the choices of a format gathered
in one record. -/
namespace ClassScript.Decimal

structure Layout where
  lowest : Int
  highest : Int
  /-- Least number of digits of a written exponent. -/
  exponentDigits : Nat
  posInfinity : String
  negInfinity : String
  nan : String

namespace Layout

def padded (width n : Nat) : String :=
  let s := toString n
  String.ofList (List.replicate (width - s.length) '0') ++ s

/-- Digits `ds` standing for `0.ds · 10^dp`, written positionally. -/
def positional (ds : List Char) (dp : Int) : String :=
  if dp ≤ 0 then
    "0." ++ String.ofList (List.replicate dp.natAbs '0') ++ String.ofList ds
  else
    let k := dp.toNat
    let whole := ds.take k ++ List.replicate (k - ds.length) '0'
    let rest := ds.drop k
    String.ofList whole ++ (if rest.isEmpty then "" else "." ++ String.ofList rest)

/-- Digits `ds` with decimal exponent `x`, written as `d.ddde±xx`. -/
def scientific (L : Layout) (ds : List Char) (x : Int) : String :=
  let head := String.ofList (ds.take 1)
  let tail := ds.drop 1
  let mantissa := if tail.isEmpty then head else head ++ "." ++ String.ofList tail
  mantissa ++ "e" ++ (if x < 0 then "-" else "+") ++ padded L.exponentDigits x.natAbs

/-- The text of a double: the shortest digits that read back, laid out by `L`. -/
def render (L : Layout) (x : Float) : String :=
  match Binary.decode x with
  | .nan => L.nan
  | .infinite neg => if neg then L.negInfinity else L.posInfinity
  | .finite b =>
    let sign := if b.neg then "-" else ""
    if b.m = 0 then sign ++ "0"
    else
      let (d, p) := b.shortest
      let ds := (toString d).toList
      let x := p + ds.length - 1
      sign ++ (if x < L.lowest ∨ L.highest < x then L.scientific ds x
        else positional ds (x + 1))

end Layout

end ClassScript.Decimal
