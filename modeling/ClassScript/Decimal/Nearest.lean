/-! The double nearest to a positive fraction. The significand is the quotient of the
fraction by a power of two chosen so that it has 53 bits, or fewer at the least
exponent; the remainder decides the rounding, ties going to the even significand.
Past the greatest finite double the result is infinite and flagged as out of range. -/
namespace ClassScript.Decimal

/-- The quotient `⌊num / (den · 2^e)⌋` and the remainder, over the divisor. -/
def scaledQuotient (num den : Nat) (e : Int) : Nat × Nat × Nat :=
  let top := num * Nat.pow 2 (-e).toNat
  let bottom := den * Nat.pow 2 e.toNat
  (top / bottom, top % bottom, bottom)

/-- The least power of two `e`, not below `-1074`, at which the quotient of `num / den`
has at most 53 bits. -/
def binaryExponent (num den : Nat) : Int :=
  let e0 : Int := (Nat.log2 num : Int) - (Nat.log2 den : Int) - 52
  let e1 := if (scaledQuotient num den e0).1 < Nat.pow 2 52 then e0 - 1 else e0
  max e1 (-1074)

/-- The bits of the double nearest to `num / den` with sign `neg`, and whether the
magnitude is beyond the finite doubles. -/
def nearestBits (neg : Bool) (num den : Nat) : Nat × Bool :=
  let sign := if neg then Nat.pow 2 63 else 0
  if num = 0 ∨ den = 0 then (sign, false)
  else
    let e := binaryExponent num den
    let (q, r, dv) := scaledQuotient num den e
    let q := if dv < 2 * r ∨ (2 * r = dv ∧ q % 2 = 1) then q + 1 else q
    let (q, e) := if q = Nat.pow 2 53 then (Nat.pow 2 52, e + 1) else (q, e)
    if 972 ≤ e then (sign + 2047 * Nat.pow 2 52, true)
    else (sign + (e + 1074).toNat * Nat.pow 2 52 + q, false)

end ClassScript.Decimal
