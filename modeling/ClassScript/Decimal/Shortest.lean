/-! Shortest decimal digits of a binary64 number. A finite double is `m · 2^e`; the
reals that round to it form an interval around it, closed when `m` is even. The
shortest digits are found on the decimal grids of 1, 2, … 17 significant digits: on
each grid only the two neighbours of the value can lie in the interval, the first
grid with a neighbour inside wins, and of two neighbours inside the nearer one wins,
the even one on a tie. All comparisons are exact, in natural numbers. -/
namespace ClassScript.Decimal

/-- A finite binary64 number `(-1)^neg · m · 2^e`. `narrow` marks a power of two above
the least normal exponent, whose lower neighbour is half as far as the upper one. -/
structure Binary where
  neg : Bool
  m : Nat
  e : Int
  narrow : Bool
  deriving Repr, DecidableEq

inductive Binary.Kind where
  | finite (b : Binary)
  | infinite (neg : Bool)
  | nan
  deriving Repr, DecidableEq

def Binary.decode (x : Float) : Binary.Kind :=
  let bits : Nat := x.toBits.toNat
  let neg := decide (Nat.pow 2 63 ≤ bits)
  let field : Nat := (bits / Nat.pow 2 52) % 2048
  let frac : Nat := bits % Nat.pow 2 52
  if field = 2047 then
    if frac = 0 then .infinite neg else .nan
  else if field = 0 then
    .finite ⟨neg, frac, -1074, false⟩
  else
    .finite ⟨neg, frac + Nat.pow 2 52, (field : Int) - 1075, decide (frac = 0 ∧ 1 < field)⟩

def decimalLength (n : Nat) : Nat :=
  (Nat.toDigits 10 n).length

/-- Compares `d · 10^p` with `x · 2^q` exactly. -/
def compareScaled (d : Nat) (p : Int) (x : Nat) (q : Int) : Ordering :=
  compare (d * Nat.pow 10 p.toNat * Nat.pow 2 (-q).toNat) (x * Nat.pow 2 q.toNat * Nat.pow 10 (-p).toNat)

def floorScaled (x : Nat) (q p : Int) : Nat :=
  (x * Nat.pow 2 q.toNat * Nat.pow 10 (-p).toNat) / (Nat.pow 10 p.toNat * Nat.pow 2 (-q).toNat)

/-- The decimal exponent `k` with `10^k ≤ m · 2^e < 10^(k+1)`, for `m > 0`. -/
def exponent10 (m : Nat) (e : Int) : Int :=
  let n := m * Nat.pow 2 e.toNat
  let d := Nat.pow 2 (-e).toNat
  if d ≤ n then (decimalLength (n / d) : Int) - 1
  else -(decimalLength ((d + n - 1) / n - 1) : Int)

/-- Digits `d` and exponent `p` of `d · 10^p` with the trailing zeros of `d` moved
into `p`. -/
def dropTrailingZeros (d : Nat) (p : Int) : Nat × Int :=
  if h : 0 < d ∧ d % 10 = 0 then
    have : d / 10 < d := Nat.div_lt_self h.1 (by decide)
    dropTrailingZeros (d / 10) (p + 1)
  else (d, p)
termination_by d

namespace Binary

/-- The value, scaled by four: `4m · 2^(e-2)`. -/
def mid (b : Binary) : Nat := 4 * b.m

def low (b : Binary) : Nat := 4 * b.m - (if b.narrow then 1 else 2)

def high (b : Binary) : Nat := 4 * b.m + 2

/-- Whether `d · 10^p` reads back as `b`: it lies in the rounding interval, whose
ends belong to it when `m` is even. -/
def readsBack (b : Binary) (d : Nat) (p : Int) : Bool :=
  let closed := b.m % 2 == 0
  let above := compareScaled d p b.low (b.e - 2)
  let below := compareScaled d p b.high (b.e - 2)
  (above == .gt || (closed && above == .eq)) && (below == .lt || (closed && below == .eq))

/-- Of the two grid neighbours `d` and `d + 1` of the value, the nearer one; the even
one when both are equally near. -/
def nearer (b : Binary) (d : Nat) (p : Int) : Nat :=
  match compareScaled (2 * d + 1) p (2 * b.mid) (b.e - 2) with
  | .gt => d
  | .lt => d + 1
  | .eq => if d % 2 = 0 then d else d + 1

/-- The digits on the grid of `n` significant digits that read back, if any. -/
def onGrid (b : Binary) (n : Nat) : Option (Nat × Int) :=
  let p := exponent10 b.m b.e + 1 - n
  let d := floorScaled b.mid (b.e - 2) p
  match b.readsBack d p, b.readsBack (d + 1) p with
  | true, true => some (b.nearer d p, p)
  | true, false => some (d, p)
  | false, true => some (d + 1, p)
  | false, false => none

/-- The shortest digits `d` and exponent `p` with `d · 10^p` reading back as the
magnitude of `b`, for `m > 0`; `d` has no trailing zero. Seventeen digits always
suffice, so the last fallback is never taken for a double. -/
def shortest (b : Binary) : Nat × Int :=
  let found := (List.range 17).findSome? fun i => b.onGrid (i + 1)
  let (d, p) := found.getD
    (let p := exponent10 b.m b.e - 16
     (b.nearer (floorScaled b.mid (b.e - 2) p) p, p))
  dropTrailingZeros d p

end Binary

end ClassScript.Decimal
