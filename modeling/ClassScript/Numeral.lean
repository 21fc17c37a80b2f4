import ClassScript.Decimal.Nearest
import ClassScript.ErrorClass
import ClassScript.Real
import ClassScript.Text.Quoted

/-! Reading numbers and truth values from text. An integer is an optional sign and
decimal digits within the signed 64-bit range. A real is an optional sign and a
decimal mantissa with an optional `e` exponent, or a `0x` mantissa with a required
`p` exponent, where an underscore may stand between two digits; or one of `inf`,
`infinity` (signed or not) and `nan`, in any case. A real is rounded to the nearest
double and is out of range past the finite doubles. -/
namespace ClassScript

/-- The readers of text: 64-bit integers, reals, truth values, and integers of the
platform's word, read the same way as 64-bit ones here. -/
inductive Reader where
  | int
  | real
  | bool
  | word
  deriving Repr, DecidableEq

inductive Numeral.Cause where
  | invalid
  | range
  deriving Repr, DecidableEq

structure NumeralError where
  reader : Reader
  text : String
  cause : Numeral.Cause
  deriving Repr, DecidableEq

namespace NumeralError

def readerName : Reader → String
  | .int => "strconv.ParseInt"
  | .real => "strconv.ParseFloat"
  | .bool => "strconv.ParseBool"
  | .word => "strconv.Atoi"

def message (e : NumeralError) : String :=
  readerName e.reader ++ ": parsing " ++ Text.quote e.text ++ ": " ++
    match e.cause with
    | .invalid => "invalid syntax"
    | .range => "value out of range"

def errorClass (e : NumeralError) : ErrorClass :=
  match e.cause with
  | .invalid => .numeralInvalid
  | .range => .numeralRange

end NumeralError

namespace Numeral

def hexValue (c : Char) : Option Nat :=
  if '0' ≤ c ∧ c ≤ '9' then some (c.toNat - 48)
  else if 'a' ≤ c ∧ c ≤ 'f' then some (c.toNat - 87)
  else if 'A' ≤ c ∧ c ≤ 'F' then some (c.toNat - 55)
  else none

/-- Accumulates decimal digits. A value past `2^64 - 1` is out of range at once, even
if a later character is no digit. -/
def unsignedValue : List Char → Nat → Except Cause Nat
  | [], n => .ok n
  | c :: cs, n =>
    if c.isDigit then
      let n := n * 10 + (c.toNat - 48)
      if Nat.pow 2 64 ≤ n then .error .range else unsignedValue cs n
    else .error .invalid

/-- A signed 64-bit integer from an optional sign and decimal digits, refused in the
name of `reader`. -/
def readSigned (reader : Reader) (s : String) : Except NumeralError Int64 :=
  let fail := fun cause => Except.error (NumeralError.mk reader s cause)
  let (neg, digits) := match s.toList with
    | '+' :: rest => (false, rest)
    | '-' :: rest => (true, rest)
    | cs => (false, cs)
  if digits.isEmpty then fail .invalid
  else match unsignedValue digits 0 with
    | .error cause => fail cause
    | .ok n =>
      if neg then
        if Nat.pow 2 63 < n then fail .range else .ok (Int64.ofInt (-(n : Int)))
      else
        if Nat.pow 2 63 ≤ n then fail .range else .ok (Int64.ofInt n)

def readInt (s : String) : Except NumeralError Int64 := readSigned .int s

/-- Reads `true` from `1`, `t`, `T`, `TRUE`, `true`, `True`, and `false` from their opposites. -/
def readBool (s : String) : Except NumeralError Bool :=
  if ["1", "t", "T", "TRUE", "true", "True"].contains s then .ok true
  else if ["0", "f", "F", "FALSE", "false", "False"].contains s then .ok false
  else .error ⟨.bool, s, .invalid⟩

def commonPrefixFolded : List Char → List Char → Nat
  | c :: cs, w :: ws => if c.toLower = w then commonPrefixFolded cs ws + 1 else 0
  | _, _ => 0

/-- The special reals and the number of characters they take: an optionally signed
`inf` or `infinity`, or an unsigned `nan`. -/
def special (cs : List Char) : Option (Real × Nat) :=
  let infinity (neg : Bool) (signLength : Nat) (rest : List Char) : Option (Real × Nat) :=
    let n := commonPrefixFolded rest "infinity".toList
    let n := if 3 < n ∧ n < 8 then 3 else n
    if n = 3 ∨ n = 8 then
      some (⟨if neg then 0xFFF0000000000000 else 0x7FF0000000000000⟩, signLength + n)
    else none
  match cs with
  | '+' :: rest => infinity false 1 rest
  | '-' :: rest => infinity true 1 rest
  | c :: rest =>
    if c = 'i' ∨ c = 'I' then infinity false 0 (c :: rest)
    else if (c = 'n' ∨ c = 'N') ∧ commonPrefixFolded (c :: rest) "nan".toList = 3 then
      some (⟨0x7FF8000000000001⟩, 3)
    else none
  | [] => none

/-- Whether every underscore of a number stands between two digits, or between a base
prefix and a digit. -/
def underscoresFit (cs : List Char) : Bool :=
  let cs := match cs with
    | '+' :: rest => rest
    | '-' :: rest => rest
    | cs => cs
  -- `last` is `0` after a digit or base prefix, `_` after an underscore, `^` at the
  -- start and `!` after anything else
  let (hex, start, body) := match cs with
    | '0' :: b :: rest =>
      if b.toLower = 'b' ∨ b.toLower = 'o' ∨ b.toLower = 'x' then (b.toLower == 'x', '0', rest)
      else (false, '^', cs)
    | _ => (false, '^', cs)
  let step := fun (last : Option Char) (c : Char) =>
    match last with
    | none => none
    | some last =>
      if c.isDigit || (hex && 'a' ≤ c.toLower && c.toLower ≤ 'f') then some '0'
      else if c = '_' then (if last = '0' then some '_' else none)
      else if last = '_' then none
      else some '!'
  match body.foldl step (some start) with
  | some last => last ≠ '_'
  | none => false

/-- The parts of a real written with digits: the mantissa digits as one integer, how
many of them stand after the point, the exponent, the base of the mantissa, and how
many characters the number takes. -/
structure Mantissa where
  neg : Bool
  hex : Bool
  digits : Nat
  fraction : Nat
  exponent : Int
  length : Nat
  underscores : Bool

/-- The mantissa body: digits, underscores and at most one point. Returns the digit
value, the digits after the point, whether a digit was seen, whether an
underscore was seen, and the characters taken. -/
def mantissaBody (hex : Bool) : List Char → Nat → Nat → Bool → Bool → Bool → Nat →
    Nat × Nat × Bool × Bool × Nat
  | [], value, frac, _, sawDigit, under, taken => (value, frac, sawDigit, under, taken)
  | c :: cs, value, frac, sawDot, sawDigit, under, taken =>
    let base := if hex then 16 else 10
    if c = '_' then mantissaBody hex cs value frac sawDot sawDigit true (taken + 1)
    else if c = '.' then
      if sawDot then (value, frac, sawDigit, under, taken)
      else mantissaBody hex cs value frac true sawDigit under (taken + 1)
    else match hexValue c with
      | some d =>
        if d < 10 ∨ hex then
          mantissaBody hex cs (value * base + d) (if sawDot then frac + 1 else frac) sawDot true
            under (taken + 1)
        else (value, frac, sawDigit, under, taken)
      | none => (value, frac, sawDigit, under, taken)

def exponentDigits : List Char → Nat → Bool → Nat → Nat × Bool × Nat
  | [], e, under, taken => (e, under, taken)
  | c :: cs, e, under, taken =>
    if c = '_' then exponentDigits cs e true (taken + 1)
    else if c.isDigit then
      exponentDigits cs (if e < 10000 then e * 10 + (c.toNat - 48) else e) under (taken + 1)
    else (e, under, taken)

/-- Reads a real written with digits from the start of `cs`; `none` when no number
starts there. -/
def mantissa (cs : List Char) : Option Mantissa :=
  let (neg, signLength, afterSign) := match cs with
    | '+' :: rest => (false, 1, rest)
    | '-' :: rest => (true, 1, rest)
    | rest => (false, 0, rest)
  let (hex, prefixLength, body) := match afterSign with
    | '0' :: x :: c :: rest => if x.toLower = 'x' then (true, 2, c :: rest) else (false, 0, afterSign)
    | _ => (false, 0, afterSign)
  let (value, frac, sawDigit, under, taken) := mantissaBody hex body 0 0 false false false 0
  if !sawDigit then none
  else
    let used := signLength + prefixLength + taken
    let rest := body.drop taken
    let mark := if hex then 'p' else 'e'
    match rest with
    | c :: afterMark =>
      if c.toLower = mark then
        let (esign, signTaken, digitsPart) := match afterMark with
          | '+' :: r => ((1 : Int), 1, r)
          | '-' :: r => (-1, 1, r)
          | r => (1, 0, r)
        match digitsPart with
        | d :: _ =>
          if d.isDigit then
            let (e, under2, etaken) := exponentDigits digitsPart 0 false 0
            some ⟨neg, hex, value, frac, esign * e, used + 1 + signTaken + etaken, under || under2⟩
          else none
        | [] => none
      else if hex then none
      else some ⟨neg, hex, value, frac, 0, used, under⟩
    | [] => if hex then none else some ⟨neg, hex, value, frac, 0, used, under⟩

def Mantissa.value (m : Mantissa) : Real × Bool :=
  let (bits, beyond) :=
    if m.hex then
      let x : Int := m.exponent - 4 * m.fraction
      Decimal.nearestBits m.neg (m.digits * Nat.pow 2 x.toNat) (Nat.pow 2 (-x).toNat)
    else
      let x : Int := m.exponent - m.fraction
      Decimal.nearestBits m.neg (m.digits * Nat.pow 10 x.toNat) (Nat.pow 10 (-x).toNat)
  (⟨bits.toUInt64⟩, beyond)

def readReal (s : String) : Except NumeralError Real :=
  let cs := s.toList
  let fail := fun cause => Except.error (NumeralError.mk .real s cause)
  match special cs with
  | some (x, n) => if n = cs.length then .ok x else fail .invalid
  | none =>
    match mantissa cs with
    | none => fail .invalid
    | some m =>
      if m.underscores ∧ !underscoresFit (cs.take m.length) then fail .invalid
      else if m.length ≠ cs.length then fail .invalid
      else
        let (x, beyond) := m.value
        if beyond then fail .range else .ok x

/-- The double nearest to `m · 10^-scale`, infinite past the finite doubles. -/
def scaled (m : Int) (scale : Nat) : Real :=
  ⟨(Decimal.nearestBits (m < 0) m.natAbs (Nat.pow 10 scale)).1.toUInt64⟩

end Numeral

end ClassScript
