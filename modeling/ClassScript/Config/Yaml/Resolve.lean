import ClassScript.Config.Yaml.Node
import ClassScript.Numeral

/-! What a scalar stands for. A plain scalar is resolved by its text: null, a truth
value, an integer (a base prefix allowed, underscores ignored), a float, a timestamp,
or else a string. A scalar with an explicit tag of one of these kinds is resolved the
same way and must resolve to that kind, an integer standing for a float too; a
scalar with any other tag is its text. -/
namespace ClassScript.Yaml

def yamlTagPrefix : String := "tag:yaml.org,2002:"

/-- A tag in short form: a YAML tag as `!!` and its name, any other as it is. -/
def shortTag (tag : String) : String :=
  if tag.startsWith yamlTagPrefix then "!!" ++ String.ofList (tag.toList.drop yamlTagPrefix.length)
  else tag

inductive Resolved where
  | null
  | bool
  | int (n : Int)
  | uint (n : Nat)
  | float (r : Real)
  | timestamp
  | str (s : String)
  deriving Repr

def digitsIn (base : Nat) (cs : List Char) : Option Nat :=
  if cs.isEmpty then none
  else cs.foldlM (fun n c => (Numeral.hexValue c).bind fun d => if d < base then some (n * base + d) else none) 0

/-- Unsigned digits with their base given by a prefix: `0b`, `0o` or `0x` before at
least one digit, or a leading `0` for octal. -/
def prefixedDigits : List Char → Option Nat
  | [] => none
  | ['0'] => some 0
  | '0' :: c :: rest =>
    let c := c.toLower
    if c == 'b' && !rest.isEmpty then digitsIn 2 rest
    else if c == 'o' && !rest.isEmpty then digitsIn 8 rest
    else if c == 'x' && !rest.isEmpty then digitsIn 16 rest
    else digitsIn 8 (c :: rest)
  | cs => digitsIn 10 cs

/-- An integer with its base given by a prefix: signed within 64 bits, or, with no
sign, unsigned within 64 bits. -/
def prefixedInt (cs : List Char) : Option Resolved :=
  let (neg, signed, body) := match cs with
    | '-' :: r => (true, true, r)
    | '+' :: r => (false, true, r)
    | r => (false, false, r)
  match prefixedDigits body with
  | none => none
  | some n =>
    let v : Int := if neg then -(n : Int) else n
    if -(Nat.pow 2 63 : Int) ≤ v ∧ v < Nat.pow 2 63 then some (.int v)
    else if !signed ∧ n < Nat.pow 2 64 then some (.uint n)
    else none

/-- Whether a text has the shape of a decimal float: a sign, digits with an optional
fraction or a fraction alone, and an optional exponent. -/
def floatShape (cs : List Char) : Bool :=
  let cs := match cs with
    | '+' :: r => r
    | '-' :: r => r
    | r => r
  let (mantissa, rest) := match cs with
    | '.' :: r =>
      let ds := r.takeWhile Char.isDigit
      (!ds.isEmpty, r.drop ds.length)
    | r =>
      let ds := r.takeWhile Char.isDigit
      if ds.isEmpty then (false, r)
      else match r.drop ds.length with
        | '.' :: r2 => (true, r2.dropWhile Char.isDigit)
        | r2 => (true, r2)
  let exponentOk := match rest with
    | [] => true
    | e :: r =>
      let r := match r with
        | '+' :: x => x
        | '-' :: x => x
        | x => x
      (e == 'e' || e == 'E') && !r.isEmpty && r.all Char.isDigit
  mantissa && exponentOk

/-! Timestamps: a date, alone, or with a time after `T`, `t` or spaces. -/

def oneOrTwoDigits : List Char → Option (Nat × List Char)
  | a :: b :: rest =>
    if !a.isDigit then none
    else if b.isDigit then some ((a.toNat - 48) * 10 + (b.toNat - 48), rest)
    else some (a.toNat - 48, b :: rest)
  | [a] => if a.isDigit then some (a.toNat - 48, []) else none
  | [] => none

def twoDigits : List Char → Option (Nat × List Char)
  | a :: b :: rest => if a.isDigit && b.isDigit then some ((a.toNat - 48) * 10 + (b.toNat - 48), rest) else none
  | _ => none

def isLeapYear (y : Nat) : Bool := y % 4 == 0 && (y % 100 != 0 || y % 400 == 0)

def daysInMonth (y m : Nat) : Nat :=
  if m == 2 then (if isLeapYear y then 29 else 28)
  else if m == 4 || m == 6 || m == 9 || m == 11 then 30 else 31

def timeOfDay (cs : List Char) : Option (List Char) := do
  let (h, cs) ← oneOrTwoDigits cs
  if h ≥ 24 then none
  let cs ← match cs with
    | ':' :: r => some r
    | _ => none
  let (m, cs) ← oneOrTwoDigits cs
  if m ≥ 60 then none
  let cs ← match cs with
    | ':' :: r => some r
    | _ => none
  let (s, cs) ← oneOrTwoDigits cs
  if s ≥ 60 then none
  match cs with
  | p :: d :: r => if (p == '.' || p == ',') && d.isDigit then some (r.dropWhile Char.isDigit) else some cs
  | _ => some cs

def zone : List Char → Option (List Char)
  | 'Z' :: rest => some rest
  | s :: rest =>
    if s == '+' || s == '-' then do
      let (h, r) ← twoDigits rest
      let r ← match r with
        | ':' :: r => some r
        | _ => none
      let (m, r) ← twoDigits r
      if h > 24 || m > 60 then none else some r
    else none
  | [] => none

/-- Whether a text is a timestamp: a date of four digits of year and one or two of
month and day that names a real day, alone, or with a time of day and a zone after
`T` or `t`, or a time of day after spaces. -/
def isTimestamp (s : String) : Bool :=
  let cs := s.toList
  if (cs.takeWhile Char.isDigit).length != 4 || cs[4]? != some '-' then false
  else
    let year := (cs.take 4).foldl (fun n c => n * 10 + (c.toNat - 48)) 0
    let date : Option (Nat × Nat × List Char) := do
      let (m, r) ← oneOrTwoDigits (cs.drop 5)
      let r ← match r with
        | '-' :: r => some r
        | _ => none
      let (d, r) ← oneOrTwoDigits r
      if m == 0 || m > 12 then none else some (m, d, r)
    match date with
    | none => false
    | some (m, d, rest) =>
      let dayOk := 1 ≤ d && d ≤ daysInMonth year m
      let timeOk := match rest with
        | [] => true
        | c :: r =>
          if c == 'T' || c == 't' then ((timeOfDay r).bind zone) == some []
          else if c == ' ' then timeOfDay (r.dropWhile (· == ' ')) == some []
          else false
      dayOk && timeOk

/-! Resolution. -/

def resolvable (tag : String) : Bool :=
  ["", "!!str", "!!bool", "!!int", "!!float", "!!null", "!!timestamp"].contains tag

def knownScalar (t : String) : Option (String × Resolved) :=
  if ["true", "True", "TRUE", "false", "False", "FALSE"].contains t then some ("!!bool", .bool)
  else if ["", "~", "null", "Null", "NULL"].contains t then some ("!!null", .null)
  else if [".nan", ".NaN", ".NAN"].contains t then some ("!!float", .float ⟨0x7FF8000000000001⟩)
  else if [".inf", ".Inf", ".INF", "+.inf", "+.Inf", "+.INF"].contains t then
    some ("!!float", .float ⟨0x7FF0000000000000⟩)
  else if ["-.inf", "-.Inf", "-.INF"].contains t then some ("!!float", .float ⟨0xFFF0000000000000⟩)
  else none

def resolveNumber (t : String) : String × Resolved :=
  let plain := t.toList.filter (· != '_')
  match prefixedInt plain with
  | some r => ("!!int", r)
  | none =>
    if floatShape plain then
      match Numeral.readReal (String.ofList plain) with
      | .ok r => ("!!float", .float r)
      | .error _ => ("!!str", .str t)
    else ("!!str", .str t)

/-- The tag and value a text resolves to under a resolvable tag. The first character
hints at the kind: a sign or digit at a number or timestamp, a dot at a float, and
some letters and `~` at the known words. -/
def resolveText (tag t : String) : String × Resolved :=
  let first := t.toList.head?
  let hinted := match first with
    | none => true
    | some c => c == '+' || c == '-' || c.isDigit || c == '.' || "yYnNtTfFoO~".contains c
  if !hinted || tag == "!!str" || tag == "!!binary" then ("!!str", .str t)
  else match knownScalar t with
    | some r => r
    | none =>
      match first with
      | some '.' =>
        match Numeral.readReal t with
        | .ok r => ("!!float", .float r)
        | .error _ => ("!!str", .str t)
      | some c =>
        if c == '+' || c == '-' || c.isDigit then
          if (tag == "" || tag == "!!timestamp") && isTimestamp t then ("!!timestamp", .timestamp)
          else resolveNumber t
        else ("!!str", .str t)
      | none => ("!!str", .str t)

def plainTag (t : String) : String := (resolveText "" t).1

/-- Resolves a scalar under its tag. A tag of a resolvable kind must match what the
text resolves to, but for an integer under the float tag, which becomes a float. -/
def resolve (tag t : String) : Except Failure (String × Resolved) :=
  let tag := shortTag tag
  if !resolvable tag then .ok (tag, .str t)
  else
    let r := resolveText tag t
    if tag == "" || tag == r.1 || tag == "!!str" then .ok r
    else match tag, r.2 with
      | "!!float", .int n => .ok ("!!float", .float (Real.ofInt64 (Int64.ofInt n)))
      | _, _ => .error (.cannotDecode r.1 t tag)

/-! Binary data. -/

def base64Value (c : Char) : Option Nat :=
  if 'A' ≤ c && c ≤ 'Z' then some (c.toNat - 'A'.toNat)
  else if 'a' ≤ c && c ≤ 'z' then some (c.toNat - 'a'.toNat + 26)
  else if '0' ≤ c && c ≤ '9' then some (c.toNat - '0'.toNat + 52)
  else if c == '+' then some 62
  else if c == '/' then some 63
  else none

/-- The bytes of groups of four base64 characters, `=` padding the last; none when
the text is not such groups. -/
def base64Bytes : List Char → Option (List UInt8)
  | [] => some []
  | a :: b :: c :: d :: rest => do
    let va ← base64Value a
    let vb ← base64Value b
    if c == '=' then
      if d == '=' && rest.isEmpty then some [((va * 4) + vb / 16).toUInt8] else none
    else
      let vc ← base64Value c
      if d == '=' then
        if rest.isEmpty then some [((va * 4) + vb / 16).toUInt8, (((vb % 16) * 16) + vc / 4).toUInt8]
        else none
      else
        let vd ← base64Value d
        let here := [((va * 4) + vb / 16).toUInt8, (((vb % 16) * 16) + vc / 4).toUInt8,
          (((vc % 4) * 64) + vd).toUInt8]
        (base64Bytes rest).map (here ++ ·)
  | _ => none

/-- The text that base64 data spells, line breaks in it ignored; each byte that is
not part of a UTF-8 character stands as a replacement character. -/
def decodeBase64 (t : String) : Except Failure String :=
  match base64Bytes (t.toList.filter fun c => c != '\r' && c != '\n') with
  | none => .error .invalidBinary
  | some bytes =>
    match String.fromUTF8? (ByteArray.mk bytes.toArray) with
    | some s => .ok s
    | none => .ok (String.ofList (bytes.map fun _ => Char.ofNat 0xFFFD))

end ClassScript.Yaml
