import ClassScript.Text.Printable

/-! Quoted text as messages and printed programs show it: a quote character at each
end, a backslash before the quote character and before a backslash, the seven named
control escapes, and hexadecimal escapes for every other character that is not
printable. Printable characters, non-ASCII ones included, stand as they are. -/
namespace ClassScript.Text

def hexDigit (n : Nat) : Char :=
  let d := n % 16
  if d < 10 then Char.ofNat (48 + d) else Char.ofNat (87 + d)

/-- The last `width` hexadecimal digits of `n`, most significant first. -/
def hexDigits (n : Nat) : Nat → List Char
  | 0 => []
  | width + 1 => hexDigits (n / 16) width ++ [hexDigit n]

/-- The escape of one control character by name, if it has one. -/
def namedEscape (c : Char) : Option Char :=
  match c.toNat with
  | 7 => some 'a'
  | 8 => some 'b'
  | 9 => some 't'
  | 10 => some 'n'
  | 11 => some 'v'
  | 12 => some 'f'
  | 13 => some 'r'
  | _ => none

/-- One character inside quotes delimited by `q`. -/
def escapeChar (q c : Char) : List Char :=
  if c = q ∨ c = '\\' then ['\\', c]
  else if isPrintable c then [c]
  else match namedEscape c with
    | some e => ['\\', e]
    | none =>
      if c.toNat < 0x20 ∨ c.toNat = 0x7F then '\\' :: 'x' :: hexDigits c.toNat 2
      else if c.toNat < 0x10000 then '\\' :: 'u' :: hexDigits c.toNat 4
      else '\\' :: 'U' :: hexDigits c.toNat 8

def quote (s : String) : String :=
  String.ofList ('"' :: (s.toList.flatMap (escapeChar '"') ++ ['"']))

def quoteChar (c : Char) : String :=
  let q := Char.ofNat 39
  String.ofList (q :: (escapeChar q c ++ [q]))

end ClassScript.Text
