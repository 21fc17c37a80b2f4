import ClassScript.Syntax.Token
import ClassScript.Numeral

/-! Scanning: the UTF-8 bytes of a source become tokens, ended by an `Eof` token. The
scanner reads one byte at a time, each as the character of the same code; each token is the
longest of its class, and the first fault ends the scan. -/
namespace ClassScript

inductive Unfinished where
  | string
  | comment
  deriving DecidableEq, Repr

/-- Why a source does not scan. A byte is reported as the character of the same code. -/
inductive ScanError where
  | unterminated (what : Unfinished) (line : Nat)
  | unknownChar (c : Char) (line : Nat)
  | badEscape (c : Char) (line : Nat)
  | badLiteral (e : NumeralError) (line : Nat)
  deriving DecidableEq, Repr

namespace ScanError

def line : ScanError → Nat
  | .unterminated _ l | .unknownChar _ l | .badEscape _ l | .badLiteral _ l => l

def message (e : ScanError) : String :=
  "line " ++ toString e.line ++ ": " ++
    match e with
    | .unterminated .string _ => "string: unexpected end of input"
    | .unterminated .comment _ => "comment: unexpected end of input"
    | .unknownChar c _ => Text.quoteChar c ++ ": unknown character"
    | .badEscape c _ => "\\" ++ c.toString ++ ": invalid escape sequence"
    | .badLiteral err _ =>
      (if err.reader = .int then "int literal: " else "real literal: ") ++ err.message

def errorClass : ScanError → ErrorClass
  | .unterminated .. => .unterminated
  | .unknownChar .. => .unknownChar
  | .badEscape .. => .badEscape
  | .badLiteral e _ => e.errorClass

end ScanError

namespace Scan

def isAlpha (c : Char) : Bool := ('a' ≤ c && c ≤ 'z') || ('A' ≤ c && c ≤ 'Z') || c == '_'

def isDigit (c : Char) : Bool := '0' ≤ c && c ≤ '9'

def isWordChar (c : Char) : Bool := isAlpha c || isDigit c

def singleKind : Char → Option Token.Kind
  | '(' => some .leftParen
  | ')' => some .rightParen
  | '{' => some .leftBrace
  | '}' => some .rightBrace
  | ',' => some .comma
  | '.' => some .dot
  | '-' => some .minus
  | '+' => some .plus
  | ';' => some .semicolon
  | '*' => some .star
  | _ => none

/-- Operators that mean more when an `=` follows: the kind alone and with the `=`. -/
def equalKinds : Char → Option (Token.Kind × Token.Kind)
  | '!' => some (.bang, .bangEqual)
  | '=' => some (.equal, .equalEqual)
  | '<' => some (.less, .lessEqual)
  | '>' => some (.greater, .greaterEqual)
  | _ => none

def escapeOf : Char → Option Char
  | 'n' => some '\n'
  | 't' => some '\t'
  | 'r' => some '\r'
  | '"' => some '"'
  | '\\' => some '\\'
  | _ => none

/-- A string literal after its opening quote. Gives the literal's units, the units taken
up to and including the closing quote, and the line after it. -/
def stringBody (lead : Char → Char) (start : Nat) : List Char → Nat → List Char → Nat →
    Except ScanError (List Char × Nat × Nat)
  | [], _, _, _ => .error (.unterminated .string start)
  | '"' :: _, line, acc, taken => .ok (acc.reverse, taken + 1, line)
  | '\n' :: cs, line, acc, taken => stringBody lead start cs (line + 1) ('\n' :: acc) (taken + 1)
  | '\\' :: [], _, _, _ => .error (.unterminated .string start)
  | '\\' :: e :: cs, line, acc, taken =>
    match escapeOf e with
    | some c => stringBody lead start cs line (c :: acc) (taken + 2)
    | none => .error (.badEscape (lead e) line)
  | c :: cs, line, acc, taken => stringBody lead start cs line (c :: acc) (taken + 1)

/-- A block comment after its opening `/*`. Gives the characters taken up to and
including the closing `*/` and the line after it; `none` when the source ends first. -/
def commentBody : List Char → Nat → Nat → Option (Nat × Nat)
  | '*' :: '/' :: _, line, taken => some (taken + 2, line)
  | '\n' :: cs, line, taken => commentBody cs (line + 1) (taken + 1)
  | _ :: cs, line, taken => commentBody cs line (taken + 1)
  | [], _, _ => none

def fraction : List Char → Option (List Char)
  | '.' :: d :: more => if isDigit d then some ((d :: more).takeWhile isDigit) else none
  | _ => none

/-- A number starting with digit `c`, followed by `rest`: the characters of `rest` it
takes and its token. -/
def number (c : Char) (rest : List Char) (line : Nat) : Except ScanError (Nat × Token) :=
  let whole := rest.takeWhile isDigit
  match fraction (rest.drop whole.length) with
  | some frac =>
    let taken := whole.length + 1 + frac.length
    let lexeme := String.ofList (c :: rest.take taken)
    match Numeral.readReal lexeme with
    | .ok v => .ok (taken, ⟨.real, lexeme, .real v, line⟩)
    | .error e => .error (.badLiteral e line)
  | none =>
    let lexeme := String.ofList (c :: whole)
    match Numeral.readInt lexeme with
    | .ok v => .ok (whole.length, ⟨.int, lexeme, .int v, line⟩)
    | .error e => .error (.badLiteral e line)

/-- One step of the scan at `c :: rest`: the units of `rest` taken, the token found if
any, and the line after it. A unit that cannot be read is named in the fault by `lead`. -/
def step (lead : Char → Char) (c : Char) (rest : List Char) (line : Nat) :
    Except ScanError (Nat × Option Token × Nat) :=
  let lexeme := fun (k : Nat) => String.ofList (c :: rest.take k)
  match singleKind c with
  | some kind => .ok (0, some ⟨kind, lexeme 0, .none, line⟩, line)
  | none =>
  match equalKinds c with
  | some (alone, withEq) =>
    match rest with
    | '=' :: _ => .ok (1, some ⟨withEq, lexeme 1, .none, line⟩, line)
    | _ => .ok (0, some ⟨alone, lexeme 0, .none, line⟩, line)
  | none =>
  if c = '/' then
    match rest with
    | '/' :: more => .ok (1 + (more.takeWhile (· ≠ '\n')).length, none, line)
    | '*' :: more =>
      match commentBody more line 0 with
      | some (taken, line') => .ok (1 + taken, none, line')
      | none => .error (.unterminated .comment line)
    | _ => .ok (0, some ⟨.slash, lexeme 0, .none, line⟩, line)
  else if c = ' ' ∨ c = '\t' ∨ c = '\r' then .ok (0, none, line)
  else if c = '\n' then .ok (0, none, line + 1)
  else if c = '"' then
    match stringBody lead line rest line [] 0 with
    | .ok (chars, taken, line') =>
      .ok (taken, some ⟨.string, lexeme taken, .string (String.ofList chars), line'⟩, line')
    | .error e => .error e
  else if isDigit c then
    match number c rest line with
    | .ok (taken, t) => .ok (taken, some t, line)
    | .error e => .error e
  else if isAlpha c then
    let taken := (rest.takeWhile isWordChar).length
    .ok (taken, some ⟨Token.wordKind (lexeme taken), lexeme taken, .none, line⟩, line)
  else .error (.unknownChar (lead c) line)

def run (lead : Char → Char) (cs : List Char) (line : Nat) (acc : List Token) :
    Except ScanError (List Token) :=
  match cs with
  | [] => .ok (acc.reverse ++ [⟨.eof, "", .none, line⟩])
  | c :: rest =>
    match step lead c rest line with
    | .error e => .error e
    | .ok (taken, tok, line') =>
      have : (rest.drop taken).length < (c :: rest).length := by
        simp only [List.length_drop, List.length_cons]; omega
      run lead (rest.drop taken) line' (match tok with | some t => t :: acc | none => acc)
termination_by cs.length

/-- The text whose UTF-8 form is the bytes that the characters of `s` stand for, one
byte each; `s` itself when they are not UTF-8. -/
def decode (s : String) : String :=
  (String.fromUTF8? (s.toList.map Char.toUInt8).toByteArray).getD s

end Scan

namespace Token

/-- A token read from bytes, with its lexeme and the text of its string read back from
UTF-8. -/
def asText (t : Token) : Token :=
  { t with
    lexeme := Scan.decode t.lexeme
    literal := match t.literal with
      | .string s => .string (Scan.decode s)
      | l => l }

/-- The tokens of a source of bytes, ended by `Eof`, or the first fault. Each byte is one
unit: a lexeme holds one character for each byte it spans, and a byte that cannot be read
is named by itself. -/
def scanBytes (source : List UInt8) : Except ScanError (List Token) :=
  Scan.run id (source.map Char.ofUInt8) 1 []

/-- The tokens of a source text: its UTF-8 bytes scanned, and each token read back as
text. -/
def scan (source : String) : Except ScanError (List Token) :=
  (scanBytes (source.toList.flatMap String.utf8EncodeChar)).map (List.map asText)

end Token

end ClassScript
