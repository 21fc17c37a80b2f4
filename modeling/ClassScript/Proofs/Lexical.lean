import Mathlib
import ClassScript.Syntax.Scan

/-! The lexical grammar of sources, said without the scanner. Between tokens stand fillers:
blanks, newlines and comments. A lexeme reads as a token by its first character and the
tables of keywords and punctuation, and a token is the longest one its text allows. A
source is *spelled* by tokens when it is fillers and the lexemes of those tokens in order;
reading a token *halts* at the character that cannot be read, or at the start of a literal
or comment that is never closed. -/
namespace ClassScript

namespace Scan

/-- The first byte of a character's UTF-8 form, as the scanner reads it: a character that
cannot be read is named by it. -/
def leadByte (c : Char) : Char :=
  let n := c.toNat
  Char.ofNat <|
    if n < 0x80 then n
    else if n < 0x800 then 0xC0 + n / 0x40
    else if n < 0x10000 then 0xE0 + n / 0x1000
    else 0xF0 + n / 0x40000

/-- The characters the text of a string literal stands for, its escapes resolved; `none`
when the text holds a quote that no backslash escapes, an escape that is none, or ends in a
lone backslash. -/
def unescape : List Char → Option (List Char)
  | [] => some []
  | '"' :: _ => none
  | '\\' :: e :: cs => (escapeOf e).bind fun c => (unescape cs).map (c :: ·)
  | ['\\'] => none
  | c :: cs => (unescape cs).map (c :: ·)

/-- The text of a string literal that the source ends inside: no quote ends it and each
of its escapes is one, though it may end in a lone backslash. -/
def Unclosed (body : List Char) : Prop :=
  (unescape body).isSome ∨ ∃ b, body = b ++ ['\\'] ∧ (unescape b).isSome

/-- A filler: what may stand between tokens, given the text after it. A blank or a
newline; a `//` comment, which runs to the next newline or to the end of the source; a
`/* */` comment, closed by its first `*/`. -/
inductive Filler : List Char → List Char → Prop
  | blank {c : Char} {after : List Char} :
      c = ' ' ∨ c = '\t' ∨ c = '\r' ∨ c = '\n' → Filler [c] after
  | lineComment {body after : List Char} :
      '\n' ∉ body → (∀ c ∈ after.head?, c = '\n') → Filler ('/' :: '/' :: body) after
  | blockComment {body after : List Char} :
      ¬ ['*', '/'] <:+: body → Filler ('/' :: '*' :: body ++ ['*', '/']) after

def starts (c : Char) : Bool :=
  (singleKind c).isSome || (equalKinds c).isSome || c == '/' || c == ' ' || c == '\t' ||
    c == '\r' || c == '\n' || c == '"' || isDigit c || isAlpha c

end Scan

namespace Token

def Kind.isWord : Kind → Bool
  | .identifier | .andKw | .boolKw | .classKw | .elseKw | .extendsKw | .falseKw | .forKw
  | .ifKw | .intKw | .newKw | .nullKw | .orKw | .realKw | .stringKw | .trueKw | .whileKw => true
  | _ => false

/-- Whether the text after a token of kind `k` would make it a longer token: a word goes
on with a word character, an integer with a digit or with a point and a digit, a real
with a digit, `!`, `=`, `<` and `>` with `=`, and `/` with `/` or `*`, a comment. -/
def Kind.extendsInto (k : Kind) : List Char → Bool
  | [] => false
  | c :: cs =>
    if k.isWord then Scan.isWordChar c
    else match k with
      | .int => Scan.isDigit c || (c == '.' && cs.head?.any Scan.isDigit)
      | .real => Scan.isDigit c
      | .bang | .equal | .less | .greater => c == '='
      | .slash => c == '/' || c == '*'
      | _ => false

def symbolKind : List Char → Option Kind
  | [c] =>
    match Scan.singleKind c, Scan.equalKinds c with
    | some k, _ => some k
    | none, some (k, _) => some k
    | none, none => if c = '/' then some .slash else none
  | [c, '='] => (Scan.equalKinds c).map Prod.snd
  | _ => none

/-- A number lexeme: digits are an integer, digits with a point and digits a real, each
valued by its reader; `none` when the reader refuses the text. -/
def readNumber (lexeme : List Char) : Option (Kind × Literal) :=
  match lexeme.dropWhile Scan.isDigit with
  | [] => (Numeral.readInt (String.ofList lexeme)).toOption.map fun v => (.int, .int v)
  | '.' :: frac =>
    if !frac.isEmpty && frac.all Scan.isDigit then
      (Numeral.readReal (String.ofList lexeme)).toOption.map fun v => (.real, .real v)
    else none
  | _ => none

/-- What a lexeme reads as, by its first character: a word by the keyword table, a number
by the numeral readers, a quoted text with its escapes resolved, and punctuation and
operators by their tables. -/
def read : List Char → Option (Kind × Literal)
  | [] => none
  | c :: cs =>
    if Scan.isAlpha c then
      if cs.all Scan.isWordChar then some (wordKind (String.ofList (c :: cs)), .none) else none
    else if Scan.isDigit c then readNumber (c :: cs)
    else if c = '"' then
      if cs.getLast? = some '"' then
        (Scan.unescape cs.dropLast).map fun v => (.string, .string (String.ofList v))
      else none
    else (symbolKind (c :: cs)).map (·, .none)

/-- A token is read off its lexeme, and is the longest token that the text after it
allows. -/
def Reads (t : Token) (after : List Char) : Prop :=
  read t.lexeme.toList = some (t.kind, t.literal) ∧ t.kind.extendsInto after = false

/-- How a character is written inside a string literal so that the literal reads back as it:
a backslash, a quote, a newline, a tab and a carriage return by their escapes, every other
character as itself. -/
def literalChar : Char → List Char
  | '\\' => ['\\', '\\']
  | '"' => ['\\', '"']
  | '\n' => ['\\', 'n']
  | '\t' => ['\\', 't']
  | '\r' => ['\\', 'r']
  | c => [c]

def stringLexeme (v : String) : String :=
  String.ofList ('"' :: (v.toList.flatMap literalChar ++ ['"']))

def literalByte (b : UInt8) : List UInt8 :=
  (literalChar (Char.ofUInt8 b)).map Char.toUInt8

def quoteBytes (v : List UInt8) : List UInt8 :=
  '"'.toUInt8 :: (v.flatMap literalByte ++ ['"'.toUInt8])

def bytesText (bs : List UInt8) : String :=
  String.ofList (bs.map Char.ofUInt8)

end Token

namespace Scan

/-- `Spelled P before s ts rest`: the text `s`, which follows `before` in a source, is
fillers and the lexemes of `ts` in order, and then `rest`. Every token `t` of them
satisfies `P pre t post`, with `pre` the source before its lexeme and `post` the text
after it. -/
inductive Spelled (P : List Char → Token → List Char → Prop) :
    List Char → List Char → List Token → List Char → Prop
  | stop {before rest : List Char} : Spelled P before rest [] rest
  | filler {before f s rest : List Char} {ts : List Token} :
      Filler f s → Spelled P (before ++ f) s ts rest → Spelled P before (f ++ s) ts rest
  | token {before s rest : List Char} {t : Token} {ts : List Token} :
      P before t s → Spelled P (before ++ t.lexeme.toList) s ts rest →
      Spelled P before (t.lexeme.toList ++ s) (t :: ts) rest

/-- What every token of a scan meets: it is read off its lexeme as the longest token, and
it ends on the line that follows the newlines of the source up to the end of its lexeme. -/
def Fits (before : List Char) (t : Token) (after : List Char) : Prop :=
  t.Reads after ∧ t.line = 1 + (before ++ t.lexeme.toList).count '\n'

/-- How reading a token at the start of `text` fails: the fault, given the line it is
reported at, and how many newlines of `text` stand before the place it names. That place
is the character that cannot be read, or the start of a literal or a comment that the
source never closes. -/
inductive Halts : List Char → (Nat → ScanError) → Nat → Prop
  | unknown {x : Char} {more : List Char} :
      starts x = false → Halts (x :: more) (.unknownChar (leadByte x)) 0
  | badEscape {body more v : List Char} {x : Char} :
      unescape body = some v → escapeOf x = none →
      Halts ('"' :: body ++ '\\' :: x :: more) (.badEscape (leadByte x)) (body.count '\n')
  | badInt {digits more : List Char} {err : NumeralError} :
      digits ≠ [] → digits.all isDigit → Token.Kind.int.extendsInto more = false →
      Numeral.readInt (String.ofList digits) = .error err →
      Halts (digits ++ more) (.badLiteral err) 0
  | badReal {whole frac more : List Char} {err : NumeralError} :
      whole ≠ [] → whole.all isDigit → frac ≠ [] → frac.all isDigit →
      Token.Kind.real.extendsInto more = false →
      Numeral.readReal (String.ofList (whole ++ '.' :: frac)) = .error err →
      Halts (whole ++ '.' :: frac ++ more) (.badLiteral err) 0
  | openString {body : List Char} : Unclosed body → Halts ('"' :: body) (.unterminated .string) 0
  | openComment {body : List Char} :
      ¬ ['*', '/'] <:+: body → Halts ('/' :: '*' :: body) (.unterminated .comment) 0

namespace Spelled

variable {P Q : List Char → Token → List Char → Prop}

theorem mono (weaker : ∀ pre t post, P pre t post → Q pre t post)
    {before s ts rest} (spelled : Spelled P before s ts rest) : Spelled Q before s ts rest := by
  induction spelled with
  | stop => exact .stop
  | filler f _ ih => exact .filler f ih
  | token fits _ ih => exact .token (weaker _ _ _ fits) ih

end Spelled

end Scan

end ClassScript
