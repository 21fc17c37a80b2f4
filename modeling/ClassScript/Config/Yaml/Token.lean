/-! The pieces YAML text is read in: marks, tokens and problems. The end of the text reads
as the character zero, which the text itself never holds. -/
namespace ClassScript.Yaml

/-- A place in the text: the characters before it, and its line and column, both
counted from zero. -/
structure Mark where
  index : Nat
  line : Nat
  column : Nat
  deriving DecidableEq, Repr, Inhabited

/-- How a scalar is written: plain, in single or double quotes, or as a literal or
folded block. -/
inductive Style where
  | plain
  | singleQuoted
  | doubleQuoted
  | literal
  | folded
  deriving DecidableEq, Repr, Inhabited

inductive TokenKind where
  | streamStart
  | streamEnd
  | versionDirective (major minor : Nat)
  | tagDirective (handle pre : String)
  | documentStart
  | documentEnd
  | blockSequenceStart
  | blockMappingStart
  | blockEnd
  | flowSequenceStart
  | flowSequenceEnd
  | flowMappingStart
  | flowMappingEnd
  | blockEntry
  | flowEntry
  | key
  | value
  | alias (name : String)
  | anchor (name : String)
  | tag (handle suffix : String)
  | scalar (text : String) (style : Style)
  deriving DecidableEq, Repr, Inhabited

structure Token where
  kind : TokenKind
  start : Mark
  stop : Mark
  deriving Repr, Inhabited

/-- Whether a problem was found while cutting the text into tokens or while
arranging tokens into nodes. -/
inductive Stage where
  | scanning
  | parsing
  deriving DecidableEq, Repr

/-- A problem that stops the reading: what it is, where the construct it was found
in starts (the zero mark when there is none), and where it was found. -/
structure Problem where
  stage : Stage
  text : String
  context : Mark
  found : Mark
  deriving Repr

namespace Problem

/-- The line a problem is told at: the line of its construct, else the line where it
was found, counted from one for problems of scanning and from zero for problems of
parsing; zero when both lines are the first. -/
def line (p : Problem) : Nat :=
  let shift := if p.stage == .scanning then 1 else 0
  if p.context.line != 0 then p.context.line + shift
  else if p.found.line != 0 then p.found.line + shift
  else 0

def message (p : Problem) : String :=
  (if p.line != 0 then "line " ++ toString p.line ++ ": " else "") ++ p.text

end Problem

def endChar : Char := Char.ofNat 0

def isBlank (c : Char) : Bool := c == ' ' || c == '\t'

def isBreak (c : Char) : Bool :=
  c == '\r' || c == '\n' || c == '\x85' || c == '\u2028' || c == '\u2029'

def isBreakOrEnd (c : Char) : Bool := isBreak c || c == endChar

def isBlankOrEnd (c : Char) : Bool := isBlank c || isBreakOrEnd c

/-- The characters of anchor names, directive names and tag handles: ASCII letters
and digits, the underscore and the hyphen. -/
def isWordChar (c : Char) : Bool :=
  ('0' ≤ c && c ≤ '9') || ('a' ≤ c && c ≤ 'z') || ('A' ≤ c && c ≤ 'Z') || c == '_' || c == '-'

def isHexChar (c : Char) : Bool :=
  ('0' ≤ c && c ≤ '9') || ('a' ≤ c && c ≤ 'f') || ('A' ≤ c && c ≤ 'F')

def hexValue (c : Char) : Nat :=
  if c ≤ '9' then c.toNat - '0'.toNat
  else if c ≤ 'F' then c.toNat - 'A'.toNat + 10
  else c.toNat - 'a'.toNat + 10

/-- The characters YAML text may hold: the tab, the line breaks CR and LF, the
printable ASCII characters, NEL, and the rest of Unicode but for the surrogates, the
controls and the two noncharacters at the end of the basic plane. -/
def isAllowed (c : Char) : Bool :=
  let n := c.toNat
  n == 0x9 || n == 0xA || n == 0xD || (0x20 ≤ n && n ≤ 0x7E) || n == 0x85 ||
    (0xA0 ≤ n && n ≤ 0xD7FF) || (0xE000 ≤ n && n ≤ 0xFFFD) || 0x10000 ≤ n

end ClassScript.Yaml
