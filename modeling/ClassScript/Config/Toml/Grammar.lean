/-! The grammar of TOML text as a parsing expression grammar, and its matcher. Matching the
whole text yields the trail of its captures and actions in the order they completed; when
it does not match, the trouble is placed at the furthest end of anything that matched. -/
namespace ClassScript.Toml

/-- The actions of the grammar, reached as the text matches and replayed in order
once it has matched as a whole. -/
inductive Action where
  /-- A table header and the pairs under it ended: the header's table is defined. -/
  | defineTable
  /-- Line breaks were passed; the captured span holds them. -/
  | countLines
  | setKey
  | setDatetime
  | setFloat
  | setInteger
  | setString
  | setBoolean
  | endArray
  | setTable
  | setArrayTable
  | startInlineTable
  | endInlineTable
  | addTableKey
  | setBasicString
  | setMultilineBasic
  | addMultilineBody
  | setLiteralString
  | setMultilineLiteral
  | startArray
  | addArrayValue
  | addPair
  deriving DecidableEq, Repr

inductive Rule where
  | document
  | expression
  | newline
  | ws
  | wsnl
  | comment
  | keyval
  | key
  | bareKey
  | quotedKey
  | val
  | table
  | stdTable
  | arrayTable
  | inlineTable
  | inlineTableKeyValues
  | tableKey
  | tableKeyComp
  | tableKeySep
  | inlineTableValSep
  | integer
  | int
  | float
  | frac
  | exp
  | string
  | basicString
  | basicChar
  | escaped
  | basicUnescaped
  | escape
  | mlBasicString
  | mlBasicBody
  | literalString
  | literalChar
  | mlLiteralString
  | mlLiteralBody
  | mlLiteralChar
  | hexdigit
  | hexQuad
  | boolean
  | dateFullYear
  | dateMonth
  | dateMDay
  | timeHour
  | timeMinute
  | timeSecond
  | timeSecfrac
  | timeNumoffset
  | timeOffset
  | partialTime
  | fullDate
  | datetime
  | digit
  | digitDual
  | digitQuad
  | array
  | arrayValues
  | arraySep
  deriving DecidableEq, Repr

inductive Pattern where
  | empty
  /-- One character within one of the ranges. -/
  | oneOf (ranges : List (Char × Char))
  | word (w : String)
  | andThen (p q : Pattern)
  /-- The first pattern, or else the second from the same place. -/
  | orElse (p q : Pattern)
  | many (p : Pattern)
  /-- Matches nothing where the pattern does not match. -/
  | notAhead (p : Pattern)
  | endOfText
  | rule (r : Rule)
  /-- The pattern, with its span recorded. -/
  | capture (p : Pattern)
  | act (a : Action)
  deriving Repr

namespace Pattern

def seq : List Pattern → Pattern
  | [] => .empty
  | [p] => p
  | p :: ps => .andThen p (seq ps)

def alt : List Pattern → Pattern
  | [] => .oneOf []
  | [p] => p
  | p :: ps => .orElse p (alt ps)

def opt (p : Pattern) : Pattern := .orElse p .empty

def plus (p : Pattern) : Pattern := .andThen p (.many p)

def char (c : Char) : Pattern := .oneOf [(c, c)]

end Pattern

open Pattern

def topChar : Char := Char.ofNat 0x10FFFF

def grammar : Rule → Pattern
  | .document => seq [.rule .expression, .many (seq [.rule .newline, .rule .expression]),
      opt (.rule .newline), .endOfText]
  | .expression => alt [
      seq [.capture (seq [.rule .ws, .rule .table, .rule .ws, opt (.rule .comment),
        .many (seq [.rule .wsnl, .rule .keyval, .rule .ws, opt (.rule .comment)])]),
        .act .defineTable],
      seq [.rule .ws, .rule .keyval, .rule .ws, opt (.rule .comment)],
      seq [.rule .ws, opt (.rule .comment)],
      .rule .ws]
  | .newline => seq [.capture (plus (.oneOf [('\r', '\r'), ('\n', '\n')])), .act .countLines]
  | .ws => .many (.oneOf [(' ', ' '), ('\t', '\t')])
  | .wsnl => .many (alt [.oneOf [(' ', ' '), ('\t', '\t')],
      seq [.capture (.oneOf [('\r', '\r'), ('\n', '\n')]), .act .countLines]])
  | .comment => seq [char '#', .capture (.many (.oneOf [('\t', '\t'), (' ', topChar)]))]
  | .keyval => seq [.rule .key, .rule .ws, char '=', .rule .ws, .rule .val, .act .addPair]
  | .key => alt [.rule .bareKey, .rule .quotedKey]
  | .bareKey => seq [.capture (plus (.oneOf [('0', '9'), ('A', 'Z'), ('a', 'z'), ('-', '-'),
      ('_', '_')])), .act .setKey]
  | .quotedKey => seq [.capture (seq [char '"', .many (.rule .basicChar), char '"']), .act .setKey]
  | .val => alt [
      seq [.capture (.rule .datetime), .act .setDatetime],
      seq [.capture (.rule .float), .act .setFloat],
      seq [.capture (.rule .integer), .act .setInteger],
      seq [.capture (.rule .string), .act .setString],
      seq [.capture (.rule .boolean), .act .setBoolean],
      seq [.capture (.rule .array), .act .endArray],
      .rule .inlineTable]
  | .table => alt [.rule .stdTable, .rule .arrayTable]
  | .stdTable => seq [char '[', .rule .ws, .capture (.rule .tableKey), .rule .ws, char ']',
      .act .setTable]
  | .arrayTable => seq [.word "[[", .rule .ws, .capture (.rule .tableKey), .rule .ws, .word "]]",
      .act .setArrayTable]
  | .inlineTable => seq [char '\x7b', .act .startInlineTable, .rule .ws,
      .rule .inlineTableKeyValues, .rule .ws, char '\x7d', .act .endInlineTable]
  | .inlineTableKeyValues => .many (seq [.rule .keyval, opt (.rule .inlineTableValSep)])
  | .tableKey => seq [.rule .tableKeyComp, .many (seq [.rule .tableKeySep, .rule .tableKeyComp])]
  | .tableKeyComp => seq [.rule .key, .act .addTableKey]
  | .tableKeySep => seq [.rule .ws, char '.', .rule .ws]
  | .inlineTableValSep => seq [.rule .ws, char ',', .rule .ws]
  | .integer => seq [opt (.oneOf [('-', '-'), ('+', '+')]), .rule .int]
  | .int => alt [
      seq [.oneOf [('1', '9')], plus (alt [.rule .digit, seq [char '_', .rule .digit]])],
      .rule .digit]
  | .float => seq [.rule .integer,
      alt [seq [.rule .frac, opt (.rule .exp)], seq [opt (.rule .frac), .rule .exp]]]
  | .frac => seq [char '.', .rule .digit, .many (alt [.rule .digit, seq [char '_', .rule .digit]])]
  | .exp => seq [.oneOf [('e', 'e'), ('E', 'E')], opt (.oneOf [('-', '-'), ('+', '+')]),
      .rule .digit, .many (alt [.rule .digit, seq [char '_', .rule .digit]])]
  | .string => alt [.rule .mlLiteralString, .rule .literalString, .rule .mlBasicString,
      .rule .basicString]
  | .basicString => seq [.capture (seq [char '"', .many (.rule .basicChar), char '"']),
      .act .setBasicString]
  | .basicChar => alt [.rule .basicUnescaped, .rule .escaped]
  | .escaped => seq [.rule .escape, alt [
      .oneOf [('b', 'b'), ('t', 't'), ('n', 'n'), ('f', 'f'), ('r', 'r'), ('"', '"'), ('/', '/'),
        ('\\', '\\')],
      seq [char 'u', .rule .hexQuad],
      seq [char 'U', .rule .hexQuad, .rule .hexQuad]]]
  | .basicUnescaped => .oneOf [(' ', '!'), ('#', '['), (']', topChar)]
  | .escape => char '\\'
  | .mlBasicString => seq [.word "\"\"\"", .rule .mlBasicBody, .word "\"\"\"",
      .act .setMultilineBasic]
  | .mlBasicBody => .many (alt [
      seq [.capture (alt [.rule .basicChar, .rule .newline]), .act .addMultilineBody],
      seq [.rule .escape, .rule .newline, .rule .wsnl]])
  | .literalString => seq [char '\'', .capture (.many (.rule .literalChar)), char '\'',
      .act .setLiteralString]
  | .literalChar => .oneOf [('\t', '\t'), (' ', '&'), ('(', topChar)]
  | .mlLiteralString => seq [.word "'''", .capture (.rule .mlLiteralBody), .word "'''",
      .act .setMultilineLiteral]
  | .mlLiteralBody => .many (seq [.notAhead (.word "'''"),
      alt [.rule .mlLiteralChar, .rule .newline]])
  | .mlLiteralChar => .oneOf [('\t', '\t'), (' ', topChar)]
  | .hexdigit => .oneOf [('0', '9'), ('A', 'F'), ('a', 'f')]
  | .hexQuad => seq [.rule .hexdigit, .rule .hexdigit, .rule .hexdigit, .rule .hexdigit]
  | .boolean => alt [.word "true", .word "false"]
  | .dateFullYear => .rule .digitQuad
  | .dateMonth => .rule .digitDual
  | .dateMDay => .rule .digitDual
  | .timeHour => .rule .digitDual
  | .timeMinute => .rule .digitDual
  | .timeSecond => .rule .digitDual
  | .timeSecfrac => seq [char '.', plus (.rule .digit)]
  | .timeNumoffset => seq [.oneOf [('-', '-'), ('+', '+')], .rule .timeHour, char ':',
      .rule .timeMinute]
  | .timeOffset => alt [char 'Z', .rule .timeNumoffset]
  | .partialTime => seq [.rule .timeHour, char ':', .rule .timeMinute, char ':', .rule .timeSecond,
      opt (.rule .timeSecfrac)]
  | .fullDate => seq [.rule .dateFullYear, char '-', .rule .dateMonth, char '-', .rule .dateMDay]
  | .datetime => alt [
      seq [.rule .fullDate, opt (seq [char 'T', .rule .partialTime, opt (.rule .timeOffset)])],
      .rule .partialTime]
  | .digit => .oneOf [('0', '9')]
  | .digitDual => seq [.rule .digit, .rule .digit]
  | .digitQuad => seq [.rule .digitDual, .rule .digitDual]
  | .array => seq [char '[', .act .startArray, .rule .wsnl, opt (.rule .arrayValues), .rule .wsnl,
      char ']']
  | .arrayValues => seq [.rule .val, .act .addArrayValue,
      .many (seq [.rule .wsnl, opt (.rule .comment), .rule .wsnl, .rule .arraySep, .rule .wsnl,
        opt (.rule .comment), .rule .wsnl, .rule .val, .act .addArrayValue]),
      .rule .wsnl, opt (.rule .arraySep), .rule .wsnl, opt (.rule .comment)]
  | .arraySep => char ','

inductive Mark where
  | span (start stop : Nat)
  | action (a : Action)
  deriving DecidableEq, Repr

/-- The state of matching: the place reached, the furthest end of a rule or capture
that matched something, and the trail so far, latest first. -/
structure Matching where
  pos : Nat
  furthest : Nat
  trail : List Mark
  deriving Repr

namespace Matching

def reach (m : Matching) (start : Nat) : Matching :=
  if start ≠ m.pos ∧ m.pos > m.furthest then { m with furthest := m.pos } else m

/-- The state before a failed attempt, keeping how far the attempt reached. -/
def restore (before after : Matching) : Matching := { before with furthest := after.furthest }

end Matching

def wordAt (text : Array Char) (i : Nat) : List Char → Bool
  | [] => true
  | c :: cs => text[i]? == some c && wordAt text (i + 1) cs

/-- Matches a pattern at the place of the state, with `fuel` bounding the depth of
nested patterns. Gives whether it matched, and the state after it; a failed match
leaves the place and the trail as they were. -/
def Pattern.run (text : Array Char) : Nat → Pattern → Matching → Bool × Matching
  | 0, _, m => (false, m)
  | _ + 1, .empty, m => (true, m)
  | _ + 1, .oneOf ranges, m =>
    match text[m.pos]? with
    | some c =>
      if ranges.any (fun r => r.1 ≤ c && c ≤ r.2) then (true, { m with pos := m.pos + 1 })
      else (false, m)
    | none => (false, m)
  | _ + 1, .word w, m =>
    if wordAt text m.pos w.toList then (true, { m with pos := m.pos + w.length }) else (false, m)
  | fuel + 1, .andThen p q, m =>
    match Pattern.run text fuel p m with
    | (true, m1) =>
      match Pattern.run text fuel q m1 with
      | (true, m2) => (true, m2)
      | (false, m2) => (false, m.restore m2)
    | (false, m1) => (false, m.restore m1)
  | fuel + 1, .orElse p q, m =>
    match Pattern.run text fuel p m with
    | (true, m1) => (true, m1)
    | (false, m1) => Pattern.run text fuel q (m.restore m1)
  | fuel + 1, .many p, m =>
    match Pattern.run text fuel p m with
    | (true, m1) => if m1.pos = m.pos then (true, m1) else Pattern.run text fuel (.many p) m1
    | (false, m1) => (true, m.restore m1)
  | fuel + 1, .notAhead p, m =>
    match Pattern.run text fuel p m with
    | (true, m1) => (false, m.restore m1)
    | (false, m1) => (true, m.restore m1)
  | _ + 1, .endOfText, m => (decide (text.size ≤ m.pos), m)
  | fuel + 1, .rule r, m =>
    match Pattern.run text fuel (grammar r) m with
    | (true, m1) => (true, m1.reach m.pos)
    | (false, m1) => (false, m.restore m1)
  | fuel + 1, .capture p, m =>
    match Pattern.run text fuel p m with
    | (true, m1) => (true, { m1 with trail := .span m.pos m1.pos :: m1.trail }.reach m.pos)
    | (false, m1) => (false, m.restore m1)
  | _ + 1, .act a, m => (true, { m with trail := .action a :: m.trail })

/-- The line of a place in the text: one more than the line breaks up to and including
the character there. -/
def lineAt (text : Array Char) (i : Nat) : Nat :=
  1 + ((text.toList.take (i + 1)).filter (· == '\n')).length

/-- Matches the whole text: the trail in order, or the line of the trouble. -/
def matchText (text : Array Char) : Except Nat (List Mark) :=
  let fuel := 64 * (text.size + 4)
  match Pattern.run text fuel (.rule .document) ⟨0, 0, []⟩ with
  | (true, m) => .ok m.trail.reverse
  | (false, m) => .error (lineAt text m.furthest)

end ClassScript.Toml
