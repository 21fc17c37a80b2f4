import ClassScript.Config.Yaml.Scanner

/-! The tokens that carry text: scalars, anchors and aliases, tags and directives. Plain and
quoted scalars fold their line breaks; a block scalar keeps (literal) or joins (folded) its
lines, and its final line breaks are clipped, stripped or kept. -/
namespace ClassScript.Yaml

/-- Whether the mark is at a document marker: `---` or `...` at the start of a line,
before a blank or the end of the text. -/
def atDocumentMarker : Scan Bool := do
  let s ← get
  let c := s.charAt 0
  return s.mark.column == 0 && (c == '-' || c == '.') && s.charAt 1 == c && s.charAt 2 == c &&
    isBlankOrEnd (s.charAt 3)

/-- A scalar being read, with the blanks and line breaks after its last run of
characters, which are joined when the next run comes. -/
structure Folding where
  text : Array Char := #[]
  leadingBreak : List Char := []
  trailingBreaks : List Char := []
  whitespaces : List Char := []
  leadingBlanks : Bool := false

namespace Folding

/-- Joins the pending blanks to the text: a single line feed folds to a space, further
breaks stay, and blanks within a line stay as they are. -/
def join (f : Folding) : Folding :=
  if f.leadingBlanks then
    let text :=
      if f.leadingBreak.head? == some '\n' then
        if f.trailingBreaks.isEmpty then f.text.push ' ' else f.text ++ f.trailingBreaks.toArray
      else f.text ++ (f.leadingBreak ++ f.trailingBreaks).toArray
    { f with text, leadingBreak := [], trailingBreaks := [], leadingBlanks := false }
  else { f with text := f.text ++ f.whitespaces.toArray, whitespaces := [] }

def blank (f : Folding) (c : Char) : Folding :=
  if f.leadingBlanks then f else { f with whitespaces := f.whitespaces ++ [c] }

def lineBreak (f : Folding) (b : List Char) : Folding :=
  if f.leadingBlanks then { f with trailingBreaks := f.trailingBreaks ++ b }
  else { f with whitespaces := [], leadingBreak := f.leadingBreak ++ b, leadingBlanks := true }

end Folding

def skipN : Nat → Scan Unit
  | 0 => pure ()
  | n + 1 => do
    skip
    skipN n

/-! Plain scalars. -/

/-- One run of non-blank characters of a plain scalar, joined to the text after the
blanks before it; gives the mark after its last character. -/
def plainRun (flow : Bool) : Nat → Folding → Mark → Scan (Folding × Mark)
  | 0, f, e => pure (f, e)
  | fuel + 1, f, e => do
    let c ← charAt 0
    let next ← charAt 1
    if isBlankOrEnd c then return (f, e)
    if (c == ':' && isBlankOrEnd next) ||
        (flow && (c == ',' || c == '?' || c == '[' || c == ']' || c == '{' || c == '}')) then
      return (f, e)
    let f := if f.leadingBlanks || !f.whitespaces.isEmpty then f.join else f
    skip
    plainRun flow fuel { f with text := f.text.push c } (← currentMark)

/-- The blanks and line breaks after a run of a plain scalar. A tab may not stand in
the indentation of a continuation line. -/
def plainBlanks (indent : Int) (start : Mark) : Nat → Folding → Scan Folding
  | 0, f => pure f
  | fuel + 1, f => do
    let s ← get
    let c := s.charAt 0
    if isBlank c then
      if f.leadingBlanks && (s.mark.column : Int) < indent && c == '\t' then
        scanProblem "found a tab character that violates indentation" start
      skip
      plainBlanks indent start fuel (f.blank c)
    else if isBreak c then
      let b ← readBreak
      plainBlanks indent start fuel (f.lineBreak b)
    else return f

def plainLines (indent : Int) (start : Mark) : Nat → Folding → Mark → Scan (Folding × Mark)
  | 0, f, e => pure (f, e)
  | fuel + 1, f, e => do
    if ← atDocumentMarker then return (f, e)
    if (← charAt 0) == '#' then return (f, e)
    let s ← get
    let (f, e) ← plainRun (s.flowLevel > 0) s.budget f e
    let c ← charAt 0
    if !(isBlank c || isBreak c) then return (f, e)
    let f ← plainBlanks indent start (← budget) f
    let s ← get
    if s.flowLevel == 0 && (s.mark.column : Int) < indent then return (f, e)
    plainLines indent start fuel f e

/-- Scans a plain scalar. After one that ended with a line break a simple key may
start again. -/
def scanPlain : Scan Unit := do
  let s ← get
  let start := s.mark
  let (f, stop) ← plainLines (s.indent + 1) start s.budget {} start
  appendToken ⟨.scalar (String.ofList f.text.toList) .plain, start, stop⟩
  if f.leadingBlanks then modify fun s => { s with keyAllowed := true }

/-! Quoted scalars. -/

def escapedChar : Char → Option Char
  | '0' => some (Char.ofNat 0)
  | 'a' => some (Char.ofNat 7)
  | 'b' => some (Char.ofNat 8)
  | 't' => some (Char.ofNat 9)
  | '\t' => some (Char.ofNat 9)
  | 'n' => some (Char.ofNat 10)
  | 'v' => some (Char.ofNat 11)
  | 'f' => some (Char.ofNat 12)
  | 'r' => some (Char.ofNat 13)
  | 'e' => some (Char.ofNat 27)
  | ' ' => some ' '
  | '"' => some '"'
  | '\'' => some '\''
  | '/' => some '/'
  | '\\' => some '\\'
  | 'N' => some (Char.ofNat 0x85)
  | '_' => some (Char.ofNat 0xA0)
  | 'L' => some (Char.ofNat 0x2028)
  | 'P' => some (Char.ofNat 0x2029)
  | _ => none

def codeWidth : Char → Nat
  | 'x' => 2
  | 'u' => 4
  | 'U' => 8
  | _ => 0

/-- One run of non-blank characters of a quoted scalar, added to `acc`; whether it
ended with an escaped line break. -/
def quotedRun (single : Bool) (start : Mark) : Nat → Array Char → Scan (Array Char × Bool)
  | 0, acc => pure (acc, false)
  | fuel + 1, acc => do
    let c ← charAt 0
    let next ← charAt 1
    if isBlankOrEnd c then return (acc, false)
    if single && c == '\'' && next == '\'' then
      skipN 2
      quotedRun single start fuel (acc.push '\'')
    else if single && c == '\'' then return (acc, false)
    else if !single && c == '"' then return (acc, false)
    else if !single && c == '\\' && isBreak next then
      skip
      skipLine
      return (acc, true)
    else if !single && c == '\\' then
      let width := codeWidth next
      if width == 0 then
        match escapedChar next with
        | some e =>
          skipN 2
          quotedRun single start fuel (acc.push e)
        | none => scanProblem "found unknown escape character" start
      else
        skipN 2
        let s ← get
        let digits := (List.range width).map s.charAt
        if !digits.all isHexChar then
          scanProblem "did not find expected hexdecimal number" start
        let code := digits.foldl (fun n d => n * 16 + hexValue d) 0
        if (0xD800 ≤ code && code ≤ 0xDFFF) || code > 0x10FFFF then
          scanProblem "found invalid Unicode character escape code" start
        skipN width
        quotedRun single start fuel (acc.push (Char.ofNat code))
    else
      skip
      quotedRun single start fuel (acc.push c)

def quotedBlanks : Nat → Folding → Scan Folding
  | 0, f => pure f
  | fuel + 1, f => do
    let c ← charAt 0
    if isBlank c then
      skip
      quotedBlanks fuel (f.blank c)
    else if isBreak c then
      let b ← readBreak
      quotedBlanks fuel (f.lineBreak b)
    else return f

/-- The runs of a quoted scalar up to its closing quote. A document marker or the end
of the text inside the quotes is a problem. -/
def quotedLines (single : Bool) (start : Mark) : Nat → Folding → Scan Folding
  | 0, f => pure f
  | fuel + 1, f => do
    if ← atDocumentMarker then scanProblem "found unexpected document indicator" start
    if (← charAt 0) == endChar then scanProblem "found unexpected end of stream" start
    let (text, escapedBreak) ← quotedRun single start (← budget) f.text
    let f := { f with text, leadingBlanks := escapedBreak }
    let c ← charAt 0
    if (single && c == '\'') || (!single && c == '"') then return f
    let f ← quotedBlanks (← budget) f
    quotedLines single start fuel f.join

def scanQuoted (single : Bool) : Scan Unit := do
  let start ← currentMark
  skip
  let f ← quotedLines single start (← budget) {}
  skip
  let style := if single then Style.singleQuoted else Style.doubleQuoted
  appendToken ⟨.scalar (String.ofList f.text.toList) style, start, ← currentMark⟩

/-! Block scalars. -/

def skipIndentation (indent : Nat) : Nat → Scan Unit
  | 0 => pure ()
  | fuel + 1 => do
    let s ← get
    if (indent == 0 || s.mark.column < indent) && s.charAt 0 == ' ' then
      skip
      skipIndentation indent fuel

/-- The indentation and empty lines before a line of a block scalar, with the breaks
read and the mark after the last of them. An unknown indentation (zero) becomes the
deepest of these lines, at least one past the enclosing block and at least one. -/
def blockBreaks (start : Mark) (indent : Nat) :
    Nat → Nat → List Char → Mark → Scan (Nat × List Char × Mark)
  | 0, _, breaks, e => pure (indent, breaks, e)
  | fuel + 1, deepest, breaks, e => do
    skipIndentation indent (← budget)
    let s ← get
    let deepest := max deepest s.mark.column
    if (indent == 0 || s.mark.column < indent) && s.charAt 0 == '\t' then
      scanProblem "found a tab character where an indentation space is expected" start
    if isBreak (s.charAt 0) then
      let b ← readBreak
      blockBreaks start indent fuel deepest (breaks ++ b) (← currentMark)
    else
      let indent := if indent == 0 then max (max deepest (s.indent + 1).toNat) 1 else indent
      return (indent, breaks, e)

/-- What the lines of a block scalar have made so far: its text, the break after the
last line, the empty lines since, and whether the last line started with a blank. -/
structure BlockText where
  text : Array Char
  leadingBreak : List Char
  trailingBreaks : List Char
  leadingBlank : Bool
  stop : Mark

/-- The lines of a block scalar at its indentation. Folding joins two lines by a
space when neither starts with a blank and no empty line stands between them. -/
def blockLines (literal : Bool) (start : Mark) (indent : Nat) : Nat → BlockText → Scan BlockText
  | 0, b => pure b
  | fuel + 1, b => do
    let s ← get
    if s.mark.column != indent || s.charAt 0 == endChar then return b
    let trailingBlank := isBlank (s.charAt 0)
    let text :=
      if !literal && !b.leadingBlank && !trailingBlank && b.leadingBreak.head? == some '\n' then
        if b.trailingBreaks.isEmpty then b.text.push ' ' else b.text
      else b.text ++ b.leadingBreak.toArray
    let text := text ++ b.trailingBreaks.toArray
    let line ← readWhile (fun c => !isBreakOrEnd c) s.budget
    let leadingBreak ← readBreak
    let (_, trailing, stop) ← blockBreaks start indent (← budget) 0 [] (← currentMark)
    blockLines literal start indent fuel
      ⟨text ++ line.toArray, leadingBreak, trailing, isBlank (s.charAt 0), stop⟩

def blockIndicators (start : Mark) : Scan (Int × Nat) := do
  let c ← charAt 0
  let digit := fun (d : Char) => d.toNat - '0'.toNat
  if c == '+' || c == '-' then
    skip
    let d ← charAt 0
    let chomping : Int := if c == '+' then 1 else -1
    if d.isDigit then
      if d == '0' then scanProblem "found an indentation indicator equal to 0" start
      skip
      return (chomping, digit d)
    else return (chomping, 0)
  else if c.isDigit then
    if c == '0' then scanProblem "found an indentation indicator equal to 0" start
    skip
    let d ← charAt 0
    if d == '+' || d == '-' then
      skip
      return (if d == '+' then 1 else -1, digit c)
    else return (0, digit c)
  else return (0, 0)

def scanBlock (literal : Bool) : Scan Unit := do
  let start ← currentMark
  skip
  let (chomping, increment) ← blockIndicators start
  skipWhile isBlank (← budget)
  if (← charAt 0) == '#' then skipWhile (fun c => !isBreakOrEnd c) (← budget)
  if !isBreakOrEnd (← charAt 0) then
    scanProblem "did not find expected comment or line break" start
  if isBreak (← charAt 0) then skipLine
  let s ← get
  let given : Nat :=
    if increment > 0 then (if s.indent ≥ 0 then s.indent.toNat + increment else increment) else 0
  let (indent, trailing, stop) ← blockBreaks start given (← budget) 0 [] s.mark
  let b ← blockLines literal start indent (← budget) ⟨#[], [], trailing, false, stop⟩
  let text := if chomping != -1 then b.text ++ b.leadingBreak.toArray else b.text
  let text := if chomping == 1 then text ++ b.trailingBreaks.toArray else text
  let style := if literal then Style.literal else Style.folded
  appendToken ⟨.scalar (String.ofList text.toList) style, start, b.stop⟩

/-! Anchors, aliases and tags. -/

/-- Scans an anchor `&name` or an alias `*name`. The name must be followed by a blank
or one of the indicators that may end it. -/
def scanAnchor (isAlias : Bool) : Scan Unit := do
  let start ← currentMark
  skip
  let name ← readWhile isWordChar (← budget)
  let stop ← currentMark
  let c ← charAt 0
  if name.isEmpty || !(isBlankOrEnd c || c == '?' || c == ':' || c == ',' || c == ']' ||
      c == '}' || c == '%' || c == '@' || c == '\x60') then
    scanProblem "did not find expected alphabetic or numeric character" start
  let name := String.ofList name
  appendToken ⟨if isAlias then .alias name else .anchor name, start, stop⟩

/-- A tag handle: `!`, `!!`, or `!word!`. Outside a directive a `!` and a word with no
closing `!` is given back as it is, being the start of a tag's suffix. -/
def scanTagHandle (directive : Bool) (start : Mark) : Scan (List Char) := do
  if (← charAt 0) != '!' then scanProblem "did not find expected '!'" start
  skip
  let word ← readWhile isWordChar (← budget)
  if (← charAt 0) == '!' then
    skip
    return '!' :: word ++ ['!']
  if directive && !word.isEmpty then scanProblem "did not find expected '!'" start
  return '!' :: word

def isUriChar (verbatim : Bool) (c : Char) : Bool :=
  isWordChar c || ";/?:@&=+$.%!~*'()".contains c || (verbatim && (c == ',' || c == '[' || c == ']'))

/-- The number of bytes of a UTF-8 sequence that starts with `b`; zero when `b` cannot
start one. -/
def utf8Width (b : Nat) : Nat :=
  if b < 0x80 then 1
  else if b / 0x20 == 0x6 then 2
  else if b / 0x10 == 0xE then 3
  else if b / 0x8 == 0x1E then 4
  else 0

def uriOctets (start : Mark) : Nat → Nat → List UInt8 → Scan (List UInt8)
  | 0, _, acc => pure acc
  | fuel + 1, left, acc => do
    let s ← get
    let (c0, c1, c2) := (s.charAt 0, s.charAt 1, s.charAt 2)
    if !(c0 == '%' && isHexChar c1 && isHexChar c2) then
      scanProblem "did not find URI escaped octet" start
    let octet := hexValue c1 * 16 + hexValue c2
    let left ←
      if acc.isEmpty then
        let w := utf8Width octet
        if w == 0 then scanProblem "found an incorrect leading UTF-8 octet" start
        pure w
      else
        if octet / 0x40 != 0x2 then scanProblem "found an incorrect trailing UTF-8 octet" start
        pure left
    skipN 3
    let acc := acc ++ [octet.toUInt8]
    if left ≤ 1 then return acc else uriOctets start fuel (left - 1) acc

/-- The characters a UTF-8 sequence of octets spells; each octet that spells none
stands as a replacement character. -/
def octetChars (bytes : List UInt8) : List Char :=
  match String.fromUTF8? (ByteArray.mk bytes.toArray) with
  | some s => s.toList
  | none => bytes.map fun _ => Char.ofNat 0xFFFD

def tagUri (verbatim : Bool) (start : Mark) : Nat → List Char → Scan (List Char)
  | 0, acc => pure acc
  | fuel + 1, acc => do
    let c ← charAt 0
    if !isUriChar verbatim c then return acc
    if c == '%' then
      let octets ← uriOctets start 4 0 []
      tagUri verbatim start fuel (acc ++ octetChars octets)
    else
      skip
      tagUri verbatim start fuel (acc ++ [c])

def scanTagUri (verbatim : Bool) (head : List Char) (start : Mark) : Scan (List Char) := do
  let uri ← tagUri verbatim start (← budget) (head.drop 1)
  if head.isEmpty && uri.isEmpty then scanProblem "did not find expected tag URI" start
  return uri

/-- Scans a tag: verbatim `!<uri>`, a handle and a suffix, or `!suffix`; a lone `!`
is the non-specific tag. It must be followed by a blank, or a comma in a flow
collection. -/
def scanTag : Scan Unit := do
  let start ← currentMark
  let (handle, suffix) ←
    if (← charAt 1) == '<' then do
      skipN 2
      let suffix ← scanTagUri true [] start
      if (← charAt 0) != '>' then scanProblem "did not find the expected '>'" start
      skip
      pure ([], suffix)
    else do
      let handle ← scanTagHandle false start
      if handle.length > 1 && handle.getLast? == some '!' then
        pure (handle, ← scanTagUri false [] start)
      else
        let suffix ← scanTagUri false handle start
        if suffix.isEmpty then pure ([], ['!']) else pure (['!'], suffix)
  let s ← get
  let c := s.charAt 0
  if !isBlankOrEnd c && (s.flowLevel == 0 || c != ',') then
    scanProblem "did not find expected whitespace or line break" start
  appendToken ⟨.tag (String.ofList handle) (String.ofList suffix), start, s.mark⟩

/-! Directives. -/

def versionNumber (start : Mark) : Nat → Nat → Nat → Scan Nat
  | 0, _, v => pure v
  | fuel + 1, length, v => do
    let c ← charAt 0
    if c.isDigit then
      if length + 1 > 2 then scanProblem "found extremely long version number" start
      skip
      versionNumber start fuel (length + 1) (v * 10 + (c.toNat - '0'.toNat))
    else if length == 0 then scanProblem "did not find expected version number" start
    else return v

def versionValue (start : Mark) : Scan TokenKind := do
  skipWhile isBlank (← budget)
  let major ← versionNumber start 3 0 0
  if (← charAt 0) != '.' then scanProblem "did not find expected digit or '.' character" start
  skip
  let minor ← versionNumber start 3 0 0
  return .versionDirective major minor

def tagDirectiveValue (start : Mark) : Scan TokenKind := do
  skipWhile isBlank (← budget)
  let handle ← scanTagHandle true start
  if !isBlank (← charAt 0) then scanProblem "did not find expected whitespace" start
  skipWhile isBlank (← budget)
  let pre ← scanTagUri true [] start
  if !isBlankOrEnd (← charAt 0) then
    scanProblem "did not find expected whitespace or line break" start
  return .tagDirective (String.ofList handle) (String.ofList pre)

/-- Scans a directive line: `%YAML` or `%TAG` with its value, then blanks and a
comment to the end of the line. -/
def scanDirective : Scan Unit := do
  let start ← currentMark
  skip
  let name ← readWhile isWordChar (← budget)
  if name.isEmpty then scanProblem "could not find expected directive name" start
  if !isBlankOrEnd (← charAt 0) then
    scanProblem "found unexpected non-alphabetical character" start
  let kind ← match String.ofList name with
    | "YAML" => versionValue start
    | "TAG" => tagDirectiveValue start
    | _ => scanProblem "found unknown directive name" start
  let stop ← currentMark
  skipWhile isBlank (← budget)
  if (← charAt 0) == '#' then skipWhile (fun c => !isBreakOrEnd c) (← budget)
  if !isBreakOrEnd (← charAt 0) then
    scanProblem "did not find expected comment or line break" start
  if isBreak (← charAt 0) then skipLine
  appendToken ⟨kind, start, stop⟩

end ClassScript.Yaml
