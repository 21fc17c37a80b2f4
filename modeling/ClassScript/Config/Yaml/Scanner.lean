import ClassScript.Config.Yaml.Token

/-! The state of cutting YAML text into tokens, and its small steps. Blocks are a stack of
indentation columns and flow collections count their depth. A simple key, written without
`?`, is remembered for each flow depth until the `:` after it puts a key token before it. -/
namespace ClassScript.Yaml

/-- A place where a key without a `?` may start. -/
structure SimpleKey where
  possible : Bool
  required : Bool
  number : Nat
  mark : Mark
  deriving Repr, Inhabited

structure Scanner where
  text : Array Char
  mark : Mark
  queue : List Token
  taken : Nat
  /-- Whether the head of the queue may be taken without scanning further. -/
  ready : Bool
  started : Bool
  flowLevel : Nat
  indent : Int
  indents : List Int
  keyAllowed : Bool
  /-- The simple key of each flow depth, the innermost first. -/
  keys : List SimpleKey
  deriving Inhabited

/-- Scanning: a step on the scanner's state that may stop with a problem. -/
abbrev Scan := EStateM Problem Scanner

/-- The deepest nesting of blocks or of flow collections. -/
def maxDepth : Nat := 10000

namespace Scanner

/-- A scanner at the start of a text; a leading byte order mark is not part of it. -/
def start (text : String) : Scanner :=
  let cs := text.toList
  let cs := if cs.head? == some '\uFEFF' then cs.drop 1 else cs
  { text := cs.toArray, mark := ⟨0, 0, 0⟩, queue := [], taken := 0, ready := false,
    started := false, flowLevel := 0, indent := -1, indents := [], keyAllowed := false,
    keys := [] }

/-- The character `k` places after the mark; the end of the text reads as zero. -/
def charAt (s : Scanner) (k : Nat) : Char := s.text.getD (s.mark.index + k) endChar

def produced (s : Scanner) : Nat := s.taken + s.queue.length

/-- A bound on the steps left: each step of a loop reads at least one character. -/
def budget (s : Scanner) : Nat := s.text.size - s.mark.index + 2

def topKey (s : Scanner) : SimpleKey := s.keys.headD default

end Scanner

def charAt (k : Nat) : Scan Char := do return (← get).charAt k

def currentMark : Scan Mark := do return (← get).mark

def scanProblem {α : Type} (text : String) (context : Mark) : Scan α := do
  throw ⟨.scanning, text, context, (← get).mark⟩

def skip : Scan Unit := modify fun s =>
  { s with mark := { s.mark with index := s.mark.index + 1, column := s.mark.column + 1 } }

def readChar : Scan Char := do
  let c ← charAt 0
  skip
  return c

/-- Moves past a line break, CR LF counting as one; nothing at another character. -/
def skipLine : Scan Unit := modify fun s =>
  let c := s.charAt 0
  if c == '\r' && s.charAt 1 == '\n' then { s with mark := ⟨s.mark.index + 2, s.mark.line + 1, 0⟩ }
  else if isBreak c then { s with mark := ⟨s.mark.index + 1, s.mark.line + 1, 0⟩ }
  else s

/-- Moves past a line break and gives it as a scalar keeps it: CR LF, CR, LF and NEL
as a line feed, the line and paragraph separators as themselves. -/
def readBreak : Scan (List Char) := do
  let c ← charAt 0
  skipLine
  if c == '\r' || c == '\n' || c == '\x85' then return ['\n']
  else if c == '\u2028' || c == '\u2029' then return [c]
  else return []

def skipWhile (p : Char → Bool) : Nat → Scan Unit
  | 0 => pure ()
  | fuel + 1 => do
    if p (← charAt 0) then
      skip
      skipWhile p fuel

def readWhile (p : Char → Bool) : Nat → Scan (List Char)
  | 0 => pure []
  | fuel + 1 => do
    let c ← charAt 0
    if p c then
      skip
      return c :: (← readWhile p fuel)
    else return []

def budget : Scan Nat := do return (← get).budget

def appendToken (t : Token) : Scan Unit := modify fun s => { s with queue := s.queue ++ [t] }

/-- Puts a token into the queue before the one `k` places from its head. -/
def insertToken (k : Nat) (t : Token) : Scan Unit :=
  modify fun s => { s with queue := s.queue.take k ++ t :: s.queue.drop k }

def setTopKey (k : SimpleKey) : Scan Unit := modify fun s =>
  { s with keys := match s.keys with
    | [] => [k]
    | _ :: rest => k :: rest }

/-- Gives up the simple key of the innermost depth; a required one is a problem. -/
def removeSimpleKey : Scan Unit := do
  let k := (← get).topKey
  if k.possible then
    if k.required then scanProblem "could not find expected ':'" k.mark
    setTopKey { k with possible := false }

/-- Remembers that a simple key may start at the mark, if one may. It is required in
a block when the mark is at the column of the block. -/
def saveSimpleKey : Scan Unit := do
  let s ← get
  if s.keyAllowed then
    let required := s.flowLevel == 0 && s.indent == (s.mark.column : Int)
    let k : SimpleKey := ⟨true, required, s.produced, s.mark⟩
    removeSimpleKey
    setTopKey k

/-- Whether the simple key at position `i` of the stack may still be a key. One on an
earlier line or too far back is given up, and is a problem when it was required. -/
def keyStillPossible (i : Nat) : Scan Bool := do
  let s ← get
  match s.keys[i]? with
  | none => return false
  | some k =>
    if !k.possible then return false
    if k.mark.line < s.mark.line || k.mark.index + 1024 < s.mark.index then
      if k.required then scanProblem "could not find expected ':'" k.mark
      modify fun s => { s with keys := s.keys.set i { k with possible := false } }
      return false
    return true

def enterFlow : Scan Unit := do
  modify fun s => { s with keys := ⟨false, false, 0, s.mark⟩ :: s.keys, flowLevel := s.flowLevel + 1 }
  let s ← get
  if s.flowLevel > maxDepth then
    scanProblem ("exceeded max depth of " ++ toString maxDepth) s.topKey.mark

def leaveFlow : Scan Unit := modify fun s =>
  if s.flowLevel > 0 then { s with flowLevel := s.flowLevel - 1, keys := s.keys.drop 1 } else s

/-- Opens a block at `column` when it lies right of the current one: the block's start
token goes into the queue, before the token numbered `number` if one is given. -/
def rollIndent (column : Nat) (number : Option Nat) (kind : TokenKind) (mark : Mark) :
    Scan Unit := do
  let s ← get
  if s.flowLevel == 0 && s.indent < (column : Int) then
    set { s with indents := s.indent :: s.indents, indent := (column : Int) }
    if s.indents.length + 1 > maxDepth then
      scanProblem ("exceeded max depth of " ++ toString maxDepth) s.topKey.mark
    let t : Token := ⟨kind, mark, mark⟩
    match number with
    | some n => insertToken (n - s.taken) t
    | none => appendToken t

/-- The open block columns left of `column` and beyond: how many close, and the
column and stack that remain. -/
def closedBlocks (column : Int) : Int → List Int → Nat × Int × List Int
  | indent, [] => (0, indent, [])
  | indent, i :: rest =>
    if indent > column then
      let r := closedBlocks column i rest
      (r.1 + 1, r.2)
    else (0, indent, i :: rest)

/-- Closes every block whose column lies right of `column`, with a block end token
each, marked just before `scanMark`. -/
def unrollIndent (column : Int) (scanMark : Mark) : Scan Unit := modify fun s =>
  if s.flowLevel > 0 then s
  else
    let r := closedBlocks column s.indent s.indents
    let m : Mark := { scanMark with index := scanMark.index - 1 }
    { s with queue := s.queue ++ List.replicate r.1 ⟨.blockEnd, m, m⟩, indent := r.2.1, indents := r.2.2 }

end ClassScript.Yaml
