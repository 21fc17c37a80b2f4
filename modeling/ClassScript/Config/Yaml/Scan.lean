import ClassScript.Config.Yaml.Scalar

/-! Cutting YAML text into tokens, one at a time as the reader asks. The head of the queue
is given once the queue holds three tokens and no simple key could still put a key token
before it. -/
namespace ClassScript.Yaml

def fetchStreamStart : Scan Unit := modify fun s =>
  { s with indent := -1, keys := default :: s.keys, keyAllowed := true, started := true,
           queue := s.queue ++ [⟨.streamStart, s.mark, s.mark⟩] }

/-- The end of the text: it ends the last line, closes every block and gives up the
simple key. -/
def fetchStreamEnd : Scan Unit := do
  let s ← get
  if s.mark.column != 0 then
    set { s with mark := { s.mark with column := 0, line := s.mark.line + 1 } }
  let m ← currentMark
  unrollIndent (-1) m
  removeSimpleKey
  modify fun s => { s with keyAllowed := false }
  appendToken ⟨.streamEnd, m, m⟩

def fetchDirective : Scan Unit := do
  unrollIndent (-1) (← currentMark)
  removeSimpleKey
  modify fun s => { s with keyAllowed := false }
  scanDirective

def fetchDocumentIndicator (kind : TokenKind) : Scan Unit := do
  unrollIndent (-1) (← currentMark)
  removeSimpleKey
  modify fun s => { s with keyAllowed := false }
  let start ← currentMark
  skipN 3
  appendToken ⟨kind, start, ← currentMark⟩

def appendIndicator (kind : TokenKind) : Scan Unit := do
  let start ← currentMark
  skip
  appendToken ⟨kind, start, ← currentMark⟩

def fetchFlowStart (kind : TokenKind) : Scan Unit := do
  saveSimpleKey
  enterFlow
  modify fun s => { s with keyAllowed := true }
  appendIndicator kind

def fetchFlowEnd (kind : TokenKind) : Scan Unit := do
  removeSimpleKey
  leaveFlow
  modify fun s => { s with keyAllowed := false }
  appendIndicator kind

def fetchFlowEntry : Scan Unit := do
  removeSimpleKey
  modify fun s => { s with keyAllowed := true }
  appendIndicator .flowEntry

/-- A block entry `- `: in a block it may start a sequence, where a key could. -/
def fetchBlockEntry : Scan Unit := do
  let s ← get
  if s.flowLevel == 0 then
    if !s.keyAllowed then
      scanProblem "block sequence entries are not allowed in this context" s.mark
    rollIndent s.mark.column none .blockSequenceStart s.mark
  removeSimpleKey
  modify fun s => { s with keyAllowed := true }
  appendIndicator .blockEntry

/-- A key `? `: in a block it may start a mapping, where a key could. -/
def fetchKey : Scan Unit := do
  let s ← get
  if s.flowLevel == 0 then
    if !s.keyAllowed then
      scanProblem "mapping keys are not allowed in this context" s.mark
    rollIndent s.mark.column none .blockMappingStart s.mark
  removeSimpleKey
  modify fun s => { s with keyAllowed := s.flowLevel == 0 }
  appendIndicator .key

/-- A value `: `. After a simple key it puts the key token before the key's first
token, and in a block the start of a mapping before that; otherwise it follows a
complex key, and in a block it may only stand where a key could. -/
def fetchValue : Scan Unit := do
  if ← keyStillPossible 0 then
    let s ← get
    let k := s.topKey
    insertToken (k.number - s.taken) ⟨.key, k.mark, k.mark⟩
    rollIndent k.mark.column (some k.number) .blockMappingStart k.mark
    setTopKey { k with possible := false }
    modify fun s => { s with keyAllowed := false }
  else
    let s ← get
    if s.flowLevel == 0 then
      if !s.keyAllowed then
        scanProblem "mapping values are not allowed in this context" s.mark
      rollIndent s.mark.column none .blockMappingStart s.mark
    modify fun s => { s with keyAllowed := s.flowLevel == 0 }
  appendIndicator .value

def fetchAnchor (isAlias : Bool) : Scan Unit := do
  saveSimpleKey
  modify fun s => { s with keyAllowed := false }
  scanAnchor isAlias

def fetchTag : Scan Unit := do
  saveSimpleKey
  modify fun s => { s with keyAllowed := false }
  scanTag

def fetchBlock (literal : Bool) : Scan Unit := do
  removeSimpleKey
  modify fun s => { s with keyAllowed := true }
  scanBlock literal

def fetchQuoted (single : Bool) : Scan Unit := do
  saveSimpleKey
  modify fun s => { s with keyAllowed := false }
  scanQuoted single

def fetchPlain : Scan Unit := do
  saveSimpleKey
  modify fun s => { s with keyAllowed := false }
  scanPlain

/-- Moves to the next token past blanks, comments and line breaks. Tabs are skipped
in flow collections and where no simple key may start. -/
def scanToNextToken : Nat → Scan Unit
  | 0 => pure ()
  | fuel + 1 => do
    let s ← get
    if s.mark.column == 0 && s.charAt 0 == '\uFEFF' then skip
    let s ← get
    let tabs := s.flowLevel > 0 || !s.keyAllowed
    skipWhile (fun c => c == ' ' || (tabs && c == '\t')) s.budget
    if (← charAt 0) == '#' then skipWhile (fun c => !isBreakOrEnd c) (← budget)
    if isBreak (← charAt 0) then
      skipLine
      if (← get).flowLevel == 0 then modify fun s => { s with keyAllowed := true }
      scanToNextToken fuel

def isIndicator (c : Char) : Bool := "-?:,[]\x7b\x7d#&*!|>'\"%@".contains c || c == '\x60'

/-- Whether a plain scalar may start at the mark: any character but a blank or an
indicator; `-` before a character that is not a blank; and in a block `?` and `:`
before one that is not a blank or a line break. -/
def startsPlain (s : Scanner) : Bool :=
  let c := s.charAt 0
  !(isBlankOrEnd c || isIndicator c) || (c == '-' && !isBlank (s.charAt 1)) ||
    (s.flowLevel == 0 && (c == '?' || c == ':') && !isBlankOrEnd (s.charAt 1))

def fetchNext : Scan Unit := do
  if !(← get).started then fetchStreamStart
  else
    let scanMark ← currentMark
    scanToNextToken (← budget)
    unrollIndent ((← currentMark).column : Int) scanMark
    let s ← get
    let c := s.charAt 0
    let next := s.charAt 1
    let lineStart := s.mark.column == 0
    let flow := s.flowLevel > 0
    if c == endChar then fetchStreamEnd
    else if lineStart && c == '%' then fetchDirective
    else if ← atDocumentMarker then
      fetchDocumentIndicator (if c == '-' then .documentStart else .documentEnd)
    else if c == '[' then fetchFlowStart .flowSequenceStart
    else if c == '{' then fetchFlowStart .flowMappingStart
    else if c == ']' then fetchFlowEnd .flowSequenceEnd
    else if c == '}' then fetchFlowEnd .flowMappingEnd
    else if c == ',' then fetchFlowEntry
    else if c == '-' && isBlankOrEnd next then fetchBlockEntry
    else if c == '?' && (flow || isBlankOrEnd next) then fetchKey
    else if c == ':' && (flow || isBlankOrEnd next) then fetchValue
    else if c == '*' then fetchAnchor true
    else if c == '&' then fetchAnchor false
    else if c == '!' then fetchTag
    else if c == '|' && !flow then fetchBlock true
    else if c == '>' && !flow then fetchBlock false
    else if c == '\'' then fetchQuoted true
    else if c == '"' then fetchQuoted false
    else if startsPlain s then fetchPlain
    else scanProblem "found character that cannot start any token" s.mark

/-- Scans until the queue holds three tokens and no simple key waits at its head. -/
def fetchMore : Nat → Scan Unit
  | 0 => pure ()
  | fuel + 1 => do
    let s ← get
    if s.queue.length > 2 then
      match s.keys.findIdx? (fun k => k.possible && k.number == s.taken) with
      | none => return
      | some i => if !(← keyStillPossible i) then return
    fetchNext
    fetchMore fuel

def peekToken : Scan Token := do
  if !(← get).ready then
    fetchMore ((← get).budget + 8)
    modify fun s => { s with ready := true }
  return (← get).queue.headD default

def skipToken : Scan Unit := modify fun s =>
  { s with queue := s.queue.drop 1, taken := s.taken + 1, ready := false }

end ClassScript.Yaml
