import ClassScript.Config.Yaml.Scan
import ClassScript.Config.Yaml.Resolve

/-! Reading the first document of YAML text into nodes: directives and `---`, then an alias,
or a scalar or collection with an optional anchor and tag. Missing keys and values are
empty scalars; tags are expanded by the `%TAG` handles and the standard `!` and `!!`. -/
namespace ClassScript.Yaml

/-- The state of reading a document: the scanner, the tag handles, the anchors and
the nodes they name, and the number of aliases read. -/
structure Reader where
  scanner : Scanner
  directives : List (String × String)
  anchors : List (String × Nat)
  anchored : Array Node
  aliases : Nat

abbrev Read := EStateM Failure Reader

def scanning {α : Type} (m : Scan α) : Read α := fun r =>
  match m r.scanner with
  | .ok a s => .ok a { r with scanner := s }
  | .error e s => .error (.problem e) { r with scanner := s }

def peek : Read Token := scanning peekToken

def take : Read Unit := scanning skipToken

def zeroMark : Mark := ⟨0, 0, 0⟩

def parseProblem {α : Type} (text : String) (context found : Mark) : Read α :=
  throw (.problem ⟨.parsing, text, context, found⟩)

def outOfFuel {α : Type} : Read α := parseProblem "exceeded max depth" zeroMark zeroMark

def emptyAt (m : Mark) : Node := .scalar "!!null" "" .plain (m.line + 1)

/-- The tag of a scalar: its own tag when it has a specific one; else a quoted or
block scalar is a string, `<<` is the merge key, and a plain scalar's text tells. -/
def scalarTag (tag value : String) (style : Style) : String :=
  if tag != "" && tag != "!" then shortTag tag
  else if style != .plain then "!!str"
  else if value == "<<" then "!!merge"
  else plainTag value

def collectionTag (tag standard : String) : String :=
  if tag != "" && tag != "!" then shortTag tag else standard

def expandTag (handle suffix : String) (start tagMark : Mark) : Read String := do
  if handle.isEmpty then return suffix
  match (← get).directives.lookup handle with
  | some pre => return pre ++ suffix
  | none => parseProblem "found undefined tag handle" start tagMark

def reserve : Option String → Read (Option Nat)
  | none => pure none
  | some name => do
    let r ← get
    set { r with anchored := r.anchored.push default, anchors := (name, r.anchored.size) :: r.anchors }
    return some r.anchored.size

def fill (place : Option Nat) (n : Node) : Read Node := do
  if let some i := place then modify fun r => { r with anchored := r.anchored.set! i n }
  return n

/-- The anchor and the tag before a node, in either order, with the tag's handle,
suffix and mark, and the mark where they start. -/
def properties (t : Token) : Read (Option String × Option (String × String × Mark)) := do
  match t.kind with
  | .anchor name =>
    take
    let t2 ← peek
    match t2.kind with
    | .tag h s =>
      take
      return (some name, some (h, s, t2.start))
    | _ => return (some name, none)
  | .tag h s =>
    take
    let t2 ← peek
    match t2.kind with
    | .anchor name =>
      take
      return (some name, some (h, s, t.start))
    | _ => return (none, some (h, s, t.start))
  | _ => return (none, none)

def endsBlockItem (k : TokenKind) : Bool := k == .blockEntry || k == .blockEnd

def endsIndentlessItem (k : TokenKind) : Bool :=
  k == .blockEntry || k == .key || k == .value || k == .blockEnd

def endsBlockEntry (k : TokenKind) : Bool := k == .key || k == .value || k == .blockEnd

mutual

/-- Reads a node. `block` says whether block collections may stand here, and
`indentless` whether a block sequence may start at the current indentation. -/
def readNode (block indentless : Bool) (fuel : Nat) : Read Node :=
  match fuel with
  | 0 => outOfFuel
  | fuel + 1 => do
    let t ← peek
    if let .alias name := t.kind then
      take
      match (← get).anchors.lookup name with
      | none => throw (.unknownAnchor name)
      | some i =>
        let r ← get
        set { r with aliases := r.aliases + 1 }
        return .alias name r.aliases i (t.start.line + 1)
    let start := t.start
    let (anchor, written) ← properties t
    let tag ← match written with
      | none => pure ""
      | some (h, s, m) => expandTag h s start m
    let t ← peek
    let line := start.line + 1
    if indentless && t.kind == .blockEntry then
      let place ← reserve anchor
      let items ← indentlessItems fuel []
      return ← fill place (.sequence (collectionTag tag "!!seq") items line)
    match t.kind with
    | .scalar value style =>
      take
      let place ← reserve anchor
      fill place (.scalar (scalarTag tag value style) value style line)
    | .flowSequenceStart =>
      let place ← reserve anchor
      take
      let items ← flowSequenceItems t.start true fuel []
      fill place (.sequence (collectionTag tag "!!seq") items line)
    | .flowMappingStart =>
      let place ← reserve anchor
      take
      let entries ← flowMappingEntries t.start true fuel []
      fill place (.mapping (collectionTag tag "!!map") entries line)
    | .blockSequenceStart =>
      if block then
        let place ← reserve anchor
        take
        let items ← blockSequenceItems t.start fuel []
        fill place (.sequence (collectionTag tag "!!seq") items line)
      else propertiesOnly anchor tag start t
    | .blockMappingStart =>
      if block then
        let place ← reserve anchor
        take
        let entries ← blockMappingEntries t.start fuel []
        fill place (.mapping (collectionTag tag "!!map") entries line)
      else propertiesOnly anchor tag start t
    | _ => propertiesOnly anchor tag start t

/-- A node of properties alone is an empty scalar; with none, the token cannot start
a node. -/
def propertiesOnly (anchor : Option String) (tag : String) (start : Mark)
    (t : Token) : Read Node := do
  if anchor.isSome || tag != "" then
    let place ← reserve anchor
    fill place (.scalar (scalarTag tag "" .plain) "" .plain (start.line + 1))
  else parseProblem "did not find expected node content" start t.start

def blockSequenceItems (context : Mark) (fuel : Nat) (acc : List Node) : Read (List Node) :=
  match fuel with
  | 0 => outOfFuel
  | fuel + 1 => do
    let t ← peek
    match t.kind with
    | .blockEntry =>
      take
      let next ← peek
      let item ← if endsBlockItem next.kind then pure (emptyAt t.stop) else readNode true false fuel
      blockSequenceItems context fuel (item :: acc)
    | .blockEnd =>
      take
      return acc.reverse
    | _ => parseProblem "did not find expected '-' indicator" context t.start

def indentlessItems (fuel : Nat) (acc : List Node) : Read (List Node) :=
  match fuel with
  | 0 => outOfFuel
  | fuel + 1 => do
    let t ← peek
    match t.kind with
    | .blockEntry =>
      take
      let next ← peek
      let item ← if endsIndentlessItem next.kind then pure (emptyAt t.stop) else readNode true false fuel
      indentlessItems fuel (item :: acc)
    | _ => return acc.reverse

def blockMappingEntries (context : Mark) (fuel : Nat) (acc : List (Node × Node)) :
    Read (List (Node × Node)) :=
  match fuel with
  | 0 => outOfFuel
  | fuel + 1 => do
    let t ← peek
    match t.kind with
    | .key =>
      take
      let next ← peek
      let k ← if endsBlockEntry next.kind then pure (emptyAt t.stop) else readNode true true fuel
      let t ← peek
      let v ← match t.kind with
        | .value => do
          take
          let next ← peek
          if endsBlockEntry next.kind then pure (emptyAt t.stop) else readNode true true fuel
        | _ => pure (emptyAt t.start)
      blockMappingEntries context fuel ((k, v) :: acc)
    | .blockEnd =>
      take
      return acc.reverse
    | _ => parseProblem "did not find expected key" context t.start

def flowSequenceItems (context : Mark) (first : Bool) (fuel : Nat) (acc : List Node) :
    Read (List Node) :=
  match fuel with
  | 0 => outOfFuel
  | fuel + 1 => do
    let t ← peek
    if t.kind == .flowSequenceEnd then
      take
      return acc.reverse
    let t ← if first then pure t
      else if t.kind == .flowEntry then do
        take
        peek
      else parseProblem "did not find expected ',' or ']'" context t.start
    match t.kind with
    | .key =>
      take
      let pair ← flowPair t.start fuel
      flowSequenceItems context false fuel (pair :: acc)
    | .flowSequenceEnd =>
      take
      return acc.reverse
    | _ =>
      let item ← readNode false false fuel
      flowSequenceItems context false fuel (item :: acc)

/-- A single pair `key: value` in a flow sequence, after its key indicator. -/
def flowPair (start : Mark) (fuel : Nat) : Read Node :=
  match fuel with
  | 0 => outOfFuel
  | fuel + 1 => do
    let t ← peek
    let k ←
      if t.kind == .value || t.kind == .flowEntry || t.kind == .flowSequenceEnd then do
        take
        pure (emptyAt t.stop)
      else readNode false false fuel
    let t ← peek
    let v ←
      if t.kind == .value then do
        take
        let next ← peek
        if next.kind == .flowEntry || next.kind == .flowSequenceEnd then pure (emptyAt next.start)
        else readNode false false fuel
      else pure (emptyAt t.start)
    return .mapping "!!map" [(k, v)] (start.line + 1)

def flowMappingEntries (context : Mark) (first : Bool) (fuel : Nat) (acc : List (Node × Node)) :
    Read (List (Node × Node)) :=
  match fuel with
  | 0 => outOfFuel
  | fuel + 1 => do
    let t ← peek
    if t.kind == .flowMappingEnd then
      take
      return acc.reverse
    let t ← if first then pure t
      else if t.kind == .flowEntry then do
        take
        peek
      else parseProblem "did not find expected ',' or '\x7d'" context t.start
    match t.kind with
    | .key =>
      take
      let next ← peek
      let k ←
        if next.kind == .value || next.kind == .flowEntry || next.kind == .flowMappingEnd then
          pure (emptyAt next.start)
        else readNode false false fuel
      let v ← flowValue fuel
      flowMappingEntries context false fuel ((k, v) :: acc)
    | .flowMappingEnd =>
      take
      return acc.reverse
    | _ =>
      let k ← readNode false false fuel
      let next ← peek
      flowMappingEntries context false fuel ((k, emptyAt next.start) :: acc)

def flowValue (fuel : Nat) : Read Node :=
  match fuel with
  | 0 => outOfFuel
  | fuel + 1 => do
    let t ← peek
    if t.kind == .value then
      take
      let next ← peek
      if next.kind == .flowEntry || next.kind == .flowMappingEnd then return emptyAt next.start
      readNode false false fuel
    else return emptyAt t.start

end

/-- Reads the directives before a document, then adds the standard tag handles that
the directives did not define. -/
def readDirectives (seenVersion : Bool) : Nat → Read Unit
  | 0 => outOfFuel
  | fuel + 1 => do
    let t ← peek
    match t.kind with
    | .versionDirective major minor =>
      if seenVersion then parseProblem "found duplicate %YAML directive" zeroMark t.start
      if major != 1 || minor != 1 then parseProblem "found incompatible YAML document" zeroMark t.start
      take
      readDirectives true fuel
    | .tagDirective h p =>
      if (← get).directives.any (·.1 == h) then
        parseProblem "found duplicate %TAG directive" zeroMark t.start
      modify fun r => { r with directives := r.directives ++ [(h, p)] }
      take
      readDirectives seenVersion fuel
    | _ =>
      modify fun r =>
        let ds := r.directives
        let ds := if ds.any (·.1 == "!") then ds else ds ++ [("!", "!")]
        let ds := if ds.any (·.1 == "!!") then ds else ds ++ [("!!", yamlTagPrefix)]
        { r with directives := ds }

def startsDocument (k : TokenKind) : Bool :=
  match k with
  | .versionDirective .. | .tagDirective .. | .documentStart => true
  | _ => false

def readDocument (fuel : Nat) : Read (Option Document) := do
  let _ ← peek
  take
  let t ← peek
  if t.kind == .streamEnd then return none
  let root ←
    if startsDocument t.kind then do
      readDirectives false fuel
      let t ← peek
      if t.kind != .documentStart then
        parseProblem "did not find expected <document start>" zeroMark t.start
      take
      let t ← peek
      match t.kind with
      | .versionDirective .. | .tagDirective .. | .documentStart | .documentEnd | .streamEnd =>
        pure (emptyAt t.start)
      | _ => readNode true false fuel
    else do
      readDirectives false fuel
      readNode true false fuel
  let t ← peek
  if t.kind == .documentEnd then take
  return some ⟨root, (← get).anchored⟩

namespace Document

/-- The first document of a text, none when the text holds no document. Text with a
character YAML does not allow is refused as a whole. -/
def read? (text : String) : Except Failure (Option Document) :=
  if !text.all isAllowed then .error .controlCharacters
  else
    let r : Reader := ⟨Scanner.start text, [], [], #[], 0⟩
    match readDocument (4 * (text.length + 4)) r with
    | .ok d _ => .ok d
    | .error e _ => .error e

end Document

end ClassScript.Yaml
