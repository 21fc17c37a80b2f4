import ClassScript.Config.Toml.Grammar
import ClassScript.Numeral

/-! The tree of tables a TOML text describes, built by replaying the trail of its match. A
pair is placed on the line where its value ends and a table on the line of its header;
defining a table or a key twice is an error told with the line of the first. -/
namespace ClassScript.Toml

/-- A value, as decoding needs it. Numbers keep their text, underscores dropped. -/
inductive Value where
  | string (s : String)
  | integer (digits : String)
  | float (text : String)
  | boolean
  | datetime (text : String)
  | array
  deriving DecidableEq, Repr

/-- What a key of a table holds: a pair with the line it ends on, a table with its line
and whether its header defined it, or an array of tables, each a table. -/
inductive Node where
  | pair (line : Nat) (value : Value)
  | table (line : Nat) (defined : Bool) (fields : List (String × Node))
  | tables (items : List Node)
  deriving Repr

/-- A step from a table to a table under it: the table of a key, or one of the array
of tables of a key. -/
structure Step where
  key : String
  index : Option Nat
  deriving DecidableEq, Repr

def lookupField (k : String) : List (String × Node) → Option Node
  | [] => none
  | (k', n) :: rest => if k' == k then some n else lookupField k rest

/-- Sets what a key holds, in its place if it is there, else last. -/
def setField (k : String) (n : Node) (fields : List (String × Node)) : List (String × Node) :=
  if fields.any (·.1 == k) then fields.map fun e => if e.1 == k then (k, n) else e
  else fields ++ [(k, n)]

namespace Node

/-- The line a node is told by: a pair's, a table's, or the first table's of an array. -/
def line : Node → Nat
  | .pair l _ => l
  | .table l _ _ => l
  | .tables (.table l _ _ :: _) => l
  | .tables _ => 0

def fieldsAt : Node → List Step → Option (List (String × Node))
  | .table _ _ fields, [] => some fields
  | _, [] => none
  | .table _ _ fields, step :: rest =>
    match lookupField step.key fields, step.index with
    | some n, none => n.fieldsAt rest
    | some (.tables items), some i => items[i]?.bind (·.fieldsAt rest)
    | _, _ => none
  | _, _ :: _ => none

def modifyAt (f : Node → Node) : Node → List Step → Node
  | n, [] => f n
  | .table l d fields, step :: rest =>
    .table l d (fields.map fun entry =>
      if entry.1 == step.key then
        match step.index, entry.2 with
        | none, n => (entry.1, modifyAt f n rest)
        | some i, .tables items =>
          (entry.1, .tables (items.mapIdx fun j t => if j = i then modifyAt f t rest else t))
        | some _, n => (entry.1, n)
      else entry)
  | n, _ :: _ => n

def withField (k : String) (v : Node) : Node → Node
  | .table l d fields => .table l d (setField k v fields)
  | n => n

def defineTable : Node → Node
  | .table l _ fields => .table l true fields
  | n => n

end Node

/-- A problem told with the line it is on and, when it is about a field being set, the
field's name. -/
structure LineError where
  line : Nat
  field : String
  problem : String
  deriving DecidableEq, Repr

def LineError.message (e : LineError) : String :=
  "line " ++ toString e.line ++ ": " ++ (if e.field.isEmpty then "" else "(" ++ e.field ++ ") ") ++
    e.problem

def invalidSyntax : String := "invalid TOML syntax"

/-- The character of an escape of hexadecimal digits, if it names one. -/
def escapedChar (digits : List Char) : Option Char :=
  let v := digits.foldl (fun n c => n * 16 + ((Numeral.hexValue c).getD 0)) 0
  if v < 0xD800 || (0xDFFF < v && v ≤ 0x10FFFF) then some (Char.ofNat v) else none

/-- The text of the inside of a double-quoted text with its escapes, if they are all
valid: the escapes of one character, and of four or eight hexadecimal digits naming a
character. -/
def unescape : List Char → Option (List Char)
  | [] => some []
  | '\\' :: 'u' :: a :: b :: c :: d :: rest =>
    (escapedChar [a, b, c, d]).bind fun x => (unescape rest).map (x :: ·)
  | '\\' :: 'U' :: a :: b :: c :: d :: e :: f :: g :: h :: rest =>
    (escapedChar [a, b, c, d, e, f, g, h]).bind fun x => (unescape rest).map (x :: ·)
  | '\\' :: c :: rest =>
    let simple := match c with
      | 'a' => some (Char.ofNat 7)
      | 'b' => some (Char.ofNat 8)
      | 'f' => some (Char.ofNat 12)
      | 'n' => some '\n'
      | 'r' => some '\r'
      | 't' => some '\t'
      | 'v' => some (Char.ofNat 11)
      | '\\' => some '\\'
      | '"' => some '"'
      | _ => none
    simple.bind fun x => (unescape rest).map (x :: ·)
  | '\n' :: _ => none
  | '"' :: _ => none
  | c :: rest => (unescape rest).map (c :: ·)

/-- Drops the carriage returns and line feeds a text starts with. -/
def trimBreaks (s : List Char) : List Char := s.dropWhile fun c => c == '\r' || c == '\n'

/-- Writes the carriage returns and line feeds of a text as escapes. -/
def escapeBreaks (s : List Char) : List Char :=
  s.flatMap fun c => if c == '\n' then ['\\', 'n'] else if c == '\r' then ['\\', 'r'] else [c]

structure Builder where
  line : Nat
  root : Node
  current : List Step
  key : String
  tableKeys : List String
  value : Option Value
  text : List Char
  openArrays : Nat
  inline : List (String × List Step)
  skip : Bool
  span : Nat × Nat

abbrev Build := EStateM LineError Builder

def fail {α : Type} (problem : String) : Build α := do
  throw ⟨(← get).line, "", problem⟩

def fieldsAt (path : List Step) : Build (List (String × Node)) := do
  return ((← get).root.fieldsAt path).getD []

def putField (path : List Step) (k : String) (n : Node) : Build Unit :=
  modify fun b => { b with root := b.root.modifyAt (Node.withField k n) path }

/-- Text in backquote and quote, as the messages set names. -/
def quoted (s : String) : String := "\x60" ++ s ++ "'"

/-- The table the keys lead to from a path, making the missing ones; the path to it. -/
def lookupTable (path : List Step) : List String → Build (List Step)
  | [] => pure path
  | k :: ks => do
    match lookupField k (← fieldsAt path) with
    | none =>
      putField path k (.table (← get).line false [])
      lookupTable (path ++ [⟨k, none⟩]) ks
    | some (.table ..) => lookupTable (path ++ [⟨k, none⟩]) ks
    | some (.tables items) => lookupTable (path ++ [⟨k, some (items.length - 1)⟩]) ks
    | some (.pair l _) => fail ("key " ++ quoted k ++ " is in conflict with line " ++ toString l)

/-- Makes the table the names lead to from a path, and goes to it. A table only made
on the way before is replaced, its fields kept. -/
def setTable (path : List Step) (name : String) (names : List String) : Build Unit := do
  let parent ← lookupTable path names.dropLast
  let last := names.getLastD ""
  let line := (← get).line
  match lookupField last (← fieldsAt parent) with
  | none => putField parent last (.table line false [])
  | some (.tables items) =>
    fail ("table " ++ quoted name ++ " is in conflict with array table in line " ++
      toString (Node.tables items).line)
  | some (.table l defined fields) =>
    if defined then fail ("table " ++ quoted name ++ " is in conflict with table in line " ++ toString l)
    else putField parent last (.table line false fields)
  | some (.pair l _) => fail ("table " ++ quoted name ++ " is in conflict with line " ++ toString l)
  modify fun b => { b with current := parent ++ [⟨last, none⟩] }

/-- Adds a table to the array of tables the names lead to from a path, and goes to it. -/
def setArrayTable (path : List Step) (name : String) (names : List String) : Build Unit := do
  let parent ← lookupTable path names.dropLast
  let last := names.getLastD ""
  let fresh := Node.table (← get).line false []
  match lookupField last (← fieldsAt parent) with
  | none =>
    putField parent last (.tables [fresh])
    modify fun b => { b with current := parent ++ [⟨last, some 0⟩] }
  | some (.tables items) =>
    putField parent last (.tables (items ++ [fresh]))
    modify fun b => { b with current := parent ++ [⟨last, some items.length⟩] }
  | some (.table l _ _) =>
    fail ("array table " ++ quoted name ++ " is in conflict with table in line " ++ toString l)
  | some (.pair l _) => fail ("array table " ++ quoted name ++ " is in conflict with line " ++ toString l)

/-- Adds the pair of the key and value last read to the current table, unless it holds
an inline table, which is in place already. -/
def addPair : Build Unit := do
  let b ← get
  if b.skip then set { b with skip := false }
  else
    match lookupField b.key (← fieldsAt b.current) with
    | some (.table l _ _) =>
      fail ("key " ++ quoted b.key ++ " is in conflict with table in line " ++ toString l)
    | some (.pair l _) =>
      fail ("key " ++ quoted b.key ++ " is in conflict with line " ++
        String.ofList (Nat.toDigits 16 l) ++ "d")
    | some (.tables _) =>
      fail ("BUG: key " ++ quoted b.key ++ " is in conflict but it's unknown type " ++
        quoted "[]*ast.Table")
    | none => putField b.current b.key (.pair b.line (b.value.getD .boolean))

def unquote (s : List Char) : Build (List Char) :=
  match unescape s with
  | some t => pure t
  | none => fail "invalid syntax"

/-- Replays one action, with the span last captured. -/
def perform (source : Array Char) (a : Action) : Build Unit := do
  let b ← get
  let spanText := (source.extract b.span.1 b.span.2).toList
  let plain := spanText.filter (· != '_')
  match a with
  | .defineTable => set { b with root := b.root.modifyAt Node.defineTable b.current }
  | .countLines => set { b with line := b.line + (b.span.2 - b.span.1) }
  | .setKey =>
    match spanText with
    | '"' :: _ =>
      let k ← unquote ((spanText.drop 1).dropLast)
      modify fun b => { b with key := String.ofList k }
    | _ => set { b with key := String.ofList spanText }
  | .setDatetime => set { b with value := some (.datetime (String.ofList spanText)) }
  | .setFloat => set { b with value := some (.float (String.ofList plain)) }
  | .setInteger => set { b with value := some (.integer (String.ofList plain)) }
  | .setString => set { b with value := some (.string (String.ofList b.text)), text := [] }
  | .setBoolean => set { b with value := some .boolean }
  | .endArray => set { b with value := some .array, openArrays := b.openArrays - 1 }
  | .setTable =>
    setTable [] (String.ofList spanText) b.tableKeys
    modify fun b => { b with tableKeys := [] }
  | .setArrayTable =>
    setArrayTable [] (String.ofList spanText) b.tableKeys
    modify fun b => { b with tableKeys := [] }
  | .startInlineTable =>
    set { b with skip := false, inline := (b.key, b.current) :: b.inline }
    if b.openArrays = 0 then setTable b.current b.key [b.key]
    else setArrayTable b.current b.key [b.key]
  | .endInlineTable =>
    match b.inline with
    | (k, path) :: rest => set { b with key := k, current := path, inline := rest, skip := true }
    | [] => set { b with skip := true }
  | .addTableKey => set { b with tableKeys := b.tableKeys ++ [b.key] }
  | .setBasicString =>
    let t ← unquote ((spanText.drop 1).dropLast)
    modify fun b => { b with text := t }
  | .setMultilineBasic =>
    let t ← unquote (escapeBreaks (trimBreaks b.text))
    modify fun b => { b with text := t }
  | .addMultilineBody => set { b with text := b.text ++ spanText }
  | .setLiteralString => set { b with text := spanText }
  | .setMultilineLiteral => set { b with text := trimBreaks spanText }
  | .startArray => set { b with openArrays := b.openArrays + 1 }
  | .addArrayValue => pure ()
  | .addPair => addPair

def replay (source : Array Char) : List Mark → Build Unit
  | [] => pure ()
  | .span s e :: rest => do
    modify fun b => { b with span := (s, e) }
    replay source rest
  | .action a :: rest => do
    perform source a
    replay source rest

/-- The top table a TOML text describes, or why it describes none. -/
def Document.read (text : String) : Except LineError Node :=
  let source := text.toList.toArray
  match matchText source with
  | .error line => .error ⟨line, "", invalidSyntax⟩
  | .ok trail =>
    let start : Builder := ⟨1, .table 1 false [], [], "", [], none, [], 0, [], false, (0, 0)⟩
    match replay source trail start with
    | .ok _ b => .ok b.root
    | .error e _ => .error e

end ClassScript.Toml
