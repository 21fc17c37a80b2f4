import ClassScript.Config.Settings
import ClassScript.Config.Yaml.Parse

/-! Settings written in YAML: the first document, a mapping whose keys name settings exactly,
decoded over the given settings. Unknown keys, repeated keys and values of the wrong kind
are reported together, each with its line; a tag that does not fit, a bad merge and an
alias inside its own anchor stop the decoding at once. -/
namespace ClassScript.Yaml

inductive Target where
  | text
  | integer
  | settings
  deriving DecidableEq, Repr

def Target.name : Target → String
  | .text => "string"
  | .integer => "int"
  | .settings => "config.Config"

/-- What decoding a node gave: nothing, a text, an integer, or settings decoded in
place. -/
inductive Decoded where
  | nothing
  | text (s : String)
  | integer (n : Int)
  | settings
  deriving DecidableEq, Repr

/-- The state of decoding: the settings so far, the problems reported, the aliases
being followed, and the names set through the merges under way. -/
structure Decoding where
  settings : Settings
  problems : Array String
  following : List Nat
  merged : Option (List String)

abbrev Decode := EStateM Failure Decoding

/-- The first `n` bytes of a text, a character cut short leaving one replacement
character for each of its bytes kept. -/
def bytePrefix : Nat → List Char → List Char
  | _, [] => []
  | n, c :: cs =>
    if c.utf8Size ≤ n then c :: bytePrefix (n - c.utf8Size) cs
    else List.replicate n (Char.ofNat 0xFFFD)

/-- A value as a mismatch shows it: up to ten bytes whole, else seven and dots. -/
def shown (s : String) : String :=
  if s.utf8ByteSize > 10 then String.ofList (bytePrefix 7 s.toList) ++ "..." else s

def report (message : String) : Decode Unit :=
  modify fun d => { d with problems := d.problems.push message }

/-- Reports a node that does not fit its target. The node's own tag names it, with
its text unless it is a sequence or a mapping. -/
def reportUnfit (n : Node) (tag : String) (target : Target) : Decode Unit :=
  let tag := if n.tag != "" then n.tag else tag
  let value := if tag != "!!seq" && tag != "!!map" then " \x60" ++ shown n.text ++ "\x60" else ""
  report ("line " ++ toString n.line ++ ": cannot unmarshal " ++ tag ++ value ++ " into " ++ target.name)

def repeatedKeys : List (Node × Node) → List String
  | [] => []
  | (k, _) :: rest =>
    (rest.filter (·.1.sameKey k)).map (fun e =>
      "line " ++ toString e.1.line ++ ": mapping key " ++ Text.quote e.1.text ++
        " already defined at line " ++ toString k.line) ++ repeatedKeys rest

def twoToSixtyThree : Real := ⟨0x43E0000000000000⟩

def decodeScalar (n : Node) (tag value : String) (target : Target) : Decode Decoded := do
  let (rtag, resolved) ←
    if tag == "!!str" then pure ("!!str", Resolved.str value)
    else match resolve tag value with
      | .ok r => pure r
      | .error e => throw e
  let text ←
    if rtag == "!!binary" then
      match decodeBase64 value with
      | .ok s => pure s
      | .error e => throw e
    else pure value
  match resolved, target with
  | .null, _ => return .nothing
  | _, .text => return .text text
  | .int v, .integer => return .integer v
  | .float r, .integer =>
    if r.isNaN || !r.le twoToSixtyThree then
      reportUnfit n rtag target
      return .nothing
    else if r.eqNum twoToSixtyThree then return .integer (-(Nat.pow 2 63 : Int))
    else return .integer r.toInt64.toInt
  | _, _ =>
    reportUnfit n rtag target
    return .nothing

/-- The text a key stands for when decoded into any value, if it is text. -/
def keyText (anchored : Array Node) : Nat → Node → Option String
  | 0, _ => none
  | fuel + 1, .alias _ _ place _ => keyText anchored fuel (anchored.getD place default)
  | _, .scalar tag value _ _ =>
    if tag == "!!str" then some value
    else match resolve tag value with
      | .ok (rtag, .str s) => if rtag == "!!binary" then (decodeBase64 s).toOption else some s
      | _ => none
  | _, _ => none

def tooDeep {α : Type} : Decode α := throw (.problem ⟨.parsing, "exceeded max depth", ⟨0, 0, 0⟩, ⟨0, 0, 0⟩⟩)

def applyDecoded (s : Settings) (k : Settings.Key) : Decoded → Settings
  | .text t => s.setText k t
  | .integer i => if k == .fieldCacheSize then { s with fieldCacheSize := i } else s
  | _ => s

mutual

def decodeNode (anchored : Array Node) (fuel : Nat) (n : Node) (target : Target) :
    Decode Decoded :=
  match fuel with
  | 0 => tooDeep
  | fuel + 1 =>
    match n with
    | .alias name id place _ => do
      if (← get).following.contains id then throw (.selfContaining name)
      modify fun d => { d with following := id :: d.following }
      let r ← decodeNode anchored fuel (anchored.getD place default) target
      modify fun d => { d with following := d.following.drop 1 }
      return r
    | .scalar tag value _ _ => decodeScalar n tag value target
    | .mapping _ entries _ => do
      let repeated := repeatedKeys entries
      if !repeated.isEmpty then
        repeated.forM report
        return .nothing
      if target == .settings then
        let merged := (← get).merged
        modify fun d => { d with merged := none }
        let (mergeNode, merged) ← decodeEntries anchored fuel entries none merged []
        modify fun d => { d with merged := merged }
        if let some m := mergeNode then mergeInto anchored fuel entries m
        return .settings
      else
        reportUnfit n "!!map" target
        return .nothing
    | .sequence .. => do
      reportUnfit n "!!seq" target
      return .nothing

/-- Decodes the entries of a mapping into the settings; gives the value of the last
merge key and the names set through merges. -/
def decodeEntries (anchored : Array Node) (fuel : Nat) (entries : List (Node × Node))
    (mergeNode : Option Node) (merged : Option (List String)) (done : List Settings.Key) :
    Decode (Option Node × Option (List String)) :=
  match fuel with
  | 0 => tooDeep
  | fuel + 1 =>
    match entries with
    | [] => pure (mergeNode, merged)
    | (k, v) :: rest => do
      if k.isMerge then return ← decodeEntries anchored fuel rest (some v) merged done
      let .text name ← decodeNode anchored fuel k .text
        | decodeEntries anchored fuel rest mergeNode merged done
      let (passed, merged) := match merged with
        | some names => if names.contains name then (true, some names) else (false, some (name :: names))
        | none => (false, none)
      if passed then return ← decodeEntries anchored fuel rest mergeNode merged done
      match Settings.Key.ofName? name with
      | none =>
        report ("line " ++ toString k.line ++ ": field " ++ name ++ " not found in type config.Config")
        decodeEntries anchored fuel rest mergeNode merged done
      | some key =>
        if done.contains key then
          report ("line " ++ toString k.line ++ ": field " ++ name ++ " already set in type config.Config")
          decodeEntries anchored fuel rest mergeNode merged done
        else
          let r ← decodeNode anchored fuel v (if key.isText then .text else .integer)
          modify fun d => { d with settings := applyDecoded d.settings key r }
          decodeEntries anchored fuel rest mergeNode merged (key :: done)

/-- Merges the mapping or mappings a merge key gives into the settings, for the names
that the mapping with the merge key does not set. -/
def mergeInto (anchored : Array Node) (fuel : Nat) (parent : List (Node × Node)) (m : Node) :
    Decode Unit :=
  match fuel with
  | 0 => tooDeep
  | fuel + 1 => do
    let saved := (← get).merged
    if saved.isNone then
      modify fun d => { d with merged := some (parent.filterMap fun e => keyText anchored fuel e.1) }
    match m with
    | .mapping .. =>
      let _ ← decodeNode anchored fuel m .settings
    | .alias _ _ place _ =>
      match anchored.getD place default with
      | .mapping .. => let _ ← decodeNode anchored fuel m .settings
      | _ => throw .mergeWithoutMap
    | .sequence _ items _ => mergeItems anchored fuel items
    | _ => throw .mergeWithoutMap
    modify fun d => { d with merged := saved }

def mergeItems (anchored : Array Node) (fuel : Nat) (items : List Node) : Decode Unit :=
  match fuel with
  | 0 => tooDeep
  | fuel + 1 =>
    match items with
    | [] => pure ()
    | item :: rest => do
      let isMap := match item with
        | .mapping .. => true
        | .alias _ _ place _ =>
          match anchored.getD place default with
          | .mapping .. => true
          | _ => false
        | _ => false
      if !isMap then throw .mergeWithoutMap
      let _ ← decodeNode anchored fuel item .settings
      mergeItems anchored fuel rest

end

/-- Decodes the first document of YAML text over the given settings. -/
def decode (base : Settings) (text : String) : Except Failure Settings :=
  match Document.read? text with
  | .error e => .error e
  | .ok none => .ok base
  | .ok (some doc) =>
    let fuel := 16 * (text.length + 8)
    match decodeNode doc.anchored fuel doc.root .settings ⟨base, #[], [], none⟩ with
    | .error e _ => .error e
    | .ok _ d => if d.problems.isEmpty then .ok d.settings else .error (.unfit d.problems.toList)

end ClassScript.Yaml
