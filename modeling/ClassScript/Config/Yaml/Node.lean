import ClassScript.Config.Yaml.Token

/-! The nodes a YAML document is made of, and the ways reading and decoding fail. An alias
points into the document's table of anchored nodes, so that a node may hold an alias to
itself. -/
namespace ClassScript.Yaml

/-- A node of a document. -/
inductive Node where
  | scalar (tag value : String) (style : Style) (line : Nat)
  | sequence (tag : String) (items : List Node) (line : Nat)
  | mapping (tag : String) (entries : List (Node × Node)) (line : Nat)
  /-- An alias: its anchor's name, a number of its own, and the place of the node it
  stands for in the document's table of anchored nodes. -/
  | alias (name : String) (id target : Nat) (line : Nat)
  deriving Repr

instance : Inhabited Node := ⟨.scalar "" "" .plain 0⟩

namespace Node

def line : Node → Nat
  | .scalar _ _ _ l | .sequence _ _ l | .mapping _ _ l | .alias _ _ _ l => l

def tag : Node → String
  | .scalar t _ _ _ | .sequence t _ _ | .mapping t _ _ => t
  | .alias .. => ""

/-- The text a node has as a key: a scalar's value, an alias's name, else nothing. -/
def text : Node → String
  | .scalar _ v _ _ => v
  | .alias n .. => n
  | _ => ""

/-- Which of the four kinds a node is, as a number. -/
def kind : Node → Nat
  | .scalar .. => 0
  | .sequence .. => 1
  | .mapping .. => 2
  | .alias .. => 3

/-- Whether two keys are the same key: of one kind and with one text. -/
def sameKey (a b : Node) : Bool := a.kind == b.kind && a.text == b.text

/-- Whether a node is the merge key `<<`. -/
def isMerge : Node → Bool
  | .scalar t v _ _ => v == "<<" && (t == "" || t == "!" || t == "!!merge")
  | _ => false

end Node

/-- A document: its root node and the table of nodes that have anchors. -/
structure Document where
  root : Node
  anchored : Array Node
  deriving Repr

/-- Why YAML text could not be read or decoded. -/
inductive Failure where
  | problem (p : Problem)
  | controlCharacters
  | unknownAnchor (name : String)
  /-- A scalar whose explicit tag does not fit its value. -/
  | cannotDecode (found value wanted : String)
  | invalidBinary
  | mergeWithoutMap
  | selfContaining (name : String)
  /-- Values that did not fit where they were decoded, each told with its line. -/
  | unfit (messages : List String)
  deriving Repr

namespace Failure

def message : Failure → String
  | .problem p => "yaml: " ++ p.message
  | .controlCharacters => "yaml: control characters are not allowed"
  | .unknownAnchor n => "yaml: unknown anchor '" ++ n ++ "' referenced"
  | .cannotDecode f v w => "yaml: cannot decode " ++ f ++ " \x60" ++ v ++ "\x60 as a " ++ w
  | .invalidBinary => "yaml: !!binary value contains invalid base64 data"
  | .mergeWithoutMap => "yaml: map merge requires map or sequence of maps as the value"
  | .selfContaining n => "yaml: anchor '" ++ n ++ "' value contains itself"
  | .unfit ms => "yaml: unmarshal errors:\n  " ++ "\n  ".intercalate ms

end Failure

end ClassScript.Yaml
