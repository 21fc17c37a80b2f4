import ClassScript.Real
import ClassScript.Text.Quoted

/-! Tokens of the language: punctuation, operators with an optional `=`, identifiers,
keywords, and int, real and string literals, each with the line on which it ends. -/
namespace ClassScript

inductive Token.Kind where
  | leftParen | rightParen | leftBrace | rightBrace | comma | dot | minus | plus
  | semicolon | slash | star
  | bang | bangEqual | equal | equalEqual | greater | greaterEqual | less | lessEqual
  | identifier | string | int | real
  | andKw | boolKw | classKw | elseKw | extendsKw | falseKw | forKw | ifKw | intKw | newKw
  | nullKw | orKw | realKw | stringKw | trueKw | whileKw
  | eof
  deriving DecidableEq, Repr

inductive Token.Literal where
  | none
  | int (v : Int64)
  | real (v : Real)
  | string (s : String)
  deriving DecidableEq, Repr

/-- A token: its kind, its text in the source, its value and its line. -/
structure Token where
  kind : Token.Kind
  lexeme : String
  literal : Token.Literal
  line : Nat
  deriving DecidableEq, Repr

namespace Token

def keywords : List (String × Kind) :=
  [("and", .andKw), ("bool", .boolKw), ("class", .classKw), ("else", .elseKw),
   ("extends", .extendsKw), ("false", .falseKw), ("for", .forKw), ("if", .ifKw),
   ("int", .intKw), ("new", .newKw), ("null", .nullKw), ("or", .orKw), ("real", .realKw),
   ("string", .stringKw), ("true", .trueKw), ("while", .whileKw)]

/-- The kind of a word: a keyword, or an identifier. -/
def wordKind (w : String) : Kind :=
  (keywords.lookup w).getD .identifier

namespace Kind

/-- The name a kind is shown by: punctuation and keywords as written, the others by
name. -/
def name : Kind → String
  | .leftParen => "(" | .rightParen => ")" | .leftBrace => "\x7b" | .rightBrace => "\x7d"
  | .comma => "," | .dot => "." | .minus => "-" | .plus => "+" | .semicolon => ";"
  | .slash => "/" | .star => "*" | .bang => "!" | .bangEqual => "!=" | .equal => "="
  | .equalEqual => "==" | .greater => ">" | .greaterEqual => ">=" | .less => "<"
  | .lessEqual => "<=" | .identifier => "Identifier" | .string => "String" | .int => "Int"
  | .real => "Real" | .andKw => "and" | .boolKw => "bool" | .classKw => "class"
  | .elseKw => "else" | .extendsKw => "extends" | .falseKw => "false" | .forKw => "for"
  | .ifKw => "if" | .intKw => "int" | .newKw => "new" | .nullKw => "null" | .orKw => "or"
  | .realKw => "real" | .stringKw => "string" | .trueKw => "true" | .whileKw => "while"
  | .eof => "Eof"

/-- Kinds that name a type: the four type keywords and identifiers. -/
def isType : Kind → Bool
  | .boolKw | .intKw | .realKw | .stringKw | .identifier => true
  | _ => false

end Kind

def Literal.text : Literal → Option String
  | .none => Option.none
  | .int v => some (toString v.toInt)
  | .real v => some v.text
  | .string s => some s

/-- A token as the token listing shows it: kind, quoted lexeme, literal if any, line. -/
def describe (t : Token) : String :=
  let lit := match t.literal.text with
    | some s => s ++ " "
    | none => ""
  t.kind.name ++ " " ++ Text.quote t.lexeme ++ " " ++ lit ++ "(line " ++ toString t.line ++ ")"

end Token

end ClassScript
