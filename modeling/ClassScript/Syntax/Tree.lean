import ClassScript.Syntax.Token

/-! Programs as trees. A `for` loop has no node of its own: it is a `while` loop in a
block, as the parser builds it. An `if` without `else` has an empty block as its other
branch. Names, operators and call parentheses keep the line of their token, which is
the line that runtime errors report. -/
namespace ClassScript

structure Name where
  text : String
  line : Nat
  deriving DecidableEq, Repr

/-- A literal: `null`, a truth value, an integer, a real or a string. -/
inductive Literal where
  | null
  | bool (b : Bool)
  | int (v : Int64)
  | real (v : Real)
  | string (s : String)
  deriving DecidableEq, Repr

inductive UnaryOp where
  | not
  | neg
  deriving DecidableEq, Repr

inductive BinaryOp where
  | eq | ne | lt | le | gt | ge | add | sub | mul | div
  deriving DecidableEq, Repr

/-- Operators that evaluate their right operand only when the left one does not
decide: `and`, `or`. -/
inductive LogicOp where
  | and
  | or
  deriving DecidableEq, Repr

inductive Expr where
  | literal (v : Literal)
  | grouping (e : Expr)
  | var (name : Name)
  | assign (name : Name) (value : Expr)
  | unary (op : UnaryOp) (line : Nat) (operand : Expr)
  | binary (op : BinaryOp) (line : Nat) (left right : Expr)
  | logical (op : LogicOp) (line : Nat) (left right : Expr)
  | call (callee : Expr) (line : Nat) (args : List Expr)
  | new (cls : Name)
  | get (object : Expr) (field : Name)
  | set (object : Expr) (field : Name) (value : Expr)
  deriving Repr

/-- One field of a class body: its type name and its name. -/
structure FieldDecl where
  type : Name
  name : Name
  deriving DecidableEq, Repr

inductive Stmt where
  | expr (e : Expr)
  | block (body : List Stmt)
  | ifElse (cond : Expr) (thenBranch elseBranch : Stmt)
  | whileLoop (cond : Expr) (body : Stmt)
  | var (type : Name) (name : Name) (init : Option Expr)
  | classDecl (name : Name) (parent : Option Name) (fields : List FieldDecl)
  deriving Repr

namespace UnaryOp

def symbol : UnaryOp → String
  | .not => "!"
  | .neg => "-"

end UnaryOp

namespace BinaryOp

def symbol : BinaryOp → String
  | .eq => "==" | .ne => "!=" | .lt => "<" | .le => "<=" | .gt => ">" | .ge => ">="
  | .add => "+" | .sub => "-" | .mul => "*" | .div => "/"

end BinaryOp

namespace LogicOp

def symbol : LogicOp → String
  | .and => "and"
  | .or => "or"

end LogicOp

end ClassScript
