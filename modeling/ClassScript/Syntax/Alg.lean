import ClassScript.Syntax.Tree

/-! Algebras of programs: one operation for each form of expression and of statement. The
parser builds what it reads through an algebra; the trees are the free algebra, and a tree
folds through any algebra, each node's operation taking what its parts fold to. -/
namespace ClassScript

/-- One operation for each form of expression, with carrier `E`, and of statement, with
carrier `S`. -/
structure Alg (E S : Type) where
  literal : Literal → E
  grouping : E → E
  var : Name → E
  assign : Name → E → E
  unary : UnaryOp → Nat → E → E
  binary : BinaryOp → Nat → E → E → E
  logical : LogicOp → Nat → E → E → E
  call : E → Nat → List E → E
  new : Name → E
  get : E → Name → E
  set : E → Name → E → E
  expr : E → S
  block : List S → S
  ifElse : E → S → S → S
  whileLoop : E → S → S
  declare : Name → Name → Option E → S
  classDecl : Name → Option Name → List FieldDecl → S

namespace Alg

variable {E S : Type}

/-- The trees: each operation makes its node. -/
def tree : Alg Expr Stmt where
  literal := .literal
  grouping := .grouping
  var := .var
  assign := .assign
  unary := .unary
  binary := .binary
  logical := .logical
  call := .call
  new := .new
  get := .get
  set := .set
  expr := .expr
  block := .block
  ifElse := .ifElse
  whileLoop := .whileLoop
  declare := .var
  classDecl := .classDecl

mutual

/-- An expression folded through an algebra. -/
def foldExpr (A : Alg E S) : Expr → E
  | .literal l => A.literal l
  | .grouping e => A.grouping (A.foldExpr e)
  | .var name => A.var name
  | .assign name value => A.assign name (A.foldExpr value)
  | .unary op line e => A.unary op line (A.foldExpr e)
  | .binary op line l r => A.binary op line (A.foldExpr l) (A.foldExpr r)
  | .logical op line l r => A.logical op line (A.foldExpr l) (A.foldExpr r)
  | .call callee line args => A.call (A.foldExpr callee) line (A.foldExprs args)
  | .new cls => A.new cls
  | .get obj field => A.get (A.foldExpr obj) field
  | .set obj field value => A.set (A.foldExpr obj) field (A.foldExpr value)

def foldExprs (A : Alg E S) : List Expr → List E
  | [] => []
  | e :: es => A.foldExpr e :: A.foldExprs es

end

mutual

/-- A statement folded through an algebra. -/
def foldStmt (A : Alg E S) : Stmt → S
  | .expr e => A.expr (A.foldExpr e)
  | .block body => A.block (A.foldStmts body)
  | .ifElse c t e => A.ifElse (A.foldExpr c) (A.foldStmt t) (A.foldStmt e)
  | .whileLoop c body => A.whileLoop (A.foldExpr c) (A.foldStmt body)
  | .var type name init => A.declare type name (init.map A.foldExpr)
  | .classDecl name parent fields => A.classDecl name parent fields

def foldStmts (A : Alg E S) : List Stmt → List S
  | [] => []
  | s :: rest => A.foldStmt s :: A.foldStmts rest

end

end Alg

end ClassScript
