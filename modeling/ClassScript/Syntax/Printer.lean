import ClassScript.Syntax.Alg

/-! Programs as s-expressions: every node is its head and its operands between
parentheses, names and operators as written, strings quoted. A statement prints as the
program that runs: a `for` loop shows as the `while` loop it stands for. The printer is an
algebra, and a tree prints as its fold through it. -/
namespace ClassScript

/-- Head and operands between parentheses, separated by blanks. -/
def parenthesize (head : String) (operands : List String) : String :=
  "(" ++ head ++ String.join (operands.map (" " ++ ·)) ++ ")"

def Literal.render : Literal → String
  | .null => "null"
  | .bool b => toString b
  | .int v => toString v.toInt
  | .real v => v.text
  | .string s => Text.quote s

def Expr.render : Expr → String
  | .literal v => v.render
  | .grouping e => parenthesize "group" [e.render]
  | .var name => name.text
  | .assign name value => parenthesize ("assign " ++ name.text) [value.render]
  | .unary op _ e => parenthesize op.symbol [e.render]
  | .binary op _ l r => parenthesize op.symbol [l.render, r.render]
  | .logical op _ l r => parenthesize op.symbol [l.render, r.render]
  | .call callee _ args => parenthesize ("call " ++ callee.render) (args.map (·.render))
  | .new cls => parenthesize ("new " ++ cls.text) []
  | .get obj field => parenthesize ("get " ++ field.text) [obj.render]
  | .set obj field value => parenthesize ("set " ++ field.text) [obj.render, value.render]

def Stmt.render : Stmt → String
  | .expr e => e.render
  | .block body => parenthesize "block" (body.map (·.render))
  | .ifElse c t e => parenthesize "if" [c.render, t.render, e.render]
  | .whileLoop c b => parenthesize "while" [c.render, b.render]
  | .var type name init =>
    parenthesize ("var " ++ type.text ++ " " ++ name.text) (init.toList.map (·.render))
  | .classDecl name parent fields =>
    let head := "class " ++ name.text ++
      (match parent with
        | some p => " extends " ++ p.text
        | none => "")
    parenthesize head (fields.map fun f => "(" ++ f.type.text ++ " " ++ f.name.text ++ ")")

def Alg.printer : Alg String String where
  literal l := l.render
  grouping e := parenthesize "group" [e]
  var name := name.text
  assign name value := parenthesize ("assign " ++ name.text) [value]
  unary op _ e := parenthesize op.symbol [e]
  binary op _ l r := parenthesize op.symbol [l, r]
  logical op _ l r := parenthesize op.symbol [l, r]
  call callee _ args := parenthesize ("call " ++ callee) args
  new cls := parenthesize ("new " ++ cls.text) []
  get obj field := parenthesize ("get " ++ field.text) [obj]
  set obj field value := parenthesize ("set " ++ field.text) [obj, value]
  expr e := e
  block body := parenthesize "block" body
  ifElse c t e := parenthesize "if" [c, t, e]
  whileLoop c body := parenthesize "while" [c, body]
  declare type name init := parenthesize ("var " ++ type.text ++ " " ++ name.text) init.toList
  classDecl name parent fields :=
    parenthesize ("class " ++ name.text ++ (parent.map (" extends " ++ ·.text)).getD "")
      (fields.map fun f => "(" ++ f.type.text ++ " " ++ f.name.text ++ ")")

end ClassScript
