import ClassScript.Syntax.Alg

/-! Parsing tokens into statements, by recursive descent, built through an algebra.
Binary operators bind in six levels, loosest first: `or`; `and`; `!=` `==`; `>` `>=` `<`
`<=`; `-` `+`; `/` `*`, each left associative; `!` and `-` are prefix; calls and `.name`
reads are postfix. Assignment is right associative and its target is a name or a path
of field reads. A statement that fails gives one error and parsing goes on after the next
`;` or before the next `class`, `for`, `if`, `while` or type keyword. -/
namespace ClassScript

/-- What the parser expected where it stopped. -/
inductive SyntaxError.Reason where
  | className
  | parentName
  | bodyOpen
  | bodyClose
  | fieldType (got : String)
  | fieldName
  | fieldEnd
  | variableName
  | variableEnd
  | conditionOpen (keyword : String)
  | conditionClose (keyword : String)
  | forOpen
  | loopConditionEnd
  | forClose
  | blockClose
  | expressionEnd
  | fieldAfterDot
  | tooManyArguments
  | argumentsClose
  | groupClose
  | newClassName
  | newClose (cls : String)
  | unexpected (lexeme : String)
  deriving DecidableEq, Repr

/-- A syntax error at a line. -/
structure SyntaxError where
  line : Nat
  reason : SyntaxError.Reason
  deriving DecidableEq, Repr

namespace SyntaxError

def maxArguments : Nat := 255

def Reason.text : Reason → String
  | .className => "expected class name."
  | .parentName => "expected parent class name after 'extends'."
  | .bodyOpen => "expected '\x7b' before class body."
  | .bodyClose => "expected '\x7d' after class body."
  | .fieldType got => "expected field type, got '" ++ got ++ "'."
  | .fieldName => "expected field name."
  | .fieldEnd => "expected ';' after field declaration."
  | .variableName => "expected variable name."
  | .variableEnd => "expected ';' after variable declaration."
  | .conditionOpen k => "expected '(' after '" ++ k ++ "'."
  | .conditionClose k => "expected ')' after " ++ k ++ " condition."
  | .forOpen => "expected '(' after 'for'."
  | .loopConditionEnd => "expected ';' after loop condition."
  | .forClose => "expected ')' after for clauses."
  | .blockClose => "expected '\x7d' after block."
  | .expressionEnd => "expected ';' after expression."
  | .fieldAfterDot => "expected field name after '.'."
  | .tooManyArguments => "can't have more than " ++ toString maxArguments ++ " arguments."
  | .argumentsClose => "expected ')' after arguments."
  | .groupClose => "expected ')' after expression."
  | .newClassName => "expected class name after 'new'."
  | .newClose cls => "expected ')' after 'new " ++ cls ++ "('."
  | .unexpected lexeme => "unexpected token '" ++ lexeme ++ "'"

def message (e : SyntaxError) : String :=
  "line " ++ toString e.line ++ ": " ++ e.reason.text

end SyntaxError

namespace Parse

/-- A parser reads from the tokens not yet consumed; the last token is `Eof` and is
never consumed. On an error the tokens stay where the error was found. -/
abbrev Parser := EStateM SyntaxError (List Token)

/-- The token `n` places ahead; past the end, the last token. -/
def peekAt (ts : List Token) (n : Nat) : Token :=
  match ts.drop n with
  | t :: _ => t
  | [] => ts.getLast?.getD ⟨.eof, "", .none, 1⟩

def peek : Parser Token := do
  return peekAt (← get) 0

def advance : Parser Unit :=
  modify fun ts => match ts with
    | t :: rest => if t.kind = .eof then ts else rest
    | [] => []

def atEnd : Parser Bool := do
  return (← peek).kind = .eof

def check (k : Token.Kind) : Parser Bool := do
  let t ← peek
  return t.kind ≠ .eof ∧ t.kind = k

def accept (k : Token.Kind) : Parser Bool := do
  if ← check k then advance; return true else return false

def fail {α : Type} (r : SyntaxError.Reason) : Parser α := do
  throw ⟨(← peek).line, r⟩

def expect (k : Token.Kind) (r : SyntaxError.Reason) : Parser Token := do
  let t ← peek
  if t.kind ≠ .eof ∧ t.kind = k then advance; return t else throw ⟨t.line, r⟩

def nameOf (t : Token) : Name := ⟨t.lexeme, t.line⟩

/-- A typed declaration comes next: a type keyword, or two identifiers. -/
def atVarDeclaration : Parser Bool := do
  let ts ← get
  let t := peekAt ts 0
  if t.kind = .identifier then return (peekAt ts 1).kind = .identifier
  else return t.kind.isType

/-- The names of an assignment target `a.b.c =` at the start of the tokens. -/
def targetPath : List Token → Option (List Token)
  | t :: u :: rest =>
    if t.kind = .identifier then
      if u.kind = .equal then some [t]
      else if u.kind = .dot then (targetPath rest).map (t :: ·)
      else none
    else none
  | _ => none

/-- The operator of binary level `level` that a token kind stands for. -/
def levelOp : Nat → Token.Kind → Option (LogicOp ⊕ BinaryOp)
  | 0, .orKw => some (.inl .or)
  | 1, .andKw => some (.inl .and)
  | 2, .bangEqual => some (.inr .ne)
  | 2, .equalEqual => some (.inr .eq)
  | 3, .greater => some (.inr .gt)
  | 3, .greaterEqual => some (.inr .ge)
  | 3, .less => some (.inr .lt)
  | 3, .lessEqual => some (.inr .le)
  | 4, .minus => some (.inr .sub)
  | 4, .plus => some (.inr .add)
  | 5, .slash => some (.inr .div)
  | 5, .star => some (.inr .mul)
  | _, _ => none

def levels : Nat := 6

variable {E S : Type}

def combine (A : Alg E S) (op : LogicOp ⊕ BinaryOp) (line : Nat) (l r : E) : E :=
  match op with
  | .inl op => A.logical op line l r
  | .inr op => A.binary op line l r

/-- The object and field of a path `a.b.c`: reads of all names but the last. -/
def pathObject (A : Alg E S) (first : Token) (middle : List Token) : E :=
  middle.foldl (fun obj t => A.get obj (nameOf t)) (A.var (nameOf first))

/-- A `for` loop as a `while` loop: the increment runs after the body, and the
initialiser before the loop, in a block. -/
def forLoop (A : Alg E S) (init : Option S) (cond : E) (incr : Option E) (body : S) : S :=
  let body := match incr with
    | some i => A.block [body, A.expr i]
    | none => body
  let loop := A.whileLoop cond body
  match init with
  | some s => A.block [s, loop]
  | none => loop

def literalOf (t : Token) : Literal :=
  match t.literal with
  | .int v => .int v
  | .real v => .real v
  | .string s => .string s
  | .none => .null

/-- What a parser gives when its budget of steps is spent; a budget computed from the
token count is never spent. -/
def exhausted {α : Type} : Parser α := fail (.unexpected "")

def fieldGroup : Parser (List FieldDecl) := do
  let t ← peek
  if !t.kind.isType then fail (.fieldType t.lexeme)
  else
    advance
    let rec names : Nat → List FieldDecl → Parser (List FieldDecl)
      | 0, _ => exhausted
      | n + 1, acc => do
        let name ← expect .identifier .fieldName
        let acc := acc ++ [⟨nameOf t, nameOf name⟩]
        if ← accept .comma then names n acc else return acc
    let fields ← names ((← get).length + 1) []
    let _ ← expect .semicolon .fieldEnd
    return fields

def classBody : Nat → List FieldDecl → Parser (List FieldDecl)
  | 0, _ => exhausted
  | n + 1, acc => do
    if (← check .rightBrace) || (← atEnd) then
      let _ ← expect .rightBrace .bodyClose
      return acc
    else
      let group ← fieldGroup
      classBody n (acc ++ group)

def classDeclaration (A : Alg E S) : Parser S := do
  let name ← expect .identifier .className
  let parent ← if ← accept .extendsKw then some <$> expect .identifier .parentName else pure none
  let _ ← expect .leftBrace .bodyOpen
  let fields ← classBody ((← get).length + 1) []
  return A.classDecl (nameOf name) (parent.map nameOf) fields

mutual

def declaration (A : Alg E S) : Nat → Parser S
  | 0 => exhausted
  | n + 1 => do
    if ← accept .classKw then classDeclaration A
    else if ← atVarDeclaration then varDeclaration A n
    else statement A n

def varDeclaration (A : Alg E S) : Nat → Parser S
  | 0 => exhausted
  | n + 1 => do
    let type ← peek
    advance
    let name ← expect .identifier .variableName
    let init ← if ← accept .equal then some <$> expression A n else pure none
    let _ ← expect .semicolon .variableEnd
    return A.declare (nameOf type) (nameOf name) init

def statement (A : Alg E S) : Nat → Parser S
  | 0 => exhausted
  | n + 1 => do
    if ← accept .forKw then forStatement A n
    else if ← accept .ifKw then
      let c ← condition A n "if"
      let t ← statement A n
      let e ← if ← accept .elseKw then statement A n else pure (A.block [])
      return A.ifElse c t e
    else if ← accept .whileKw then
      let c ← condition A n "while"
      let b ← statement A n
      return A.whileLoop c b
    else if ← accept .leftBrace then
      return A.block (← blockItems A n [])
    else expressionStatement A n

def condition (A : Alg E S) : Nat → String → Parser E
  | 0, _ => exhausted
  | n + 1, keyword => do
    let _ ← expect .leftParen (.conditionOpen keyword)
    let c ← expression A n
    let _ ← expect .rightParen (.conditionClose keyword)
    return c

def forStatement (A : Alg E S) : Nat → Parser S
  | 0 => exhausted
  | n + 1 => do
    let _ ← expect .leftParen .forOpen
    let init ←
      if ← accept .semicolon then pure none
      else if ← atVarDeclaration then some <$> varDeclaration A n
      else some <$> expressionStatement A n
    let cond ← if ← check .semicolon then pure (A.literal (.bool true)) else expression A n
    let _ ← expect .semicolon .loopConditionEnd
    let incr ← if ← check .rightParen then pure none else some <$> expression A n
    let _ ← expect .rightParen .forClose
    let body ← statement A n
    return forLoop A init cond incr body

def blockItems (A : Alg E S) : Nat → List S → Parser (List S)
  | 0, _ => exhausted
  | n + 1, acc => do
    if (← check .rightBrace) || (← atEnd) then
      let _ ← expect .rightBrace .blockClose
      return acc.reverse
    else
      let s ← declaration A n
      blockItems A n (s :: acc)

def expressionStatement (A : Alg E S) : Nat → Parser S
  | 0 => exhausted
  | n + 1 => do
    let e ← expression A n
    let _ ← expect .semicolon .expressionEnd
    return A.expr e

/-- An expression: an assignment when a target and `=` come next, else a binary
expression. -/
def expression (A : Alg E S) : Nat → Parser E
  | 0 => exhausted
  | n + 1 => do
    let ts ← get
    match targetPath ts with
    | some (first :: rest) =>
      set (ts.drop (2 * (rest.length + 1)))
      let rhs ← expression A n
      match rest.getLast? with
      | none => return A.assign (nameOf first) rhs
      | some last => return A.set (pathObject A first rest.dropLast) (nameOf last) rhs
    | _ => binary A n 0

def binary (A : Alg E S) : Nat → Nat → Parser E
  | 0, _ => exhausted
  | n + 1, level => do
    if levels ≤ level then unary A n
    else
      let left ← binary A n (level + 1)
      binaryRest A n level left

def binaryRest (A : Alg E S) : Nat → Nat → E → Parser E
  | 0, _, _ => exhausted
  | n + 1, level, left => do
    let t ← peek
    match levelOp level t.kind with
    | some op =>
      advance
      let right ← binary A n (level + 1)
      binaryRest A n level (combine A op t.line left right)
    | none => return left

def unary (A : Alg E S) : Nat → Parser E
  | 0 => exhausted
  | n + 1 => do
    let t ← peek
    match t.kind with
    | .bang =>
      advance
      return A.unary .not t.line (← unary A n)
    | .minus =>
      advance
      return A.unary .neg t.line (← unary A n)
    | _ => callChain A n

def callChain (A : Alg E S) : Nat → Parser E
  | 0 => exhausted
  | n + 1 => do
    let e ← primary A n
    callsAndReads A n e

def callsAndReads (A : Alg E S) : Nat → E → Parser E
  | 0, _ => exhausted
  | n + 1, e => do
    if ← accept .leftParen then
      let e ← arguments A n e []
      callsAndReads A n e
    else if ← accept .dot then
      let name ← expect .identifier .fieldAfterDot
      callsAndReads A n (A.get e (nameOf name))
    else return e

/-- The arguments of a call after its opening parenthesis; a trailing comma is allowed. -/
def arguments (A : Alg E S) : Nat → E → List E → Parser E
  | 0, _, _ => exhausted
  | n + 1, callee, args => do
    if ← check .rightParen then
      let paren ← expect .rightParen .argumentsClose
      return A.call callee paren.line args
    else
      if SyntaxError.maxArguments ≤ args.length then fail .tooManyArguments
      else
        let arg ← expression A n
        if ← accept .comma then arguments A n callee (args ++ [arg])
        else
          let paren ← expect .rightParen .argumentsClose
          return A.call callee paren.line (args ++ [arg])

def primary (A : Alg E S) : Nat → Parser E
  | 0 => exhausted
  | n + 1 => do
    let t ← peek
    match t.kind with
    | .identifier => advance; return A.var (nameOf t)
    | .falseKw => advance; return A.literal (.bool false)
    | .trueKw => advance; return A.literal (.bool true)
    | .nullKw => advance; return A.literal .null
    | .int | .real | .string => advance; return A.literal (literalOf t)
    | .newKw =>
      advance
      let cls ← expect .identifier .newClassName
      if ← accept .leftParen then
        let _ ← expect .rightParen (.newClose cls.lexeme)
      return A.new (nameOf cls)
    | .leftParen =>
      advance
      let e ← expression A n
      let _ ← expect .rightParen .groupClose
      return A.grouping e
    | _ => fail (.unexpected t.lexeme)

end

def resumesBefore (k : Token.Kind) : Bool :=
  match k with
  | .classKw | .forKw | .ifKw | .whileKw | .intKw | .realKw | .boolKw | .stringKw => true
  | _ => false

/-- The tokens after the one that follows `prev`, skipped to where parsing resumes:
after a `;`, before a resuming keyword, or at `Eof`. -/
def skipAfter (prev : Token) : List Token → List Token
  | [] => []
  | t :: rest =>
    if t.kind = .eof ∨ prev.kind = .semicolon ∨ resumesBefore t.kind then t :: rest
    else skipAfter t rest

def synchronize : List Token → List Token
  | [] => []
  | t :: rest => if t.kind = .eof then t :: rest else skipAfter t rest

/-- Steps one declaration may take: enough for every nesting the tokens allow. -/
def budget (ts : List Token) : Nat := 16 * (ts.length + 2)

/-- Parses declarations until `Eof`, keeping the statements that parse and one error
for each that does not. -/
def declarations (A : Alg E S) :
    Nat → List Token → List S → List SyntaxError → List S × List SyntaxError
  | 0, _, stmts, errs => (stmts.reverse, errs.reverse)
  | n + 1, ts, stmts, errs =>
    if (peekAt ts 0).kind = .eof then (stmts.reverse, errs.reverse)
    else
      match (declaration A (budget ts)).run ts with
      | .ok s rest => declarations A n rest (s :: stmts) errs
      | .error e rest => declarations A n (synchronize rest) stmts (e :: errs)

/-- The statements of a token list that ends with `Eof`, built through `A`, and the
syntax errors. -/
def program (A : Alg E S) (ts : List Token) : List S × List SyntaxError :=
  declarations A (ts.length + 1) ts [] []

end Parse

/-- The trees of the statements of a token list that ends with `Eof`, and the syntax
errors. -/
def Stmt.parseAll (ts : List Token) : List Stmt × List SyntaxError :=
  Parse.program Alg.tree ts

end ClassScript
