import ClassScript.Proofs.ParserSteps

/-! Parsing is free in its algebra: where the parser builds a tree, it builds through any
algebra that algebra's fold of the tree, and where it fails, it fails with the same error at
the same token. The mutually recursive parsers are proved together by induction on fuel. -/
namespace ClassScript

namespace Alg

variable {E S : Type} (A : Alg E S)

@[simp] theorem foldExprs_eq_map (es : List Expr) : A.foldExprs es = es.map A.foldExpr := by
  induction es with
  | nil => rfl
  | cons e es ih => rw [foldExprs, ih, List.map_cons]

@[simp] theorem foldStmts_eq_map (ss : List Stmt) : A.foldStmts ss = ss.map A.foldStmt := by
  induction ss with
  | nil => rfl
  | cons s ss ih => rw [foldStmts, ih, List.map_cons]

end Alg

namespace Parse

open Alg (tree)

variable {E S : Type} (A : Alg E S)

/-! ### What the parser builds, folded -/

theorem foldExpr_combine (op : LogicOp ⊕ BinaryOp) (line : Nat) (l r : Expr) :
    A.foldExpr (combine tree op line l r) = combine A op line (A.foldExpr l) (A.foldExpr r) := by
  cases op <;> rfl

theorem foldExpr_pathObject (first : Token) (middle : List Token) :
    A.foldExpr (pathObject tree first middle) = pathObject A first middle := by
  -- the reads fold one at a time, from the first name outwards
  suffices h : ∀ obj, A.foldExpr (middle.foldl (fun obj t => tree.get obj (nameOf t)) obj) =
      middle.foldl (fun obj t => A.get obj (nameOf t)) (A.foldExpr obj) from h _
  induction middle with
  | nil => intro obj; rfl
  | cons t middle ih => intro obj; exact ih (tree.get obj (nameOf t))

theorem foldStmt_forLoop (init : Option Stmt) (cond : Expr) (incr : Option Expr) (body : Stmt) :
    A.foldStmt (forLoop tree init cond incr body) =
      forLoop A (init.map A.foldStmt) (A.foldExpr cond) (incr.map A.foldExpr) (A.foldStmt body) := by
  cases init <;> cases incr <;> rfl

/-! ### Failures carry no value -/

section Fail

variable {α β : Type} (g : α → β)

@[simp] theorem map_fail (r : SyntaxError.Reason) : g <$> (fail r : Parser α) = fail r := rfl

@[simp] theorem map_exhausted : g <$> (exhausted : Parser α) = exhausted := rfl

theorem map_of_error {x : Parser α} {ts rest : List Token} {e : SyntaxError}
    (h : x.run ts = .error e rest) : (g <$> x).run ts = .error e rest := by
  change EStateM.map g x ts = _
  simp only [EStateM.map]
  rw [show x ts = _ from h]

end Fail

/-! ### The expression parsers -/

/-- The expression parsers at fuel `n` build through `A` what `A` folds their trees to. -/
structure ExprFolds (n : Nat) : Prop where
  expression : expression A n = A.foldExpr <$> expression tree n
  binary (k : Nat) : binary A n k = A.foldExpr <$> binary tree n k
  binaryRest (k : Nat) (left : Expr) :
    binaryRest A n k (A.foldExpr left) = A.foldExpr <$> binaryRest tree n k left
  unary : unary A n = A.foldExpr <$> unary tree n
  callChain : callChain A n = A.foldExpr <$> callChain tree n
  callsAndReads (callee : Expr) :
    callsAndReads A n (A.foldExpr callee) = A.foldExpr <$> callsAndReads tree n callee
  arguments (callee : Expr) (args : List Expr) :
    arguments A n (A.foldExpr callee) (args.map A.foldExpr) =
      A.foldExpr <$> arguments tree n callee args
  primary : primary A n = A.foldExpr <$> primary tree n

theorem exprFolds_zero : ExprFolds A 0 :=
  ⟨rfl, fun _ => rfl, fun _ _ => rfl, rfl, rfl, fun _ => rfl, fun _ _ => rfl, rfl⟩

section ExprStep

variable {A} {n : Nat} (ih : ExprFolds A n)
include ih

theorem expression_folds : expression A (n + 1) = A.foldExpr <$> expression tree (n + 1) := by
  simp only [expression, map_bind]
  refine bind_congr fun ts => ?_
  split
  · rename_i first rest _
    simp only [map_bind, ih.expression, bind_map_left]
    refine bind_congr fun _ => bind_congr fun rhs => ?_
    -- an assignment to a name, or to the last field of a path
    split
    · rfl
    · rw [map_pure, ← foldExpr_pathObject]
      rfl
  · exact ih.binary 0

theorem binary_folds (k : Nat) : binary A (n + 1) k = A.foldExpr <$> binary tree (n + 1) k := by
  simp only [binary]
  split
  · exact ih.unary
  · simp only [map_bind, ih.binary, bind_map_left, ih.binaryRest]

theorem binaryRest_folds (k : Nat) (left : Expr) :
    binaryRest A (n + 1) k (A.foldExpr left) = A.foldExpr <$> binaryRest tree (n + 1) k left := by
  simp only [binaryRest, map_bind]
  refine bind_congr fun t => ?_
  split
  · simp only [map_bind, ih.binary, bind_map_left, ← foldExpr_combine, ih.binaryRest]
  · rfl

theorem unary_folds : unary A (n + 1) = A.foldExpr <$> unary tree (n + 1) := by
  simp only [unary, map_bind]
  refine bind_congr fun t => ?_
  split
  · simp only [map_bind, ih.unary, bind_map_left]
    rfl
  · simp only [map_bind, ih.unary, bind_map_left]
    rfl
  · exact ih.callChain

theorem callChain_folds : callChain A (n + 1) = A.foldExpr <$> callChain tree (n + 1) := by
  simp only [callChain, map_bind, ih.primary, bind_map_left, ih.callsAndReads]

theorem callsAndReads_folds (callee : Expr) :
    callsAndReads A (n + 1) (A.foldExpr callee) = A.foldExpr <$> callsAndReads tree (n + 1) callee := by
  simp only [callsAndReads, map_bind]
  refine bind_congr fun paren => ?_
  split
  · -- a call: its arguments start empty, the fold of no arguments
    have none : ([] : List E) = ([] : List Expr).map A.foldExpr := rfl
    rw [none, ih.arguments, map_bind, bind_map_left]
    simp only [ih.callsAndReads]
  · simp only [map_bind]
    refine bind_congr fun dot => ?_
    split
    · simp only [map_bind]
      refine bind_congr fun name => ?_
      exact ih.callsAndReads (tree.get callee (nameOf name))
    · rfl

theorem arguments_folds (callee : Expr) (args : List Expr) :
    arguments A (n + 1) (A.foldExpr callee) (args.map A.foldExpr) =
      A.foldExpr <$> arguments tree (n + 1) callee args := by
  simp only [arguments, map_bind]
  refine bind_congr fun close => ?_
  split
  · simp only [map_bind, map_pure, Alg.tree, Alg.foldExpr, Alg.foldExprs_eq_map]
  · -- the bound on arguments reads only how many there are
    rw [List.length_map]
    split
    · exact (map_fail _ _).symm
    · simp only [map_bind, ih.expression, bind_map_left]
      refine bind_congr fun arg => bind_congr fun comma => ?_
      split
      · rw [← ih.arguments, List.map_append, List.map_singleton]
      · simp only [map_bind, map_pure, Alg.tree, Alg.foldExpr, Alg.foldExprs_eq_map,
          List.map_append, List.map_singleton]

theorem primary_folds : primary A (n + 1) = A.foldExpr <$> primary tree (n + 1) := by
  simp only [primary, map_bind]
  refine bind_congr fun t => ?_
  split
  all_goals simp only [map_bind, map_pure, map_fail, ih.expression, bind_map_left, Alg.tree,
    Alg.foldExpr]
  -- left over is `new C`, which may close an empty `()` before it builds its node
  refine bind_congr fun _ => bind_congr fun cls => bind_congr fun paren => ?_
  split <;> simp only [map_bind, map_pure, Alg.foldExpr]

theorem ExprFolds.succ : ExprFolds A (n + 1) :=
  ⟨expression_folds ih, binary_folds ih, binaryRest_folds ih, unary_folds ih, callChain_folds ih,
    callsAndReads_folds ih, arguments_folds ih, primary_folds ih⟩

end ExprStep

theorem exprFolds : ∀ n, ExprFolds A n
  | 0 => exprFolds_zero A
  | n + 1 => (exprFolds n).succ

/-! ### The statement parsers -/

theorem condition_folds : ∀ (n : Nat) (keyword : String),
    condition A n keyword = A.foldExpr <$> condition tree n keyword
  | 0, _ => rfl
  | n + 1, _ => by
    simp only [condition, map_bind, map_pure, (exprFolds A n).expression, bind_map_left]

theorem expressionStatement_folds :
    ∀ n, expressionStatement A n = A.foldStmt <$> expressionStatement tree n
  | 0 => rfl
  | n + 1 => by
    simp only [expressionStatement, map_bind, map_pure, (exprFolds A n).expression,
      bind_map_left, Alg.tree, Alg.foldStmt]

theorem varDeclaration_folds : ∀ n, varDeclaration A n = A.foldStmt <$> varDeclaration tree n
  | 0 => rfl
  | n + 1 => by
    simp only [varDeclaration, map_bind, (exprFolds A n).expression]
    refine bind_congr fun type => bind_congr fun _ => bind_congr fun name => ?_
    refine bind_congr fun equal => ?_
    -- with an initial value or without, the `;` follows
    split <;> simp only [map_bind, map_pure, bind_map_left, LawfulMonad.pure_bind, Alg.tree,
      Alg.foldStmt, Option.map_some, Option.map_none]

theorem classDeclaration_folds : classDeclaration A = A.foldStmt <$> classDeclaration tree := by
  simp only [classDeclaration, map_bind]
  refine bind_congr fun name => bind_congr fun hasParent => ?_
  split <;> simp only [map_bind, map_pure, Alg.tree, Alg.foldStmt]

theorem forInit_folds (n : Nat) : forInit A n = Option.map A.foldStmt <$> forInit tree n := by
  simp only [forInit, map_bind]
  refine bind_congr fun semicolon => ?_
  split
  · rfl
  · simp only [map_bind]
    refine bind_congr fun declares => ?_
    split <;> simp only [varDeclaration_folds A n, expressionStatement_folds A n,
      Functor.map_map] <;> rfl

theorem forCond_folds (n : Nat) : forCond A n = A.foldExpr <$> forCond tree n := by
  simp only [forCond, map_bind]
  refine bind_congr fun semicolon => ?_
  split
  · rw [map_pure]
    rfl
  · exact (exprFolds A n).expression

theorem forIncr_folds (n : Nat) : forIncr A n = Option.map A.foldExpr <$> forIncr tree n := by
  simp only [forIncr, map_bind, (exprFolds A n).expression]
  refine bind_congr fun paren => ?_
  split
  · rw [map_pure]
    rfl
  · simp only [Functor.map_map]
    rfl

/-- The statement parsers at fuel `n` build through `A` what `A` folds their trees to. -/
structure StmtFolds (n : Nat) : Prop where
  declaration : declaration A n = A.foldStmt <$> declaration tree n
  statement : statement A n = A.foldStmt <$> statement tree n
  forStatement : forStatement A n = A.foldStmt <$> forStatement tree n
  blockItems (acc : List Stmt) :
    blockItems A n (acc.map A.foldStmt) = List.map A.foldStmt <$> blockItems tree n acc

theorem stmtFolds_zero : StmtFolds A 0 := ⟨rfl, rfl, rfl, fun _ => rfl⟩

section StmtStep

variable {A} {n : Nat} (ih : StmtFolds A n)
include ih

theorem declaration_folds : declaration A (n + 1) = A.foldStmt <$> declaration tree (n + 1) := by
  simp only [declaration, map_bind]
  refine bind_congr fun cls => ?_
  split
  · exact classDeclaration_folds A
  · simp only [map_bind]
    refine bind_congr fun declares => ?_
    split
    · exact varDeclaration_folds A n
    · exact ih.statement

theorem blockItems_folds (acc : List Stmt) :
    blockItems A (n + 1) (acc.map A.foldStmt) = List.map A.foldStmt <$> blockItems tree (n + 1) acc := by
  simp only [blockItems, map_bind]
  refine bind_congr fun close => bind_congr fun atEnd => ?_
  split
  · simp only [map_bind, map_pure, List.map_reverse]
  · simp only [map_bind, ih.declaration, bind_map_left]
    refine bind_congr fun s => ?_
    rw [← List.map_cons, ih.blockItems]

theorem forStatement_folds : forStatement A (n + 1) = A.foldStmt <$> forStatement tree (n + 1) := by
  rw [forStatement_eq, forStatement_eq]
  simp only [map_bind, map_pure, forInit_folds A n, forCond_folds A n, forIncr_folds A n, ih.statement,
    bind_map_left, foldStmt_forLoop]

theorem statement_folds : statement A (n + 1) = A.foldStmt <$> statement tree (n + 1) := by
  simp only [statement, map_bind]
  refine bind_congr fun isFor => ?_
  split
  · exact ih.forStatement
  simp only [map_bind]
  refine bind_congr fun isIf => ?_
  split
  · -- an `if`, with an `else` branch or the empty block in its place
    simp only [map_bind, condition_folds A n, ih.statement, bind_map_left]
    refine bind_congr fun c => bind_congr fun t => bind_congr fun hasElse => ?_
    split <;> simp only [map_bind, map_pure, LawfulMonad.pure_bind, Alg.tree, Alg.foldStmt,
      Alg.foldStmts_eq_map, List.map_nil]
  simp only [map_bind]
  refine bind_congr fun isWhile => ?_
  split
  · simp only [map_bind, map_pure, condition_folds A n, ih.statement, bind_map_left, Alg.tree,
      Alg.foldStmt]
  simp only [map_bind]
  refine bind_congr fun isBlock => ?_
  split
  · have none : ([] : List S) = ([] : List Stmt).map A.foldStmt := rfl
    rw [none, ih.blockItems]
    simp only [map_bind, map_pure, bind_map_left, Alg.tree, Alg.foldStmt, Alg.foldStmts_eq_map]
  · exact expressionStatement_folds A n

theorem StmtFolds.succ : StmtFolds A (n + 1) :=
  ⟨declaration_folds ih, statement_folds ih, forStatement_folds ih, blockItems_folds ih⟩

end StmtStep

theorem stmtFolds : ∀ n, StmtFolds A n
  | 0 => stmtFolds_zero A
  | n + 1 => (stmtFolds n).succ

/-! ### The loop over declarations -/

/-- The loop through `A` keeps the fold of what the loop through the trees keeps: each
declaration is the fold of the same tree, or fails with the same error, and parsing
resumes at the same place. -/
theorem declarations_folds : ∀ (n : Nat) (ts : List Token) (stmts : List Stmt)
    (errs : List SyntaxError),
    declarations A n ts (stmts.map A.foldStmt) errs =
      ((declarations tree n ts stmts errs).1.map A.foldStmt, (declarations tree n ts stmts errs).2)
  | 0, _, _, _ => by simp only [declarations, List.map_reverse]
  | n + 1, ts, stmts, errs => by
    simp only [declarations]
    split
    · simp only [List.map_reverse]
    · rw [(stmtFolds A (budget ts)).declaration]
      cases parsed : (declaration tree (budget ts)).run ts with
      | ok s rest =>
        rw [map_of_ok parsed]
        dsimp only
        rw [← List.map_cons]
        exact declarations_folds n rest (s :: stmts) errs
      | error e rest =>
        rw [map_of_error _ parsed]
        dsimp only
        exact declarations_folds n (synchronize rest) stmts (e :: errs)

/-- Parsing through any algebra gives its fold of each tree the parser builds, in order,
and the same syntax errors. -/
theorem program_folds (ts : List Token) :
    program A ts = ((Stmt.parseAll ts).1.map A.foldStmt, (Stmt.parseAll ts).2) :=
  declarations_folds A _ ts [] []

end Parse

end ClassScript
