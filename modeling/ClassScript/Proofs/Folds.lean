import ClassScript.Cli
import ClassScript.Proofs.ParseFolds

/-! The printer and the evaluator as algebras. Since parsing through an algebra is folding
the parsed trees through it, a source is in effect parsed once, into trees, which `ast`
prints and a session step runs. -/
namespace ClassScript

namespace Alg

/-! ### The printer -/

mutual

theorem printer_foldExpr : ∀ e : Expr, printer.foldExpr e = e.render
  | .literal _ | .var _ | .new _ => by simp only [foldExpr, Expr.render]; rfl
  | .grouping e | .unary _ _ e => by
    simp only [foldExpr, Expr.render, printer_foldExpr e]
    rfl
  | .assign _ value => by
    simp only [foldExpr, Expr.render, printer_foldExpr value]
    rfl
  | .binary _ _ l r | .logical _ _ l r => by
    simp only [foldExpr, Expr.render, printer_foldExpr l, printer_foldExpr r]
    rfl
  | .call callee _ args => by
    simp only [foldExpr, Expr.render, printer_foldExpr callee, printer_foldExprs args]
    rfl
  | .get obj _ => by
    simp only [foldExpr, Expr.render, printer_foldExpr obj]
    rfl
  | .set obj _ value => by
    simp only [foldExpr, Expr.render, printer_foldExpr obj, printer_foldExpr value]
    rfl

theorem printer_foldExprs : ∀ es : List Expr, printer.foldExprs es = es.map Expr.render
  | [] => rfl
  | e :: es => by simp only [foldExprs, printer_foldExpr e, printer_foldExprs es, List.map_cons]

end

mutual

theorem printer_foldStmt : ∀ s : Stmt, printer.foldStmt s = s.render
  | .expr e => by
    simp only [foldStmt, Stmt.render, printer_foldExpr e]
    rfl
  | .block body => by
    simp only [foldStmt, Stmt.render, printer_foldStmts body]
    rfl
  | .ifElse c t e => by
    simp only [foldStmt, Stmt.render, printer_foldExpr c, printer_foldStmt t, printer_foldStmt e]
    rfl
  | .whileLoop c body => by
    simp only [foldStmt, Stmt.render, printer_foldExpr c, printer_foldStmt body]
    rfl
  | .var _ _ none => by simp only [foldStmt, Stmt.render]; rfl
  | .var _ _ (some e) => by
    simp only [foldStmt, Stmt.render, Option.map_some, printer_foldExpr e]
    rfl
  | .classDecl _ none _ | .classDecl _ (some _) _ => by simp only [foldStmt, Stmt.render]; rfl

theorem printer_foldStmts : ∀ ss : List Stmt, printer.foldStmts ss = ss.map Stmt.render
  | [] => rfl
  | s :: ss => by simp only [foldStmts, printer_foldStmt s, printer_foldStmts ss, List.map_cons]

end

end Alg

/-! ### The evaluator -/

namespace Act

mutual

theorem evaluator_foldExpr : ∀ e : Expr, evaluator.foldExpr e = fun scope => eval scope e
  | .literal _ | .var _ | .new _ => by
    simp only [Alg.foldExpr]
    rfl
  | .grouping e => by
    simp only [Alg.foldExpr, evaluator_foldExpr e, eval]
    rfl
  | .assign _ rhs | .unary _ _ rhs => by
    funext scope
    simp only [Alg.foldExpr, evaluator_foldExpr rhs, eval]
    rfl
  | .binary _ _ l r | .logical _ _ l r => by
    funext scope
    simp only [Alg.foldExpr, evaluator_foldExpr l, evaluator_foldExpr r, eval]
    rfl
  | .call callee _ args => by
    funext scope
    simp only [Alg.foldExpr, evaluator_foldExpr callee, eval]
    rw [← evaluator_foldExprs args scope]
    rfl
  | .get obj _ => by
    funext scope
    simp only [Alg.foldExpr, evaluator_foldExpr obj, eval]
    rfl
  | .set obj _ rhs => by
    funext scope
    simp only [Alg.foldExpr, evaluator_foldExpr obj, evaluator_foldExpr rhs, eval]
    rfl

theorem evaluator_foldExprs :
    ∀ (es : List Expr) (scope : Scope), evalEach scope (evaluator.foldExprs es) = evalAll scope es
  | [], _ => rfl
  | e :: es, scope => by
    simp only [Alg.foldExprs, evalEach, evaluator_foldExpr e, evaluator_foldExprs es, evalAll]

end

/-- A `while` loop run from the meanings of its condition and its body is the loop the
interpreter runs: by induction on the budget, one pass at a time. -/
theorem loop_eq_exec (c : Expr) (body : Stmt) :
    ∀ (n : Nat) (scope : Scope),
      loop (fun scope => eval scope c) (fun n scope => exec n body scope) n scope =
        exec n (.whileLoop c body) scope
  | 0, _ => by simp only [loop, exec]
  | n + 1, scope => by
    simp only [loop, exec, test, condition, loop_eq_exec c body n]

theorem metered_eq_exec {run : Nat → Scope → Act Scope} {s : Stmt}
    (h : ∀ n scope, run n scope = exec (n + 1) s scope) :
    metered run = fun n scope => exec n s scope := by
  funext n scope
  cases n with
  | zero => simp only [metered, exec]
  | succ n => simp only [metered, h]

mutual

/-- What a statement does is its fold through the evaluator. -/
theorem evaluator_foldStmt : ∀ s : Stmt, evaluator.foldStmt s = fun n scope => exec n s scope
  | .expr e => by
    simp only [Alg.foldStmt]
    refine metered_eq_exec fun n scope => ?_
    simp only [evaluator_foldExpr e, exec]
  | .block body => by
    simp only [Alg.foldStmt]
    refine metered_eq_exec fun n scope => ?_
    simp only [exec]
    rw [← evaluator_foldStmts body n ([] :: scope)]
  | .ifElse c t e => by
    simp only [Alg.foldStmt]
    refine metered_eq_exec fun n scope => ?_
    simp only [evaluator_foldExpr c, evaluator_foldStmt t, evaluator_foldStmt e, exec]
    rfl
  | .whileLoop c body => by
    funext n scope
    simp only [Alg.foldStmt, evaluator_foldExpr c, evaluator_foldStmt body]
    exact loop_eq_exec c body n scope
  | .var type name none => by
    simp only [Alg.foldStmt]
    refine metered_eq_exec fun n scope => ?_
    simp only [exec]
    rfl
  | .var type name (some e) => by
    simp only [Alg.foldStmt, Option.map_some, evaluator_foldExpr e]
    refine metered_eq_exec fun n scope => ?_
    simp only [exec]
    rfl
  | .classDecl .. => by
    simp only [Alg.foldStmt]
    rfl

theorem evaluator_foldStmts :
    ∀ (ss : List Stmt) (n : Nat) (scope : Scope),
      runEach (evaluator.foldStmts ss) n scope = execAll n ss scope
  | [], _, _ => by simp only [Alg.foldStmts, runEach, execAll]
  | _ :: _, 0, _ => by simp only [Alg.foldStmts, runEach, execAll]
  | s :: ss, n + 1, scope => by
    simp only [Alg.foldStmts, runEach, evaluator_foldStmt s, evaluator_foldStmts ss, execAll]

end

end Act

namespace Session

theorem runMeanings_evaluator (s : Session) (stmts : List Stmt) :
    s.runMeanings (stmts.map Act.evaluator.foldStmt) = s.runAll stmts := by
  rw [runAll, funext Act.evaluator_foldStmt]

/-- A step parses its source into trees and runs them, unless the parse reports errors. -/
theorem step_eq (s : Session) (source : String) :
    s.step source =
      let s := { s with machine := { s.machine with out := "" } }
      match Token.scan source with
      | .error e => (⟨"", some (.scan e)⟩, s)
      | .ok tokens =>
        match Stmt.parseAll tokens with
        | (_, e :: es) => (⟨"", some (.rejected (e :: es))⟩, s)
        | (stmts, []) =>
          let (fault?, s) := s.runAll stmts
          (⟨s.machine.out, fault?.map .fault⟩, s) := by
  simp only [step]
  cases Token.scan source with
  | error e => rfl
  | ok tokens =>
    dsimp only
    rw [Parse.program_folds]
    rcases Stmt.parseAll tokens with ⟨stmts, _ | ⟨e, es⟩⟩
    · simp only [runMeanings_evaluator]
    · rfl

end Session

/-- Parsing through any algebra gives that algebra's fold of the trees the parser builds and
the same syntax errors; so `ast` prints the statements a session step would run, and both
report the same syntax errors. -/
theorem ast_shows_the_program_run :
    (∀ {E S : Type} (A : Alg E S) (ts : List Token),
      Parse.program A ts = ((Stmt.parseAll ts).1.map A.foldStmt, (Stmt.parseAll ts).2)) ∧
    (∀ s : Stmt, Alg.printer.foldStmt s = s.render) ∧
    (∀ s : Stmt, Act.evaluator.foldStmt s = fun n scope => Act.exec n s scope) ∧
    ∀ (inv : Invocation) (files : String → Option String) (src : String) (tokens : List Token)
      (s : Session), Cli.source inv files = .ok src → Token.scan src = .ok tokens →
      let cleared : Session := { s with machine := { s.machine with out := "" } }
      let run := cleared.runAll (Stmt.parseAll tokens).1
      (Cli.printTree inv files).out =
        String.join ((Stmt.parseAll tokens).1.map fun st => Alg.printer.foldStmt st ++ "\n") ∧
      ((Stmt.parseAll tokens).2 = [] → (Cli.printTree inv files).error = none ∧
        s.step src = (⟨run.2.machine.out, run.1.map .fault⟩, run.2)) ∧
      ∀ e es, (Stmt.parseAll tokens).2 = e :: es →
        (Cli.printTree inv files).error = some (.script (.rejected (e :: es))) ∧
        s.step src = (⟨"", some (.rejected (e :: es))⟩, cleared) := by
  refine ⟨Parse.program_folds, Alg.printer_foldStmt, Act.evaluator_foldStmt, ?_⟩
  intro inv files src tokens s hsrc scanned
  -- both commands take the one parse; the error list decides which way each goes
  have printed := Parse.program_folds Alg.printer tokens
  rcases parsed : Stmt.parseAll tokens with ⟨stmts, errs⟩
  rw [parsed] at printed
  cases errs with
  | nil => simp [Cli.printTree, Session.step_eq, hsrc, scanned, parsed, printed, Function.comp_def]
  | cons e es => simp [Cli.printTree, Session.step_eq, hsrc, scanned, parsed, printed, Function.comp_def]

end ClassScript
