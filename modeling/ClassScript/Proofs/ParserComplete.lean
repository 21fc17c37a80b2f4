import ClassScript.Proofs.ParserSteps

/-! Completeness of the parser: every phrase the grammar derives, the parser reads, with
the same tree, given enough fuel and a token after it that ends the phrase. The parsers
spend fuel without consuming tokens only down a bounded chain of calls, so fuel twelve
times the number of tokens, and a few steps more for each parser, is enough; each parser
is proved at fuel `n + 1` from all of them at fuel `n`. -/
namespace ClassScript

namespace Parse

open Grammar
open Alg (tree)

/-- The expression parsers at fuel `n` read every expression the grammar derives whose
tokens fit the fuel and whose next token ends it. -/
structure ExprComplete (n : Nat) : Prop where
  expression {ts rest : List Token} {e : Expr} : Expression ts e rest → Ends 0 rest →
    12 * ts.length + 13 ≤ n → (expression tree n).run ts = .ok e rest
  binary {k : Nat} {ts rest : List Token} {e : Expr} : Binary k ts e rest → Ends k rest →
    12 * ts.length + 6 + (levels - k) ≤ n → (binary tree n k).run ts = .ok e rest
  binaryRest {k : Nat} {left e : Expr} {ts rest : List Token} : Chain k left ts e rest →
    Ends k rest → 12 * ts.length + 1 ≤ n → (binaryRest tree n k left).run ts = .ok e rest
  unary {k : Nat} {ts rest : List Token} {e : Expr} : Unary ts e rest → Ends k rest →
    12 * ts.length + 5 ≤ n → (unary tree n).run ts = .ok e rest
  callChain {k : Nat} {ts rest : List Token} {e : Expr} : CallChain ts e rest →
    Ends k rest → 12 * ts.length + 4 ≤ n → (callChain tree n).run ts = .ok e rest
  callsAndReads {k : Nat} {callee e : Expr} {ts rest : List Token} :
    Postfixes callee ts e rest → Ends k rest → 12 * ts.length + 3 ≤ n →
      (callsAndReads tree n callee).run ts = .ok e rest
  arguments {callee e : Expr} {args : List Expr} {ts rest : List Token} :
    Arguments callee args ts e rest → 12 * ts.length + 14 ≤ n →
      (arguments tree n callee args).run ts = .ok e rest
  primary {ts rest : List Token} {e : Expr} : Primary ts e rest → 12 * ts.length + 3 ≤ n →
    (primary tree n).run ts = .ok e rest

theorem exprComplete_zero : ExprComplete 0 := by
  constructor <;> intros <;> omega

theorem primary_bareNew {n : Nat} {k c : Token} {rest : List Token} (hk : k.kind = .newKw)
    (hc : c.kind = .identifier) (paren : (peekAt rest 0).kind ≠ .leftParen) :
    (primary tree (n + 1)).run (k :: c :: rest) = .ok (.new (nameOf c)) rest := by
  simp only [primary, peek_bind, peekAt_cons_zero, hk]
  rw [advance_cons _ (by simp [hk]), expect_cons _ hc (by decide), accept_if _ _ (by decide),
    if_neg paren]
  rfl

section ExprStep

variable {n : Nat} (ih : ExprComplete n)
include ih

theorem expression_complete {ts rest : List Token} {e : Expr} (d : Expression ts e rest)
    (ends : Ends 0 rest) (fuel : 12 * ts.length + 13 ≤ n + 1) :
    (expression tree (n + 1)).run ts = .ok e rest := by
  cases d with
  | assign target rhs =>
    rename_i ts₁ first more _
    obtain ⟨path, drop⟩ := target.targetPath_eq
    have length := target.length
    simp only [List.length_cons] at length
    simp only [expression, get_bind, path]
    rw [set_bind, show ts.drop (2 * (more.length + 1)) = ts₁ from drop,
      bind_of_ok (ih.expression rhs ends (by omega))]
    unfold assignTo
    cases more.getLast? <;> rfl
  | binary b =>
    simp only [expression, get_bind, b.targetPath_none ends]
    exact ih.binary b ends (by simp [levels] at fuel ⊢; omega)

theorem binary_complete {k : Nat} {ts rest : List Token} {e : Expr} (d : Binary k ts e rest)
    (ends : Ends k rest) (fuel : 12 * ts.length + 6 + (levels - k) ≤ n + 1) :
    (binary tree (n + 1) k).run ts = .ok e rest := by
  cases d with
  | unary low u =>
    simp only [binary, if_pos low]
    exact ih.unary u ends (by omega)
  | chain high b c =>
    have shorter := b.skips.length_lt
    simp only [binary, if_neg (Nat.not_le.mpr high)]
    rw [bind_of_ok (ih.binary b (c.ends_start ends) (by omega))]
    exact ih.binaryRest c ends (by omega)

theorem binaryRest_complete {k : Nat} {left e : Expr} {ts rest : List Token}
    (d : Chain k left ts e rest) (ends : Ends k rest) (fuel : 12 * ts.length + 1 ≤ n + 1) :
    (binaryRest tree (n + 1) k left).run ts = .ok e rest := by
  cases d with
  | done =>
    simp only [binaryRest, peek_bind, ends.2.2.2 k (Nat.le_refl k)]
    rfl
  | op found b c =>
    rename_i right t ts₀ ts₁ o
    have shorter := b.skips.length_lt
    simp only [List.length_cons] at fuel
    simp only [binaryRest, peek_bind, peekAt_cons_zero, found]
    rw [advance_cons _ (levelOp_ne_eof found),
      bind_of_ok (ih.binary b (c.ends_start ends) (by simp [levels]; omega))]
    exact ih.binaryRest c ends (by omega)

theorem unary_complete {k : Nat} {ts rest : List Token} {e : Expr} (d : Unary ts e rest)
    (ends : Ends k rest) (fuel : 12 * ts.length + 5 ≤ n + 1) :
    (unary tree (n + 1)).run ts = .ok e rest := by
  cases d with
  | not h u | neg h u =>
    simp only [List.length_cons] at fuel
    simp only [unary, peek_bind, peekAt_cons_zero, h]
    rw [advance_cons _ (by simp [h]), bind_of_ok (ih.unary u ends (by omega))]
    rfl
  | call c =>
    -- a call chain starts with neither prefix operator
    obtain ⟨bang, minus⟩ := c.not_prefix
    simp only [unary, peek_bind]
    exact ih.callChain c ends (by omega)

theorem callChain_complete {k : Nat} {ts rest : List Token} {e : Expr} (d : CallChain ts e rest)
    (ends : Ends k rest) (fuel : 12 * ts.length + 4 ≤ n + 1) :
    (callChain tree (n + 1)).run ts = .ok e rest := by
  cases d with
  | primary p ps =>
    have shorter := p.skips.length_lt
    simp only [callChain]
    rw [bind_of_ok (ih.primary p (by omega))]
    exact ih.callsAndReads ps ends (by omega)
  | new hk hc paren ps =>
    cases n with
    | zero => simp at fuel
    | succ n =>
      simp only [callChain]
      rw [bind_of_ok (primary_bareNew hk hc paren)]
      exact ih.callsAndReads ps ends (by simp at fuel ⊢; omega)

theorem callsAndReads_complete {k : Nat} {callee e : Expr} {ts rest : List Token}
    (d : Postfixes callee ts e rest) (ends : Ends k rest) (fuel : 12 * ts.length + 3 ≤ n + 1) :
    (callsAndReads tree (n + 1) callee).run ts = .ok e rest := by
  cases d with
  | done =>
    simp only [callsAndReads]
    rw [accept_if _ _ (by decide), if_neg ends.1, accept_if _ _ (by decide), if_neg ends.2.1]
    rfl
  | call hl a ps =>
    have shorter := a.skips.length_lt
    simp only [List.length_cons] at fuel
    simp only [callsAndReads]
    rw [accept_if _ _ (by decide), peekAt_cons_zero, if_pos hl, List.tail_cons,
      bind_of_ok (ih.arguments a (by omega))]
    exact ih.callsAndReads ps ends (by omega)
  | get hd hn ps =>
    have shorter := ps.skips.length_le
    simp only [List.length_cons] at fuel
    simp only [callsAndReads]
    rw [accept_if _ _ (by decide), peekAt_cons_zero, if_neg (by simp [hd]),
      accept_if _ _ (by decide), peekAt_cons_zero, if_pos hd, List.tail_cons,
      expect_cons _ hn (by decide)]
    exact ih.callsAndReads ps ends (by omega)

theorem arguments_complete {callee e : Expr} {args : List Expr} {ts rest : List Token}
    (d : Arguments callee args ts e rest) (fuel : 12 * ts.length + 14 ≤ n + 1) :
    (arguments tree (n + 1) callee args).run ts = .ok e rest := by
  cases d with
  | close hr =>
    simp only [arguments]
    rw [check_if _ _ (by decide), peekAt_cons_zero, if_pos hr, expect_cons _ hr (by decide)]
    rfl
  | next few arg hc a =>
    rename_i c ts₁
    have starts := arg.starts
    have shorter := arg.skips.length_lt
    have shorter₁ := a.skips.length_lt
    simp only [List.length_cons] at shorter
    simp only [arguments]
    rw [check_if _ _ (by decide), if_neg (by intro same; simp [same, startsExpr] at starts),
      if_neg (Nat.not_le.mpr few),
      bind_of_ok (ih.expression arg (ends_of_stop 0 (by simp [hc])) (by omega)),
      accept_if _ _ (by decide), peekAt_cons_zero, if_pos hc, List.tail_cons]
    exact ih.arguments a (by omega)
  | last few arg hr =>
    have starts := arg.starts
    simp only [arguments]
    rw [check_if _ _ (by decide), if_neg (by intro same; simp [same, startsExpr] at starts),
      if_neg (Nat.not_le.mpr few),
      bind_of_ok (ih.expression arg (ends_of_stop 0 (by simp [hr])) (by omega)),
      accept_if _ _ (by decide), peekAt_cons_zero, if_neg (by simp [hr]),
      expect_cons _ hr (by decide)]
    rfl

theorem primary_complete {ts rest : List Token} {e : Expr} (d : Primary ts e rest)
    (fuel : 12 * ts.length + 3 ≤ n + 1) : (primary tree (n + 1)).run ts = .ok e rest := by
  cases d with
  | var h | false h | true h | null h =>
    simp only [primary, peek_bind, peekAt_cons_zero, h]
    rw [advance_cons _ (by simp [h])]
    rfl
  | literal h =>
    -- the three literal kinds take one branch of the parser's match
    rcases h with h | h | h <;>
    · simp only [primary, peek_bind, peekAt_cons_zero, h]
      rw [advance_cons _ (by simp [h])]
      rfl
  | new hk hc hl hr =>
    simp only [primary, peek_bind, peekAt_cons_zero, hk]
    rw [advance_cons _ (by simp [hk]), expect_cons _ hc (by decide), accept_if _ _ (by decide),
      peekAt_cons_zero, if_pos hl, List.tail_cons, expect_cons _ hr (by decide)]
    rfl
  | grouping hl e hr =>
    simp only [List.length_cons] at fuel
    simp only [primary, peek_bind, peekAt_cons_zero, hl]
    rw [advance_cons _ (by simp [hl]),
      bind_of_ok (ih.expression e (ends_of_stop 0 (by simp [hr])) (by omega)),
      expect_cons _ hr (by decide)]
    rfl

theorem ExprComplete.succ : ExprComplete (n + 1) :=
  ⟨expression_complete ih, binary_complete ih, binaryRest_complete ih, unary_complete ih,
    callChain_complete ih, callsAndReads_complete ih, arguments_complete ih,
    primary_complete ih⟩

end ExprStep

theorem exprComplete : ∀ n, ExprComplete n
  | 0 => exprComplete_zero
  | n + 1 => (exprComplete n).succ

/-! ### Statements -/

section Lookahead

variable {ts rest : List Token}

theorem isType_of_startsExpr {k : Token.Kind} (h : startsExpr k) (name : k ≠ .identifier) :
    k.isType = false := by
  cases k <;> simp_all [startsExpr, Token.Kind.isType]

theorem varAhead_of_expression {e : Expr} {sc : Token} (d : Expression ts e (sc :: rest))
    (hs : sc.kind = .semicolon) : varAhead ts = false := by
  obtain ⟨t, ts', rfl, -, pre, split, -⟩ := d.skips
  have starts := d.starts
  simp only [peekAt_cons_zero] at starts
  by_cases name : t.kind = .identifier
  · cases ts' with
    | nil => simp at split
    | cons u ts'' =>
      have second : u.kind ≠ .identifier := by
        intro hu
        cases d.of_two_names name hu
        simp [hu] at hs
      simp [varAhead, peekAt, name, second]
  · simp [varAhead, name, isType_of_startsExpr starts name]

theorem varAhead_of_statement {s : Stmt} (d : Statement ts s rest) : varAhead ts = false := by
  cases d with
  | expr d hs => exact varAhead_of_expression d hs
  | block h | ifElse h | ifThen h | whileLoop h | forLoop h =>
    simp [varAhead, h, Token.Kind.isType]

theorem varAhead_of_type {t n : Token} (ht : t.kind.isType) (hn : n.kind = .identifier) :
    varAhead (t :: n :: ts) = true := by
  by_cases name : t.kind = .identifier <;> simp [varAhead, peekAt, name, hn, ht]

theorem varAhead_of_varDecl {v : Stmt} (d : VarDecl ts v rest) : varAhead ts = true := by
  cases d with
  | bare ht hn => exact varAhead_of_type ht hn
  | init ht hn => exact varAhead_of_type ht hn

end Lookahead

section Leaves

variable {ts rest : List Token}

theorem condition_complete {n : Nat} {keyword : String} {e : Expr} (d : Condition ts e rest)
    (fuel : 12 * ts.length + 2 ≤ n) : (condition tree n keyword).run ts = .ok e rest := by
  obtain ⟨n, rfl⟩ : ∃ m, n = m + 1 := ⟨n - 1, by omega⟩
  cases d with
  | mk hl d hr =>
    simp only [List.length_cons] at fuel
    simp only [condition]
    rw [expect_cons _ hl (by decide),
      bind_of_ok ((exprComplete n).expression d (ends_of_stop 0 (by simp [hr])) (by omega)),
      expect_cons _ hr (by decide)]
    rfl

theorem expressionStatement_complete {n : Nat} {e : Expr} {sc : Token}
    (d : Expression ts e (sc :: rest)) (hs : sc.kind = .semicolon)
    (fuel : 12 * ts.length + 14 ≤ n) : (expressionStatement tree n).run ts = .ok (.expr e) rest := by
  obtain ⟨n, rfl⟩ : ∃ m, n = m + 1 := ⟨n - 1, by omega⟩
  simp only [expressionStatement]
  rw [bind_of_ok ((exprComplete n).expression d (ends_of_stop 0 (by simp [hs])) (by omega)),
    expect_cons _ hs (by decide)]
  rfl

theorem varDeclaration_complete {n : Nat} {s : Stmt} (d : VarDecl ts s rest)
    (fuel : 12 * ts.length + 1 ≤ n) : (varDeclaration tree n).run ts = .ok s rest := by
  obtain ⟨n, rfl⟩ : ∃ m, n = m + 1 := ⟨n - 1, by omega⟩
  cases d with
  | bare ht hn hs =>
    simp only [varDeclaration, peek_bind, peekAt_cons_zero]
    rw [advance_cons _ (ne_eof_of_isType ht), expect_cons _ hn (by decide),
      accept_bind _ (by decide), peekAt_cons_zero, if_neg (by simp [hs])]
    simp only [Bool.false_eq_true, if_false, pure_bind]
    rw [expect_cons _ hs (by decide)]
    rfl
  | init ht hn hq d hs =>
    simp only [List.length_cons] at fuel
    simp only [varDeclaration, peek_bind, peekAt_cons_zero]
    rw [advance_cons _ (ne_eof_of_isType ht), expect_cons _ hn (by decide),
      accept_bind _ (by decide), peekAt_cons_zero, if_pos hq, List.tail_cons]
    simp only [if_true]
    rw [bind_map_left,
      bind_of_ok ((exprComplete n).expression d (ends_of_stop 0 (by simp [hs])) (by omega)),
      expect_cons _ hs (by decide)]
    rfl

theorem forInit_complete {n : Nat} {init : Option Stmt} (d : ForInit ts init rest)
    (fuel : 12 * ts.length + 14 ≤ n) : (forInit tree n).run ts = .ok init rest := by
  simp only [forInit]
  cases d with
  | none hs =>
    rw [accept_cons_if _ _ (by decide), if_pos hs]
    rfl
  | var v =>
    have starts := v.starts
    rw [accept_if _ _ (by decide), if_neg (by intro same; simp [same, Token.Kind.isType] at starts),
      atVarDeclaration_if, if_pos (varAhead_of_varDecl v)]
    exact map_of_ok (varDeclaration_complete v (by omega))
  | expr d hs =>
    have starts := d.starts
    rw [accept_if _ _ (by decide), if_neg (ne_of_startsExpr starts (by decide)),
      atVarDeclaration_if, if_neg (by simp [varAhead_of_expression d hs])]
    exact map_of_ok (expressionStatement_complete d hs (by omega))

theorem forCond_complete {n : Nat} {e : Expr} {sc : Token} (d : ForCond ts e (sc :: rest))
    (hs : sc.kind = .semicolon) (fuel : 12 * ts.length + 13 ≤ n) :
    (forCond tree n).run ts = .ok e (sc :: rest) := by
  simp only [forCond]
  cases d with
  | omitted =>
    rw [check_if _ _ (by decide), peekAt_cons_zero, if_pos hs]
    rfl
  | given d =>
    have starts := d.starts
    rw [check_if _ _ (by decide), if_neg (ne_of_startsExpr starts (by decide))]
    exact (exprComplete n).expression d (ends_of_stop 0 (by simp [hs])) (by omega)

theorem forIncr_complete {n : Nat} {incr : Option Expr} {r : Token}
    (d : ForIncr ts incr (r :: rest)) (hr : r.kind = .rightParen)
    (fuel : 12 * ts.length + 13 ≤ n) : (forIncr tree n).run ts = .ok incr (r :: rest) := by
  simp only [forIncr]
  cases d with
  | omitted =>
    rw [check_if _ _ (by decide), peekAt_cons_zero, if_pos hr]
    rfl
  | given d =>
    have starts := d.starts
    rw [check_if _ _ (by decide), if_neg (ne_of_startsExpr starts (by decide))]
    exact map_of_ok ((exprComplete n).expression d (ends_of_stop 0 (by simp [hr])) (by omega))

end Leaves

/-! ### Class declarations -/

theorem names_complete {type : Token} {ts rest : List Token} {fields : List FieldDecl}
    (d : FieldNames type ts fields rest) (stop : (peekAt rest 0).kind ≠ .comma) :
    ∀ {m : Nat} {acc : List FieldDecl}, ts.length < m →
      (fieldGroup.names type m acc).run ts = .ok (acc ++ fields) rest := by
  induction d with
  | one hn =>
    intro m acc fuel
    obtain ⟨m, rfl⟩ : ∃ k, m = k + 1 := ⟨m - 1, by omega⟩
    simp only [fieldGroup.names]
    rw [expect_cons _ hn (by decide), accept_if _ _ (by decide), if_neg stop]
    rfl
  | more hn hc _ ih =>
    intro m acc fuel
    obtain ⟨m, rfl⟩ : ∃ k, m = k + 1 := ⟨m - 1, by omega⟩
    simp only [List.length_cons] at fuel
    simp only [fieldGroup.names]
    rw [expect_cons _ hn (by decide), accept_cons_if _ _ (by decide), if_pos hc,
      ih stop (by omega)]
    simp

theorem fieldGroup_complete {t s : Token} {ts rest : List Token} {fields : List FieldDecl}
    (ht : t.kind.isType) (d : FieldNames t ts fields (s :: rest)) (hs : s.kind = .semicolon) :
    fieldGroup.run (t :: ts) = .ok fields rest := by
  simp only [fieldGroup, peek_bind, peekAt_cons_zero, ht, Bool.not_true, Bool.false_eq_true,
    if_false]
  rw [advance_cons _ (ne_eof_of_isType ht), get_bind,
    bind_of_ok (names_complete d (by simp [hs]) (Nat.lt_succ_self _)), expect_cons _ hs (by decide)]
  simp

theorem classBody_complete {ts rest : List Token} {fields : List FieldDecl}
    (d : FieldGroups ts fields rest) :
    ∀ {m : Nat} {acc : List FieldDecl}, ts.length < m →
      (classBody m acc).run ts = .ok (acc ++ fields) rest := by
  induction d with
  | close hr =>
    intro m acc fuel
    obtain ⟨m, rfl⟩ : ∃ k, m = k + 1 := ⟨m - 1, by omega⟩
    simp only [classBody]
    rw [closes_if _ _ (by decide), if_pos (.inl hr), expect_cons _ hr (by decide)]
    simp
  | group ht names hs more ih =>
    intro m acc fuel
    obtain ⟨m, rfl⟩ : ∃ k, m = k + 1 := ⟨m - 1, by omega⟩
    have shorter := names.skips.length_lt
    simp only [List.length_cons] at fuel shorter
    simp only [classBody]
    rw [closes_if _ _ (by decide), if_neg (by
        rw [peekAt_cons_zero]
        rintro (same | same) <;> simp [same, Token.Kind.isType] at ht),
      bind_of_ok (fieldGroup_complete ht names hs), ih (by omega)]
    simp

theorem classDeclaration_complete {name lb : Token} {ts ts₁ rest : List Token}
    {parent : Option Name} {fields : List FieldDecl} (hn : name.kind = .identifier)
    (p : Parent ts parent (lb :: ts₁)) (hlb : lb.kind = .leftBrace)
    (d : FieldGroups ts₁ fields rest) :
    (classDeclaration tree).run (name :: ts) = .ok (.classDecl (nameOf name) parent fields) rest := by
  simp only [classDeclaration]
  rw [expect_cons _ hn (by decide)]
  cases p with
  | none =>
    rw [accept_cons_if _ _ (by decide), if_neg (by simp [hlb]), pure_bind,
      expect_cons _ hlb (by decide), get_bind, bind_of_ok (classBody_complete d (Nat.lt_succ_self _))]
    rfl
  | some he hp =>
    rw [accept_cons_if _ _ (by decide), if_pos he, bind_map_left, expect_cons _ hp (by decide),
      expect_cons _ hlb (by decide), get_bind,
      bind_of_ok (classBody_complete d (Nat.lt_succ_self _))]
    rfl

/-- The statement parsers at fuel `n` read every statement the grammar derives whose tokens
fit the fuel. -/
structure StmtComplete (n : Nat) : Prop where
  declaration {ts rest : List Token} {s : Stmt} : Declaration ts s rest →
    12 * ts.length + 16 ≤ n → (declaration tree n).run ts = .ok s rest
  statement {ts rest : List Token} {s : Stmt} : Statement ts s rest →
    12 * ts.length + 15 ≤ n → (statement tree n).run ts = .ok s rest
  forStatement {f : Token} {ts rest : List Token} {s : Stmt} : f.kind = .forKw →
    Statement (f :: ts) s rest → 12 * ts.length + 3 ≤ n → (forStatement tree n).run ts = .ok s rest
  blockItems {acc body : List Stmt} {r : Token} {ts rest : List Token} :
    Declarations ts body (r :: rest) → r.kind = .rightBrace → 12 * ts.length + 17 ≤ n →
      (blockItems tree n acc).run ts = .ok (acc.reverse ++ body) rest

theorem stmtComplete_zero : StmtComplete 0 := by
  constructor <;> intros <;> omega

section StmtStep

variable {n : Nat} (ih : StmtComplete n)
include ih

theorem declaration_complete {ts rest : List Token} {s : Stmt} (d : Declaration ts s rest)
    (fuel : 12 * ts.length + 16 ≤ n + 1) : (declaration tree (n + 1)).run ts = .ok s rest := by
  simp only [declaration]
  cases d with
  | classDecl hc hn p hlb fields =>
    rw [accept_cons_if _ _ (by decide), if_pos hc]
    exact classDeclaration_complete hn p hlb fields
  | var v =>
    have starts := v.starts
    rw [accept_if _ _ (by decide), if_neg (by intro same; simp [same, Token.Kind.isType] at starts),
      atVarDeclaration_if, if_pos (varAhead_of_varDecl v)]
    exact varDeclaration_complete v (by omega)
  | statement d =>
    have starts := d.starts
    rw [accept_if _ _ (by decide),
      if_neg (by intro same; simp [same, startsStatement, startsExpr] at starts),
      atVarDeclaration_if, if_neg (by simp [varAhead_of_statement d])]
    exact ih.statement d (by omega)

theorem statement_complete {ts rest : List Token} {s : Stmt} (d : Statement ts s rest)
    (fuel : 12 * ts.length + 15 ≤ n + 1) : (statement tree (n + 1)).run ts = .ok s rest := by
  simp only [statement]
  cases d with
  | expr d hs =>
    -- an expression starts with none of the keywords the parser tries first
    have starts := d.starts
    rw [accept_if _ _ (by decide), if_neg (ne_of_startsExpr starts (by decide)),
      accept_if _ _ (by decide), if_neg (ne_of_startsExpr starts (by decide)),
      accept_if _ _ (by decide), if_neg (ne_of_startsExpr starts (by decide)),
      accept_if _ _ (by decide), if_neg (ne_of_startsExpr starts (by decide))]
    exact expressionStatement_complete d hs (by omega)
  | block hl d hr =>
    simp only [List.length_cons] at fuel
    rw [accept_cons_if _ _ (by decide), if_neg (by simp [hl]),
      accept_cons_if _ _ (by decide), if_neg (by simp [hl]),
      accept_cons_if _ _ (by decide), if_neg (by simp [hl]),
      accept_cons_if _ _ (by decide), if_pos hl, bind_of_ok (ih.blockItems d hr (by omega))]
    simp [Alg.tree]
  | ifElse hi c t hel e =>
    have shorter₁ := c.skips.length_lt
    have shorter₂ := t.skips.length_lt
    simp only [List.length_cons] at fuel shorter₂
    rw [accept_cons_if _ _ (by decide), if_neg (by simp [hi]),
      accept_cons_if _ _ (by decide), if_pos hi,
      bind_of_ok (condition_complete c (by omega)), bind_of_ok (ih.statement t (by omega)),
      accept_cons_if _ _ (by decide), if_pos hel, bind_of_ok (ih.statement e (by omega))]
    rfl
  | ifThen hi c t noElse =>
    have shorter := c.skips.length_lt
    simp only [List.length_cons] at fuel
    rw [accept_cons_if _ _ (by decide), if_neg (by simp [hi]),
      accept_cons_if _ _ (by decide), if_pos hi,
      bind_of_ok (condition_complete c (by omega)), bind_of_ok (ih.statement t (by omega)),
      accept_if _ _ (by decide), if_neg noElse]
    rfl
  | whileLoop hw c b =>
    have shorter := c.skips.length_lt
    simp only [List.length_cons] at fuel
    rw [accept_cons_if _ _ (by decide), if_neg (by simp [hw]),
      accept_cons_if _ _ (by decide), if_neg (by simp [hw]),
      accept_cons_if _ _ (by decide), if_pos hw,
      bind_of_ok (condition_complete c (by omega)), bind_of_ok (ih.statement b (by omega))]
    rfl
  | forLoop hf hl init cond hs incr hr body =>
    simp only [List.length_cons] at fuel
    rw [accept_cons_if _ _ (by decide), if_pos hf]
    exact ih.forStatement hf (.forLoop hf hl init cond hs incr hr body) (by simp; omega)

theorem forStatement_complete {f : Token} {ts rest : List Token} {s : Stmt}
    (hf : f.kind = .forKw) (d : Statement (f :: ts) s rest)
    (fuel : 12 * ts.length + 3 ≤ n + 1) : (forStatement tree (n + 1)).run ts = .ok s rest := by
  cases d with
  | forLoop _ hl init cond hs incr hr body =>
    have shorter₁ := init.skips.length_lt
    have shorter₂ := cond.skips.length_le
    have shorter₃ := incr.skips.length_le
    simp only [List.length_cons] at fuel shorter₂ shorter₃
    rw [forStatement_eq, expect_cons _ hl (by decide),
      bind_of_ok (forInit_complete init (by omega)),
      bind_of_ok (forCond_complete cond hs (by omega)), expect_cons _ hs (by decide),
      bind_of_ok (forIncr_complete incr hr (by omega)), expect_cons _ hr (by decide),
      bind_of_ok (ih.statement body (by omega))]
    rfl
  | expr d => simpa [hf, startsExpr] using d.starts
  | block h | ifElse h | ifThen h | whileLoop h => simp [hf] at h

theorem blockItems_complete {acc body : List Stmt} {r : Token} {ts rest : List Token}
    (d : Declarations ts body (r :: rest)) (hr : r.kind = .rightBrace)
    (fuel : 12 * ts.length + 17 ≤ n + 1) :
    (blockItems tree (n + 1) acc).run ts = .ok (acc.reverse ++ body) rest := by
  simp only [blockItems]
  cases d with
  | done =>
    rw [closes_if _ _ (by decide), if_pos (.inl (by simp [hr])), expect_cons _ hr (by decide)]
    simp
  | next d ds =>
    have first := d.starts
    have shorter := d.skips.length_lt
    obtain ⟨t, ts', rfl, ne, -⟩ := d.skips
    rw [closes_if _ _ (by decide), if_neg (by rintro (same | same) <;> simp_all),
      bind_of_ok (ih.declaration d (by omega)), ih.blockItems ds hr (by omega)]
    simp

theorem StmtComplete.succ : StmtComplete (n + 1) :=
  ⟨declaration_complete ih, statement_complete ih, forStatement_complete ih,
    blockItems_complete ih⟩

end StmtStep

theorem stmtComplete : ∀ n, StmtComplete n
  | 0 => stmtComplete_zero
  | n + 1 => (stmtComplete n).succ

end Parse

end ClassScript
