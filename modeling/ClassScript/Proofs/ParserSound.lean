import ClassScript.Proofs.ParserSteps

/-! Soundness of the parser: what it parses, the grammar derives, with the tree the parser
builds. The mutually recursive parsers are proved together by induction on their fuel:
each at fuel `n + 1` from all of them at fuel `n`; at fuel `0` none of them succeeds. -/
namespace ClassScript

namespace Parse

open Grammar
open Alg (tree)

/-- A `new C` with no parentheses after it: a primary expression that only a call chain
derives. -/
def BareNew (ts : List Token) (e : Expr) (rest : List Token) : Prop :=
  ∃ k c, ts = k :: c :: rest ∧ k.kind = .newKw ∧ c.kind = .identifier ∧
    (peekAt rest 0).kind ≠ .leftParen ∧ e = .new (nameOf c)

/-- The expression parsers at fuel `n` give only what the grammar derives. -/
structure ExprSound (n : Nat) : Prop where
  expression {ts rest : List Token} {e : Expr} :
    (expression tree n).run ts = .ok e rest → Expression ts e rest
  binary {k : Nat} {ts rest : List Token} {e : Expr} :
    (binary tree n k).run ts = .ok e rest → Binary k ts e rest
  binaryRest {k : Nat} {left e : Expr} {ts rest : List Token} :
    (binaryRest tree n k left).run ts = .ok e rest → Chain k left ts e rest
  unary {ts rest : List Token} {e : Expr} : (unary tree n).run ts = .ok e rest → Unary ts e rest
  callChain {ts rest : List Token} {e : Expr} :
    (callChain tree n).run ts = .ok e rest → CallChain ts e rest
  callsAndReads {callee e : Expr} {ts rest : List Token} :
    (callsAndReads tree n callee).run ts = .ok e rest → Postfixes callee ts e rest
  arguments {callee e : Expr} {args : List Expr} {ts rest : List Token} :
    (arguments tree n callee args).run ts = .ok e rest → Arguments callee args ts e rest
  primary {ts rest : List Token} {e : Expr} :
    (primary tree n).run ts = .ok e rest → Primary ts e rest ∨ BareNew ts e rest

theorem exhausted_ne_ok {α : Type} {ts rest : List Token} {a : α} :
    (exhausted : Parser α).run ts ≠ .ok a rest := nofun

theorem exprSound_zero : ExprSound 0 :=
  ⟨exhausted_ne_ok.elim, exhausted_ne_ok.elim, exhausted_ne_ok.elim, exhausted_ne_ok.elim,
    exhausted_ne_ok.elim, exhausted_ne_ok.elim, exhausted_ne_ok.elim, exhausted_ne_ok.elim⟩

section ExprStep

variable {n : Nat} (ih : ExprSound n)
include ih

theorem expression_sound {ts rest : List Token} {e : Expr}
    (h : (expression tree (n + 1)).run ts = .ok e rest) : Expression ts e rest := by
  simp only [expression, get_bind] at h
  split at h
  · rename_i first more path
    rw [set_bind] at h
    obtain ⟨rhs, ts₁, hrhs, h⟩ := bind_eq_ok h
    have d := Expression.assign (target_of_targetPath path) (ih.expression hrhs)
    -- the parser builds the tree of `assignTo` by the same match on the last name
    split at h <;> rename_i last <;> cases h <;> simpa [assignTo, last, Alg.tree] using d
  · exact .binary (ih.binary h)

theorem binary_sound {k : Nat} {ts rest : List Token} {e : Expr}
    (h : (binary tree (n + 1) k).run ts = .ok e rest) : Binary k ts e rest := by
  simp only [binary] at h
  split at h
  · exact .unary ‹_› (ih.unary h)
  · obtain ⟨first, ts₁, hfirst, h⟩ := bind_eq_ok h
    exact .chain (by omega) (ih.binary hfirst) (ih.binaryRest h)

theorem binaryRest_sound {k : Nat} {left e : Expr} {ts rest : List Token}
    (h : (binaryRest tree (n + 1) k left).run ts = .ok e rest) : Chain k left ts e rest := by
  simp only [binaryRest, peek_bind] at h
  split at h
  · rename_i o found
    obtain ⟨t, ts', rfl, -⟩ := cons_of_peek rfl (levelOp_ne_eof found)
    have ne : t.kind ≠ .eof := levelOp_ne_eof found
    rw [advance_cons _ ne] at h
    obtain ⟨right, ts₁, hright, h⟩ := bind_eq_ok h
    exact .op found (ih.binary hright) (ih.binaryRest h)
  · cases h
    exact .done

theorem unary_sound {ts rest : List Token} {e : Expr}
    (h : (unary tree (n + 1)).run ts = .ok e rest) : Unary ts e rest := by
  simp only [unary, peek_bind] at h
  split at h
  · obtain ⟨t, ts', rfl, ht⟩ := cons_of_peek ‹_› (by decide)
    rw [advance_cons _ (by simp [ht])] at h
    obtain ⟨e', ts₁, he, h⟩ := bind_eq_ok h
    cases h
    exact .not ht (ih.unary he)
  · obtain ⟨t, ts', rfl, ht⟩ := cons_of_peek ‹_› (by decide)
    rw [advance_cons _ (by simp [ht])] at h
    obtain ⟨e', ts₁, he, h⟩ := bind_eq_ok h
    cases h
    exact .neg ht (ih.unary he)
  · exact .call (ih.callChain h)

theorem callChain_sound {ts rest : List Token} {e : Expr}
    (h : (callChain tree (n + 1)).run ts = .ok e rest) : CallChain ts e rest := by
  simp only [callChain] at h
  obtain ⟨first, ts₁, hfirst, h⟩ := bind_eq_ok h
  rcases ih.primary hfirst with p | ⟨k, c, rfl, hk, hc, paren, rfl⟩
  · exact .primary p (ih.callsAndReads h)
  · exact .new hk hc paren (ih.callsAndReads h)

theorem callsAndReads_sound {callee e : Expr} {ts rest : List Token}
    (h : (callsAndReads tree (n + 1) callee).run ts = .ok e rest) : Postfixes callee ts e rest := by
  simp only [callsAndReads] at h
  rw [accept_if _ _ (by decide)] at h
  split at h
  · obtain ⟨l, ts', rfl, hl⟩ := cons_of_peek ‹_› (by decide)
    obtain ⟨call, ts₁, hcall, h⟩ := bind_eq_ok h
    exact .call hl (ih.arguments hcall) (ih.callsAndReads h)
  · rw [accept_if _ _ (by decide)] at h
    split at h
    · obtain ⟨d, ts', rfl, hd⟩ := cons_of_peek ‹_› (by decide)
      obtain ⟨name, ts'', rfl, hn, h⟩ := expect_ok h (by decide)
      exact .get hd hn (ih.callsAndReads h)
    · cases h
      exact .done

theorem arguments_sound {callee e : Expr} {args : List Expr} {ts rest : List Token}
    (h : (arguments tree (n + 1) callee args).run ts = .ok e rest) :
    Arguments callee args ts e rest := by
  simp only [arguments] at h
  rw [check_if _ _ (by decide)] at h
  split at h
  · obtain ⟨r, ts', rfl, hr, h⟩ := expect_ok h (by decide)
    cases h
    exact .close hr
  · split at h
    · cases h
    · obtain ⟨arg, ts₁, harg, h⟩ := bind_eq_ok h
      rw [accept_if _ _ (by decide)] at h
      split at h
      · obtain ⟨c, ts₂, rfl, hc⟩ := cons_of_peek ‹_› (by decide)
        exact .next (by omega) (ih.expression harg) hc (ih.arguments h)
      · obtain ⟨r, ts₂, rfl, hr, h⟩ := expect_ok h (by decide)
        cases h
        exact .last (by omega) (ih.expression harg) hr

omit ih in
theorem advance_pure_ok {k : Token.Kind} {ts rest : List Token} {v e : Expr}
    (h : (advance >>= fun _ => pure v : Parser Expr).run ts = .ok e rest)
    (hk : (peekAt ts 0).kind = k) (ne : k ≠ .eof) : ∃ t, ts = t :: rest ∧ t.kind = k ∧ e = v := by
  obtain ⟨t, ts', rfl, ht⟩ := cons_of_peek hk ne
  rw [advance_cons _ (by simp [ht, ne])] at h
  cases h
  exact ⟨t, rfl, ht, rfl⟩

theorem primary_sound {ts rest : List Token} {e : Expr}
    (h : (primary tree (n + 1)).run ts = .ok e rest) : Primary ts e rest ∨ BareNew ts e rest := by
  simp only [primary, peek_bind] at h
  split at h
  · obtain ⟨t, rfl, ht, rfl⟩ := advance_pure_ok h ‹_› (by decide)
    exact .inl (.var ht)
  · obtain ⟨t, rfl, ht, rfl⟩ := advance_pure_ok h ‹_› (by decide)
    exact .inl (.false ht)
  · obtain ⟨t, rfl, ht, rfl⟩ := advance_pure_ok h ‹_› (by decide)
    exact .inl (.true ht)
  · obtain ⟨t, rfl, ht, rfl⟩ := advance_pure_ok h ‹_› (by decide)
    exact .inl (.null ht)
  · obtain ⟨t, rfl, ht, rfl⟩ := advance_pure_ok h ‹_› (by decide)
    exact .inl (.literal (.inl ht))
  · obtain ⟨t, rfl, ht, rfl⟩ := advance_pure_ok h ‹_› (by decide)
    exact .inl (.literal (.inr (.inl ht)))
  · obtain ⟨t, rfl, ht, rfl⟩ := advance_pure_ok h ‹_› (by decide)
    exact .inl (.literal (.inr (.inr ht)))
  · -- `new C`, with `()` or with nothing after it
    obtain ⟨k, ts', rfl, hk⟩ := cons_of_peek ‹_› (by decide)
    rw [advance_cons _ (by simp [hk])] at h
    obtain ⟨c, ts'', rfl, hc, h⟩ := expect_ok h (by decide)
    rw [accept_if _ _ (by decide)] at h
    split at h
    · obtain ⟨l, ts₃, rfl, hl⟩ := cons_of_peek ‹_› (by decide)
      obtain ⟨r, ts₄, rfl, hr, h⟩ := expect_ok h (by decide)
      cases h
      exact .inl (.new hk hc hl hr)
    · cases h
      exact .inr ⟨k, c, rfl, hk, hc, ‹_›, rfl⟩
  · obtain ⟨l, ts', rfl, hl⟩ := cons_of_peek ‹_› (by decide)
    rw [advance_cons _ (by simp [hl])] at h
    obtain ⟨e', ts₁, he, h⟩ := bind_eq_ok h
    obtain ⟨r, ts₂, rfl, hr, h⟩ := expect_ok h (by decide)
    cases h
    exact .inl (.grouping hl (ih.expression he) hr)
  · simp at h

theorem ExprSound.succ : ExprSound (n + 1) :=
  ⟨expression_sound ih, binary_sound ih, binaryRest_sound ih, unary_sound ih,
    callChain_sound ih, callsAndReads_sound ih, arguments_sound ih, primary_sound ih⟩

end ExprStep

theorem exprSound : ∀ n, ExprSound n
  | 0 => exprSound_zero
  | n + 1 => (exprSound n).succ

/-! ### Statements -/

section Leaves

variable {ts rest : List Token}

theorem condition_sound {n : Nat} {keyword : String} {e : Expr}
    (h : (condition tree n keyword).run ts = .ok e rest) : Condition ts e rest := by
  cases n with
  | zero => exact absurd h exhausted_ne_ok
  | succ n =>
    simp only [condition] at h
    obtain ⟨l, ts', rfl, hl, h⟩ := expect_ok h (by decide)
    obtain ⟨c, ts₁, hc, h⟩ := bind_eq_ok h
    obtain ⟨r, ts₂, rfl, hr, h⟩ := expect_ok h (by decide)
    cases h
    exact .mk hl ((exprSound n).expression hc) hr

theorem expressionStatement_sound {n : Nat} {s : Stmt}
    (h : (expressionStatement tree n).run ts = .ok s rest) :
    ∃ e sc, s = .expr e ∧ Expression ts e (sc :: rest) ∧ sc.kind = .semicolon := by
  cases n with
  | zero => exact absurd h exhausted_ne_ok
  | succ n =>
    simp only [expressionStatement] at h
    obtain ⟨e, ts₁, he, h⟩ := bind_eq_ok h
    obtain ⟨sc, ts₂, rfl, hs, h⟩ := expect_ok h (by decide)
    cases h
    exact ⟨e, sc, rfl, (exprSound n).expression he, hs⟩

theorem varDeclaration_sound {n : Nat} {s : Stmt} (h : (varDeclaration tree n).run ts = .ok s rest)
    (type : (peekAt ts 0).kind.isType) : VarDecl ts s rest := by
  cases n with
  | zero => exact absurd h exhausted_ne_ok
  | succ n =>
    simp only [varDeclaration, peek_bind] at h
    obtain ⟨t, ts', rfl, -⟩ := cons_of_peek rfl (ne_eof_of_isType type)
    have ne : t.kind ≠ .eof := ne_eof_of_isType type
    rw [advance_cons _ ne] at h
    obtain ⟨name, ts₁, rfl, hn, h⟩ := expect_ok h (by decide)
    rw [accept_bind _ (by decide)] at h
    split at h
    · obtain ⟨q, ts₂, rfl, hq⟩ := cons_of_peek ‹_› (by decide)
      simp only [if_true] at h
      rw [bind_map_left] at h
      obtain ⟨e, ts₃, he, h⟩ := bind_eq_ok h
      obtain ⟨sc, ts₄, rfl, hs, h⟩ := expect_ok h (by decide)
      cases h
      exact .init type hn hq ((exprSound n).expression he) hs
    · simp only [Bool.false_eq_true, if_false, pure_bind] at h
      obtain ⟨sc, ts₂, rfl, hs, h⟩ := expect_ok h (by decide)
      cases h
      exact .bare type hn hs

theorem forInit_sound {n : Nat} {init : Option Stmt} (h : (forInit tree n).run ts = .ok init rest) :
    ForInit ts init rest := by
  simp only [forInit] at h
  rw [accept_if _ _ (by decide)] at h
  split at h
  · obtain ⟨s, ts', rfl, hs⟩ := cons_of_peek ‹_› (by decide)
    cases h
    exact .none hs
  · rw [atVarDeclaration_if] at h
    split at h
    · obtain ⟨v, hv, rfl⟩ := map_eq_ok h
      exact .var (varDeclaration_sound hv (varAhead_isType ‹_›))
    · obtain ⟨s, hs, rfl⟩ := map_eq_ok h
      obtain ⟨e, sc, rfl, d, hsc⟩ := expressionStatement_sound hs
      exact .expr d hsc

theorem forCond_sound {n : Nat} {e : Expr} (h : (forCond tree n).run ts = .ok e rest) :
    ForCond ts e rest := by
  simp only [forCond] at h
  rw [check_if _ _ (by decide)] at h
  split at h
  · cases h
    exact .omitted
  · cases n with
    | zero => exact absurd h exhausted_ne_ok
    | succ n => exact .given ((exprSound _).expression h)

theorem forIncr_sound {n : Nat} {e : Option Expr} (h : (forIncr tree n).run ts = .ok e rest) :
    ForIncr ts e rest := by
  simp only [forIncr] at h
  rw [check_if _ _ (by decide)] at h
  split at h
  · cases h
    exact .omitted
  · obtain ⟨e, he, rfl⟩ := map_eq_ok h
    exact .given ((exprSound n).expression he)

end Leaves

/-! ### Class declarations -/

theorem names_sound {type : Token} : ∀ {m : Nat} {acc fields : List FieldDecl}
    {ts rest : List Token}, (fieldGroup.names type m acc).run ts = .ok fields rest →
    ∃ fs, fields = acc ++ fs ∧ FieldNames type ts fs rest
  | 0, _, _, _, _, h => absurd h exhausted_ne_ok
  | m + 1, acc, fields, ts, rest, h => by
    simp only [fieldGroup.names] at h
    obtain ⟨name, ts', rfl, hn, h⟩ := expect_ok h (by decide)
    rw [accept_if _ _ (by decide)] at h
    split at h
    · obtain ⟨c, ts'', rfl, hc⟩ := cons_of_peek ‹_› (by decide)
      obtain ⟨fs, rfl, d⟩ := names_sound h
      exact ⟨_ :: fs, by simp, .more hn hc d⟩
    · cases h
      exact ⟨_, rfl, .one hn⟩

theorem fieldGroup_sound {ts rest : List Token} {fields : List FieldDecl}
    (h : fieldGroup.run ts = .ok fields rest) :
    ∃ t ts' s, ts = t :: ts' ∧ t.kind.isType ∧ FieldNames t ts' fields (s :: rest) ∧
      s.kind = .semicolon := by
  simp only [fieldGroup, peek_bind] at h
  split at h
  · simp at h
  · rename_i type
    have type : (peekAt ts 0).kind.isType = true := by simpa using type
    obtain ⟨t, ts', rfl, -⟩ := cons_of_peek rfl (ne_eof_of_isType type)
    have ne : t.kind ≠ .eof := ne_eof_of_isType type
    rw [advance_cons _ ne, get_bind] at h
    obtain ⟨names, ts₁, hnames, h⟩ := bind_eq_ok h
    obtain ⟨s, ts₂, rfl, hs, h⟩ := expect_ok h (by decide)
    cases h
    obtain ⟨fs, rfl, d⟩ := names_sound hnames
    exact ⟨t, ts', s, rfl, type, by simpa using d, hs⟩

theorem classBody_sound : ∀ {m : Nat} {acc fields : List FieldDecl} {ts rest : List Token},
    (classBody m acc).run ts = .ok fields rest → ∃ fs, fields = acc ++ fs ∧ FieldGroups ts fs rest
  | 0, _, _, _, _, h => absurd h exhausted_ne_ok
  | m + 1, acc, fields, ts, rest, h => by
    simp only [classBody] at h
    rw [closes_if _ _ (by decide)] at h
    split at h
    · obtain ⟨r, ts', rfl, hr, h⟩ := expect_ok h (by decide)
      cases h
      exact ⟨[], by simp, .close hr⟩
    · obtain ⟨group, ts₁, hg, more⟩ := bind_eq_ok h
      obtain ⟨t, ts', s, rfl, type, names, hs⟩ := fieldGroup_sound hg
      obtain ⟨fs, rfl, d⟩ := classBody_sound more
      exact ⟨group ++ fs, by simp, .group type names hs d⟩

theorem classDeclaration_sound {c : Token} {ts rest : List Token} {s : Stmt}
    (hc : c.kind = .classKw) (h : (classDeclaration tree).run ts = .ok s rest) :
    Declaration (c :: ts) s rest := by
  simp only [classDeclaration] at h
  obtain ⟨name, ts', rfl, hn, h⟩ := expect_ok h (by decide)
  rw [accept_if _ _ (by decide)] at h
  split at h
  · obtain ⟨e, ts'', rfl, he⟩ := cons_of_peek ‹_› (by decide)
    rw [bind_map_left] at h
    obtain ⟨p, ts₁, rfl, hp, h⟩ := expect_ok h (by decide)
    obtain ⟨lb, ts₂, rfl, hlb, h⟩ := expect_ok h (by decide)
    rw [get_bind] at h
    obtain ⟨fields, ts₃, hfields, h⟩ := bind_eq_ok h
    cases h
    obtain ⟨fs, rfl, d⟩ := classBody_sound hfields
    exact .classDecl hc hn (.some he hp) hlb (by simpa using d)
  · rw [pure_bind] at h
    obtain ⟨lb, ts₂, rfl, hlb, h⟩ := expect_ok h (by decide)
    rw [get_bind] at h
    obtain ⟨fields, ts₃, hfields, h⟩ := bind_eq_ok h
    cases h
    obtain ⟨fs, rfl, d⟩ := classBody_sound hfields
    exact .classDecl hc hn .none hlb (by simpa using d)

/-- The statement parsers at fuel `n` give only what the grammar derives. -/
structure StmtSound (n : Nat) : Prop where
  declaration {ts rest : List Token} {s : Stmt} :
    (declaration tree n).run ts = .ok s rest → Declaration ts s rest
  statement {ts rest : List Token} {s : Stmt} :
    (statement tree n).run ts = .ok s rest → Statement ts s rest
  forStatement {f : Token} {ts rest : List Token} {s : Stmt} : f.kind = .forKw →
    (forStatement tree n).run ts = .ok s rest → Statement (f :: ts) s rest
  blockItems {acc ss : List Stmt} {ts rest : List Token} :
    (blockItems tree n acc).run ts = .ok ss rest →
      ∃ body r, ss = acc.reverse ++ body ∧ Declarations ts body (r :: rest) ∧
        r.kind = .rightBrace

theorem stmtSound_zero : StmtSound 0 :=
  ⟨exhausted_ne_ok.elim, exhausted_ne_ok.elim, fun _ => exhausted_ne_ok.elim,
    exhausted_ne_ok.elim⟩

section StmtStep

variable {n : Nat} (ih : StmtSound n)
include ih

theorem declaration_sound {ts rest : List Token} {s : Stmt}
    (h : (declaration tree (n + 1)).run ts = .ok s rest) : Declaration ts s rest := by
  simp only [declaration] at h
  rw [accept_if _ _ (by decide)] at h
  split at h
  · obtain ⟨c, ts', rfl, hc⟩ := cons_of_peek ‹_› (by decide)
    exact classDeclaration_sound hc h
  · rw [atVarDeclaration_if] at h
    split at h
    · exact .var (varDeclaration_sound h (varAhead_isType ‹_›))
    · exact .statement (ih.statement h)

theorem statement_sound {ts rest : List Token} {s : Stmt}
    (h : (statement tree (n + 1)).run ts = .ok s rest) : Statement ts s rest := by
  simp only [statement] at h
  rw [accept_if _ _ (by decide)] at h
  split at h
  · obtain ⟨f, ts', rfl, hf⟩ := cons_of_peek ‹_› (by decide)
    exact ih.forStatement hf h
  rw [accept_if _ _ (by decide)] at h
  split at h
  · obtain ⟨i, ts', rfl, hi⟩ := cons_of_peek ‹_› (by decide)
    obtain ⟨c, ts₁, hc, h⟩ := bind_eq_ok h
    obtain ⟨t, ts₂, ht, h⟩ := bind_eq_ok h
    rw [accept_bind _ (by decide)] at h
    split at h
    · obtain ⟨el, ts₃, rfl, hel⟩ := cons_of_peek ‹_› (by decide)
      simp only [if_true] at h
      obtain ⟨e, ts₄, he, h⟩ := bind_eq_ok h
      cases h
      exact .ifElse hi (condition_sound hc) (ih.statement ht) hel (ih.statement he)
    · simp only [Bool.false_eq_true, if_false, pure_bind] at h
      cases h
      exact .ifThen hi (condition_sound hc) (ih.statement ht) ‹_›
  rw [accept_if _ _ (by decide)] at h
  split at h
  · obtain ⟨w, ts', rfl, hw⟩ := cons_of_peek ‹_› (by decide)
    obtain ⟨c, ts₁, hc, h⟩ := bind_eq_ok h
    obtain ⟨b, ts₂, hb, h⟩ := bind_eq_ok h
    cases h
    exact .whileLoop hw (condition_sound hc) (ih.statement hb)
  rw [accept_if _ _ (by decide)] at h
  split at h
  · obtain ⟨l, ts', rfl, hl⟩ := cons_of_peek ‹_› (by decide)
    obtain ⟨ss, ts₁, hss, h⟩ := bind_eq_ok h
    cases h
    obtain ⟨body, r, rfl, d, hr⟩ := ih.blockItems hss
    exact .block hl (by simpa using d) hr
  · obtain ⟨e, sc, rfl, d, hs⟩ := expressionStatement_sound h
    exact .expr d hs

theorem forStatement_sound {f : Token} {ts rest : List Token} {s : Stmt} (hf : f.kind = .forKw)
    (h : (forStatement tree (n + 1)).run ts = .ok s rest) : Statement (f :: ts) s rest := by
  rw [forStatement_eq tree] at h
  obtain ⟨l, ts', rfl, hl, h⟩ := expect_ok h (by decide)
  obtain ⟨init, ts₁, hinit, h⟩ := bind_eq_ok h
  obtain ⟨cond, ts₂, hcond, h⟩ := bind_eq_ok h
  obtain ⟨sc, ts₃, rfl, hs, h⟩ := expect_ok h (by decide)
  obtain ⟨incr, ts₄, hincr, h⟩ := bind_eq_ok h
  obtain ⟨r, ts₅, rfl, hr, h⟩ := expect_ok h (by decide)
  obtain ⟨body, ts₆, hbody, h⟩ := bind_eq_ok h
  cases h
  exact .forLoop hf hl (forInit_sound hinit) (forCond_sound hcond) hs (forIncr_sound hincr) hr
    (ih.statement hbody)

theorem blockItems_sound {acc ss : List Stmt} {ts rest : List Token}
    (h : (blockItems tree (n + 1) acc).run ts = .ok ss rest) :
    ∃ body r, ss = acc.reverse ++ body ∧ Declarations ts body (r :: rest) ∧
      r.kind = .rightBrace := by
  simp only [blockItems] at h
  rw [closes_if _ _ (by decide)] at h
  split at h
  · obtain ⟨r, ts', rfl, hr, h⟩ := expect_ok h (by decide)
    cases h
    exact ⟨[], r, by simp, .done, hr⟩
  · obtain ⟨s, ts₁, hs, h⟩ := bind_eq_ok h
    obtain ⟨body, r, rfl, d, hr⟩ := ih.blockItems h
    exact ⟨s :: body, r, by simp, .next (ih.declaration hs) d, hr⟩

theorem StmtSound.succ : StmtSound (n + 1) :=
  ⟨declaration_sound ih, statement_sound ih, forStatement_sound ih, blockItems_sound ih⟩

end StmtStep

theorem stmtSound : ∀ n, StmtSound n
  | 0 => stmtSound_zero
  | n + 1 => (stmtSound n).succ

end Parse

end ClassScript
