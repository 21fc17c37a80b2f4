import ClassScript.Proofs.Scoping
import ClassScript.Syntax.Incomplete

/-! Brackets in accepted programs. Every phrase of the grammar holds as many `(` as `)`
and as many `{` as `}`: brackets enter a phrase only in pairs, around arguments,
groupings, `new C()`, conditions, `for` headers, blocks and class bodies. A source the
parser accepts therefore opens no bracket it does not close, and an interactive reader
never asks for more after it. -/
namespace ClassScript

namespace Grammar

open Parse (levelOp)

/-- `ts` begins with tokens that hold as many `(` as `)` and as many `{` as `}`, and
`rest` follows them. -/
def Balanced (ts rest : List Token) : Prop :=
  ∃ pre, ts = pre ++ rest ∧
    pre.countP (·.kind = .leftParen) = pre.countP (·.kind = .rightParen) ∧
    pre.countP (·.kind = .leftBrace) = pre.countP (·.kind = .rightBrace)

namespace Balanced

variable {t l r : Token} {k : Token.Kind} {ts ts₁ rest : List Token}

theorem refl (ts : List Token) : Balanced ts ts := ⟨[], rfl, rfl, rfl⟩

theorem trans (h₁ : Balanced ts ts₁) (h₂ : Balanced ts₁ rest) : Balanced ts rest := by
  obtain ⟨pre₁, rfl, parens₁, braces₁⟩ := h₁
  obtain ⟨pre₂, rfl, parens₂, braces₂⟩ := h₂
  refine ⟨pre₁ ++ pre₂, by simp, ?_, ?_⟩ <;> simp only [List.countP_append] <;> omega

theorem cons (hk : t.kind = k) (plain : k.depthChange = 0) (h : Balanced ts rest) :
    Balanced (t :: ts) rest := by
  obtain ⟨pre, rfl, parens, braces⟩ := h
  subst hk
  refine ⟨t :: pre, rfl, ?_, ?_⟩ <;>
    rcases t with ⟨k, _, _, _⟩ <;> cases k <;>
    simp_all [Token.Kind.depthChange]

theorem enclose (pair : l.kind = .leftParen ∧ r.kind = .rightParen ∨
      l.kind = .leftBrace ∧ r.kind = .rightBrace)
    (h : Balanced ts (r :: rest)) : Balanced (l :: ts) rest := by
  obtain ⟨pre, split, parens, braces⟩ := h
  refine ⟨l :: pre ++ [r], by simp [split], ?_, ?_⟩ <;>
    rcases pair with ⟨hl, hr⟩ | ⟨hl, hr⟩ <;>
    simp [List.countP_append, hl, hr, parens, braces]

end Balanced

theorem depthChange_of_isType {kind : Token.Kind} (h : kind.isType = true) :
    kind.depthChange = 0 := by
  cases kind <;> simp_all [Token.Kind.isType, Token.Kind.depthChange]

theorem depthChange_of_levelOp {k : Nat} {kind : Token.Kind} {o : LogicOp ⊕ BinaryOp}
    (h : levelOp k kind = some o) : kind.depthChange = 0 := by
  have op := (levelOp_eq_some h).2.2
  simp only [operatorKinds, List.mem_cons, List.not_mem_nil, or_false] at op
  rcases op with rfl | rfl | rfl | rfl | rfl | rfl | rfl | rfl | rfl | rfl | rfl | rfl <;> rfl

theorem Target.balanced {ts names rest : List Token} (h : Target ts names rest) :
    Balanced ts rest := by
  induction h with
  | name ht hu => exact ((Balanced.refl _).cons hu rfl).cons ht rfl
  | field ht hu _ ih => exact (ih.cons hu rfl).cons ht rfl

mutual

theorem Expression.balanced {ts rest : List Token} {e : Expr} :
    Expression ts e rest → Balanced ts rest
  | .assign target d => target.balanced.trans d.balanced
  | .binary d => d.balanced

theorem Binary.balanced {k : Nat} {ts rest : List Token} {e : Expr} :
    Binary k ts e rest → Balanced ts rest
  | .unary _ d => d.balanced
  | .chain _ d c => d.balanced.trans c.balanced

theorem Chain.balanced {k : Nat} {left e : Expr} {ts rest : List Token} :
    Chain k left ts e rest → Balanced ts rest
  | .done => .refl _
  | .op h d c => (d.balanced.trans c.balanced).cons rfl (depthChange_of_levelOp h)

theorem Unary.balanced {ts rest : List Token} {e : Expr} : Unary ts e rest → Balanced ts rest
  | .not h d => d.balanced.cons h rfl
  | .neg h d => d.balanced.cons h rfl
  | .call d => d.balanced

theorem CallChain.balanced {ts rest : List Token} {e : Expr} :
    CallChain ts e rest → Balanced ts rest
  | .primary d p => d.balanced.trans p.balanced
  | .new hk hc _ p => (p.balanced.cons hc rfl).cons hk rfl

theorem Postfixes.balanced {callee e : Expr} {ts rest : List Token} :
    Postfixes callee ts e rest → Balanced ts rest
  | .call hl a p => by
    -- the arguments run up to the `)` that closes this call's `(`
    obtain ⟨r, hr, args⟩ := a.balanced
    exact (args.enclose (.inl ⟨hl, hr⟩)).trans p.balanced
  | .get hd hn p => (p.balanced.cons hn rfl).cons hd rfl
  | .done => .refl _

theorem Arguments.balanced {callee e : Expr} {args : List Expr} {ts rest : List Token} :
    Arguments callee args ts e rest → ∃ r, r.kind = .rightParen ∧ Balanced ts (r :: rest)
  | .close hr => ⟨_, hr, .refl _⟩
  | .next _ d hc a => by
    obtain ⟨r, hr, more⟩ := a.balanced
    exact ⟨r, hr, d.balanced.trans (more.cons hc rfl)⟩
  | .last _ d hr => ⟨_, hr, d.balanced⟩

theorem Primary.balanced {ts rest : List Token} {e : Expr} : Primary ts e rest → Balanced ts rest
  | .var h | .false h | .true h | .null h =>
    (Balanced.refl _).cons h rfl
  | .literal h => (Balanced.refl _).cons rfl
    (by rcases h with h | h | h <;> simp [h, Token.Kind.depthChange])
  | .new hk hc hl hr => (((Balanced.refl _).enclose (.inl ⟨hl, hr⟩)).cons hc rfl).cons hk rfl
  | .grouping hl d hr => d.balanced.enclose (.inl ⟨hl, hr⟩)

end

theorem Condition.balanced {ts rest : List Token} {e : Expr} (h : Condition ts e rest) :
    Balanced ts rest := by
  cases h with
  | mk hl d hr => exact d.balanced.enclose (.inl ⟨hl, hr⟩)

theorem VarDecl.balanced {ts rest : List Token} {v : Stmt} (h : VarDecl ts v rest) :
    Balanced ts rest := by
  cases h with
  | bare ht hn hs =>
    exact (((Balanced.refl _).cons hs rfl).cons hn rfl).cons rfl (depthChange_of_isType ht)
  | init ht hn hq d hs =>
    exact (((d.balanced.trans ((Balanced.refl _).cons hs rfl)).cons hq rfl).cons hn rfl).cons rfl
      (depthChange_of_isType ht)

theorem ForInit.balanced {ts rest : List Token} {init : Option Stmt} (h : ForInit ts init rest) :
    Balanced ts rest := by
  cases h with
  | none hs => exact (Balanced.refl _).cons hs rfl
  | var d => exact d.balanced
  | expr d hs => exact d.balanced.trans ((Balanced.refl _).cons hs rfl)

theorem ForCond.balanced {ts rest : List Token} {e : Expr} (h : ForCond ts e rest) :
    Balanced ts rest := by
  cases h with
  | omitted => exact .refl _
  | given d => exact d.balanced

theorem ForIncr.balanced {ts rest : List Token} {e : Option Expr} (h : ForIncr ts e rest) :
    Balanced ts rest := by
  cases h with
  | omitted => exact .refl _
  | given d => exact d.balanced

theorem Parent.balanced {ts rest : List Token} {p : Option Name} (h : Parent ts p rest) :
    Balanced ts rest := by
  cases h with
  | none => exact .refl _
  | some he hp => exact ((Balanced.refl _).cons hp rfl).cons he rfl

theorem FieldNames.balanced {type : Token} {ts rest : List Token} {fields : List FieldDecl}
    (h : FieldNames type ts fields rest) : Balanced ts rest := by
  induction h with
  | one hn => exact (Balanced.refl _).cons hn rfl
  | more hn hc _ ih => exact (ih.cons hc rfl).cons hn rfl

theorem FieldGroups.balanced {ts rest : List Token} {fields : List FieldDecl}
    (h : FieldGroups ts fields rest) : ∃ r, r.kind = .rightBrace ∧ Balanced ts (r :: rest) := by
  induction h with
  | close hr => exact ⟨_, hr, .refl _⟩
  | group ht names hs _ ih =>
    obtain ⟨r, hr, more⟩ := ih
    exact ⟨r, hr, ((names.balanced.trans
      ((Balanced.refl _).cons hs rfl)).trans more).cons rfl
      (depthChange_of_isType ht)⟩

mutual

theorem Statement.balanced {ts rest : List Token} {s : Stmt} :
    Statement ts s rest → Balanced ts rest
  | .expr d hs => d.balanced.trans ((Balanced.refl _).cons hs rfl)
  | .block hl d hr => d.balanced.enclose (.inr ⟨hl, hr⟩)
  | .ifElse hi c t he e => (c.balanced.trans (t.balanced.trans
      (e.balanced.cons he rfl))).cons hi rfl
  | .ifThen hi c t _ => (c.balanced.trans t.balanced).cons hi rfl
  | .whileLoop hw c b => (c.balanced.trans b.balanced).cons hw rfl
  | .forLoop hf hl init cond hs incr hr body =>
    -- the header's `(` closes at the `)` before the body
    (((init.balanced.trans (cond.balanced.trans
      (incr.balanced.cons hs rfl))).enclose
      (.inl ⟨hl, hr⟩)).trans body.balanced).cons hf rfl

theorem Declaration.balanced {ts rest : List Token} {s : Stmt} :
    Declaration ts s rest → Balanced ts rest
  | .classDecl hc hn p hlb fields => by
    obtain ⟨r, hr, body⟩ := fields.balanced
    exact ((p.balanced.trans (body.enclose (.inr ⟨hlb, hr⟩))).cons hn rfl).cons hc rfl
  | .var d => d.balanced
  | .statement d => d.balanced

theorem Declarations.balanced {ts rest : List Token} {ss : List Stmt} :
    Declarations ts ss rest → Balanced ts rest
  | .done => .refl _
  | .next d ds => d.balanced.trans ds.balanced

end

/-- The tokens before `Eof` of a program hold as many `(` as `)` and as many `{` as `}`. -/
theorem Program.brackets_pair {body : List Token} {eof : Token} {stmts : List Stmt}
    (p : Program body eof stmts) :
    body.countP (·.kind = .leftParen) = body.countP (·.kind = .rightParen) ∧
      body.countP (·.kind = .leftBrace) = body.countP (·.kind = .rightBrace) := by
  obtain ⟨pre, split, parens, braces⟩ := Declarations.balanced p
  have same : body = pre := List.append_cancel_right split
  subst same
  exact ⟨parens, braces⟩

end Grammar

namespace Token

theorem foldl_depthChange (ts : List Token) (d : Int) :
    ts.foldl (fun d t => d + t.kind.depthChange) d =
      d + ts.countP (·.kind = .leftParen) + ts.countP (·.kind = .leftBrace) -
        ts.countP (·.kind = .rightParen) - ts.countP (·.kind = .rightBrace) := by
  induction ts generalizing d with
  | nil => simp
  | cons t rest ih =>
    rw [List.foldl_cons, ih]
    rcases t with ⟨k, _, _, _⟩
    cases k <;> simp [Token.Kind.depthChange] <;> omega

/-- The parser accepts only token lists whose brackets pair up. -/
theorem accepted_brackets_pair {body : List Token} {eof : Token} (heof : eof.kind = .eof)
    (hbody : ∀ t ∈ body, t.kind ≠ .eof) (parsed : (Stmt.parseAll (body ++ [eof])).2 = []) :
    (body ++ [eof]).countP (·.kind = .leftParen) = (body ++ [eof]).countP (·.kind = .rightParen) ∧
      (body ++ [eof]).countP (·.kind = .leftBrace) =
        (body ++ [eof]).countP (·.kind = .rightBrace) := by
  have accepted : Stmt.parseAll (body ++ [eof]) = ((Stmt.parseAll (body ++ [eof])).1, []) := by
    rw [← parsed]
  obtain ⟨parens, braces⟩ :=
    ((Parse.parseAll_eq_iff_program heof hbody _).mp accepted).brackets_pair
  simp [List.countP_append, heof, parens, braces]

/-- A source the parser accepts is complete. Every token list that ends with its only `Eof`
and that the parser reads with no syntax error holds as many `(` as `)` and as many `{` as
`}`; so when a source scans and parses, nothing is left open, and an interactive reader
asks for no more input after it. -/
theorem accepted_input_complete :
    (∀ (body : List Token) (eof : Token), eof.kind = .eof → (∀ t ∈ body, t.kind ≠ .eof) →
      (Stmt.parseAll (body ++ [eof])).2 = [] →
        (body ++ [eof]).countP (·.kind = .leftParen) =
          (body ++ [eof]).countP (·.kind = .rightParen) ∧
        (body ++ [eof]).countP (·.kind = .leftBrace) =
          (body ++ [eof]).countP (·.kind = .rightBrace)) ∧
    (∀ (source : String) (ts : List Token), Token.scan source = .ok ts →
      (Stmt.parseAll ts).2 = [] → Token.incomplete source = false) := by
  refine ⟨fun body eof heof hbody parsed => accepted_brackets_pair heof hbody parsed, ?_⟩
  intro source ts scanned parsed
  obtain ⟨body, eof, rfl, heof, hbody⟩ := Token.scan_ends_with_eof scanned
  obtain ⟨parens, braces⟩ := accepted_brackets_pair heof hbody parsed
  have closed : Token.openDepth (body ++ [eof]) = 0 := by
    rw [Token.openDepth, foldl_depthChange, parens, braces]
    omega
  simp [Token.incomplete, scanned, closed]

end Token

end ClassScript
