import ClassScript.Syntax.Parse

/-! The grammar of the language, as derivations over token lists. `R ts x rest` says that
the tokens `ts` begin with a phrase of `R` whose tree is `x`, and that `rest` follows it:

    program     := declaration* Eof
    declaration := "class" IDENT ("extends" IDENT)? "{" (type IDENT ("," IDENT)* ";")* "}"
                 | type IDENT ("=" expression)? ";"
                 | statement
    statement   := "if" "(" expression ")" statement ("else" statement)?
                 | "while" "(" expression ")" statement
                 | "for" "(" (varDecl | expression ";" | ";") expression? ";" expression? ")" statement
                 | "{" declaration* "}" | expression ";"
    expression  := IDENT ("." IDENT)* "=" expression | or
    or ... factor  binary levels `or` < `and` < `== !=` < `< <= > >=` < `- +` < `/ *`,
                   each left associative
    unary       := ("!" | "-") unary | call
    call        := primary ("(" arguments ")" | "." IDENT)*
    arguments   := (expression ("," expression)* ","?)?      at most 255 expressions
    primary     := literal | IDENT | "(" expression ")" | "new" IDENT ("(" ")")?

An `else` belongs to the nearest `if`, and a `(` after `new C` to the `new`. -/
namespace ClassScript

namespace Grammar

open Parse (nameOf pathObject literalOf levelOp combine forLoop levels peekAt targetPath)
open Alg (tree)

/-- The tree of an assignment to the target `first.more`: to a variable, or to the last
field of a path of field reads. -/
def assignTo (first : Token) (more : List Token) (rhs : Expr) : Expr :=
  match more.getLast? with
  | none => .assign (nameOf first) rhs
  | some last => .set (pathObject tree first more.dropLast) (nameOf last) rhs

/-- The target `a.b.c =` of an assignment at the head of the tokens: its names, and the
tokens after the `=`. -/
inductive Target : List Token → List Token → List Token → Prop
  | name {t u : Token} {rest : List Token} : t.kind = .identifier → u.kind = .equal →
      Target (t :: u :: rest) [t] rest
  | field {t u : Token} {ts names rest : List Token} : t.kind = .identifier →
      u.kind = .dot → Target ts names rest → Target (t :: u :: ts) (t :: names) rest

/-! ### What comes next

Where the parser loops, it goes on as long as the token ahead lets it; a phrase the
grammar derives is the parser's only when the token after it does not go on with it. -/

/-- The token ahead cannot go on with an expression of binary level `k`: it is not a
call, a field read, an `=`, or an operator of level `k` or a tighter one. -/
def Ends (k : Nat) (rest : List Token) : Prop :=
  (peekAt rest 0).kind ≠ .leftParen ∧ (peekAt rest 0).kind ≠ .dot ∧
    (peekAt rest 0).kind ≠ .equal ∧ ∀ j, k ≤ j → levelOp j (peekAt rest 0).kind = none

theorem Ends.mono {k j : Nat} {rest : List Token} (h : Ends k rest) (hkj : k ≤ j) :
    Ends j rest :=
  ⟨h.1, h.2.1, h.2.2.1, fun i hi => h.2.2.2 i (Nat.le_trans hkj hi)⟩

@[simp] theorem peekAt_cons_zero (t : Token) (ts : List Token) : peekAt (t :: ts) 0 = t := rfl

def operatorKinds : List Token.Kind :=
  [.orKw, .andKw, .bangEqual, .equalEqual, .greater, .greaterEqual, .less, .lessEqual,
    .minus, .plus, .slash, .star]

theorem levelOp_eq_some {k : Nat} {kind : Token.Kind} {o : LogicOp ⊕ BinaryOp}
    (h : levelOp k kind = some o) :
    k < levels ∧ (∀ j, j ≠ k → levelOp j kind = none) ∧ kind ∈ operatorKinds := by
  unfold levelOp at h
  split at h
  all_goals first
    | (cases h; done)
    | (cases h
       refine ⟨by decide, fun j hj => ?_, by decide⟩
       unfold levelOp
       split <;> first | rfl | omega | simp_all)

theorem levelOp_eq_none {j : Nat} {kind : Token.Kind} (h : kind ∉ operatorKinds) :
    levelOp j kind = none := by
  cases found : levelOp j kind with
  | none => rfl
  | some o => exact absurd (levelOp_eq_some found).2.2 h

theorem ends_of_levelOp {k : Nat} {t : Token} {ts : List Token} {o : LogicOp ⊕ BinaryOp}
    (h : levelOp k t.kind = some o) : Ends (k + 1) (t :: ts) := by
  obtain ⟨-, other, op⟩ := levelOp_eq_some h
  refine ⟨?_, ?_, ?_, fun j hj => other j (by omega)⟩ <;>
  · intro same
    rw [peekAt_cons_zero] at same
    simp [same, operatorKinds] at op

theorem ends_of_stop {t : Token} {ts : List Token} (k : Nat)
    (h : t.kind = .semicolon ∨ t.kind = .comma ∨ t.kind = .rightParen ∨ t.kind = .identifier) :
    Ends k (t :: ts) := by
  refine ⟨?_, ?_, ?_, fun j _ => levelOp_eq_none ?_⟩ <;>
    rcases h with h | h | h | h <;> simp [h, operatorKinds]

def startsExpr : Token.Kind → Bool
  | .identifier | .falseKw | .trueKw | .nullKw | .int | .real | .string | .newKw
  | .leftParen | .bang | .minus => true
  | _ => false

mutual

/-- An expression: an assignment, right associative, or an `or` expression. -/
inductive Expression : List Token → Expr → List Token → Prop
  | assign {ts ts₁ rest : List Token} {first : Token} {more : List Token} {rhs : Expr} :
      Target ts (first :: more) ts₁ → Expression ts₁ rhs rest →
      Expression ts (assignTo first more rhs) rest
  | binary {ts rest : List Token} {e : Expr} : Binary 0 ts e rest → Expression ts e rest

/-- An expression of binary level `k`: operands of the next level joined left to right by
operators of level `k`; past the last level, a unary expression. -/
inductive Binary : Nat → List Token → Expr → List Token → Prop
  | unary {k : Nat} {ts rest : List Token} {e : Expr} : levels ≤ k → Unary ts e rest →
      Binary k ts e rest
  | chain {k : Nat} {ts ts₁ rest : List Token} {first e : Expr} : k < levels →
      Binary (k + 1) ts first ts₁ → Chain k first ts₁ e rest → Binary k ts e rest

/-- The operators of level `k` and their right operands after a left operand `left`. -/
inductive Chain : Nat → Expr → List Token → Expr → List Token → Prop
  | done {k : Nat} {e : Expr} {rest : List Token} : Chain k e rest e rest
  | op {k : Nat} {left right e : Expr} {t : Token} {ts ts₁ rest : List Token}
      {o : LogicOp ⊕ BinaryOp} : levelOp k t.kind = some o → Binary (k + 1) ts right ts₁ →
      Chain k (combine tree o t.line left right) ts₁ e rest → Chain k left (t :: ts) e rest

/-- A unary expression: `!` or `-` before a unary expression, or a call chain. -/
inductive Unary : List Token → Expr → List Token → Prop
  | not {t : Token} {ts rest : List Token} {e : Expr} : t.kind = .bang → Unary ts e rest →
      Unary (t :: ts) (.unary .not t.line e) rest
  | neg {t : Token} {ts rest : List Token} {e : Expr} : t.kind = .minus → Unary ts e rest →
      Unary (t :: ts) (.unary .neg t.line e) rest
  | call {ts rest : List Token} {e : Expr} : CallChain ts e rest → Unary ts e rest

/-- A primary expression followed by calls and field reads. A `new C` without parentheses
is never called: a `(` after it belongs to the `new`. -/
inductive CallChain : List Token → Expr → List Token → Prop
  | primary {ts ts₁ rest : List Token} {first e : Expr} : Primary ts first ts₁ →
      Postfixes first ts₁ e rest → CallChain ts e rest
  | new {k c : Token} {ts rest : List Token} {e : Expr} : k.kind = .newKw →
      c.kind = .identifier → (peekAt ts 0).kind ≠ .leftParen →
      Postfixes (.new (nameOf c)) ts e rest → CallChain (k :: c :: ts) e rest

inductive Postfixes : Expr → List Token → Expr → List Token → Prop
  | done {e : Expr} {rest : List Token} : Postfixes e rest e rest
  | call {callee call e : Expr} {l : Token} {ts ts₁ rest : List Token} : l.kind = .leftParen →
      Arguments callee [] ts call ts₁ → Postfixes call ts₁ e rest →
      Postfixes callee (l :: ts) e rest
  | get {object e : Expr} {d n : Token} {ts rest : List Token} : d.kind = .dot →
      n.kind = .identifier → Postfixes (.get object (nameOf n)) ts e rest →
      Postfixes object (d :: n :: ts) e rest

/-- The arguments of a call after `args` and up to its closing parenthesis, a trailing
comma allowed, at most `maxArguments` in all. -/
inductive Arguments : Expr → List Expr → List Token → Expr → List Token → Prop
  | close {callee : Expr} {args : List Expr} {r : Token} {rest : List Token} :
      r.kind = .rightParen → Arguments callee args (r :: rest) (.call callee r.line args) rest
  | next {callee arg e : Expr} {args : List Expr} {c : Token} {ts ts₁ rest : List Token} :
      args.length < SyntaxError.maxArguments → Expression ts arg (c :: ts₁) →
      c.kind = .comma → Arguments callee (args ++ [arg]) ts₁ e rest →
      Arguments callee args ts e rest
  | last {callee arg : Expr} {args : List Expr} {r : Token} {ts rest : List Token} :
      args.length < SyntaxError.maxArguments → Expression ts arg (r :: rest) →
      r.kind = .rightParen → Arguments callee args ts (.call callee r.line (args ++ [arg])) rest

inductive Primary : List Token → Expr → List Token → Prop
  | var {t : Token} {rest : List Token} : t.kind = .identifier →
      Primary (t :: rest) (.var (nameOf t)) rest
  | false {t : Token} {rest : List Token} : t.kind = .falseKw →
      Primary (t :: rest) (.literal (.bool false)) rest
  | true {t : Token} {rest : List Token} : t.kind = .trueKw →
      Primary (t :: rest) (.literal (.bool true)) rest
  | null {t : Token} {rest : List Token} : t.kind = .nullKw →
      Primary (t :: rest) (.literal .null) rest
  | literal {t : Token} {rest : List Token} :
      t.kind = .int ∨ t.kind = .real ∨ t.kind = .string →
      Primary (t :: rest) (.literal (literalOf t)) rest
  | new {k c l r : Token} {rest : List Token} : k.kind = .newKw → c.kind = .identifier →
      l.kind = .leftParen → r.kind = .rightParen →
      Primary (k :: c :: l :: r :: rest) (.new (nameOf c)) rest
  | grouping {l r : Token} {ts rest : List Token} {e : Expr} : l.kind = .leftParen →
      Expression ts e (r :: rest) → r.kind = .rightParen → Primary (l :: ts) (.grouping e) rest

end

inductive Condition : List Token → Expr → List Token → Prop
  | mk {l r : Token} {ts rest : List Token} {e : Expr} : l.kind = .leftParen →
      Expression ts e (r :: rest) → r.kind = .rightParen → Condition (l :: ts) e rest

/-- A variable declaration `type name (= expression)? ;`. -/
inductive VarDecl : List Token → Stmt → List Token → Prop
  | bare {t n s : Token} {rest : List Token} : t.kind.isType = true →
      n.kind = .identifier → s.kind = .semicolon →
      VarDecl (t :: n :: s :: rest) (.var (nameOf t) (nameOf n) none) rest
  | init {t n q s : Token} {ts rest : List Token} {e : Expr} : t.kind.isType = true →
      n.kind = .identifier → q.kind = .equal → Expression ts e (s :: rest) →
      s.kind = .semicolon → VarDecl (t :: n :: q :: ts) (.var (nameOf t) (nameOf n) (some e)) rest

/-- The initialiser of a `for` loop, with its `;`. -/
inductive ForInit : List Token → Option Stmt → List Token → Prop
  | none {s : Token} {rest : List Token} : s.kind = .semicolon → ForInit (s :: rest) none rest
  | var {ts rest : List Token} {v : Stmt} : VarDecl ts v rest → ForInit ts (some v) rest
  | expr {s : Token} {ts rest : List Token} {e : Expr} : Expression ts e (s :: rest) →
      s.kind = .semicolon → ForInit ts (some (.expr e)) rest

inductive ForCond : List Token → Expr → List Token → Prop
  | omitted {rest : List Token} : ForCond rest (.literal (.bool true)) rest
  | given {ts rest : List Token} {e : Expr} : Expression ts e rest → ForCond ts e rest

inductive ForIncr : List Token → Option Expr → List Token → Prop
  | omitted {rest : List Token} : ForIncr rest none rest
  | given {ts rest : List Token} {e : Expr} : Expression ts e rest → ForIncr ts (some e) rest

inductive Parent : List Token → Option Name → List Token → Prop
  | none {rest : List Token} : Parent rest none rest
  | some {e p : Token} {rest : List Token} : e.kind = .extendsKw → p.kind = .identifier →
      Parent (e :: p :: rest) (some (nameOf p)) rest

inductive FieldNames : Token → List Token → List FieldDecl → List Token → Prop
  | one {type n : Token} {rest : List Token} : n.kind = .identifier →
      FieldNames type (n :: rest) [⟨nameOf type, nameOf n⟩] rest
  | more {type n c : Token} {ts rest : List Token} {fields : List FieldDecl} :
      n.kind = .identifier → c.kind = .comma → FieldNames type ts fields rest →
      FieldNames type (n :: c :: ts) (⟨nameOf type, nameOf n⟩ :: fields) rest

inductive FieldGroups : List Token → List FieldDecl → List Token → Prop
  | close {r : Token} {rest : List Token} : r.kind = .rightBrace →
      FieldGroups (r :: rest) [] rest
  | group {t s : Token} {ts ts₁ rest : List Token} {group more : List FieldDecl} :
      t.kind.isType = true → FieldNames t ts group (s :: ts₁) → s.kind = .semicolon →
      FieldGroups ts₁ more rest → FieldGroups (t :: ts) (group ++ more) rest

mutual

/-- A statement. An `if` without `else` is never followed by `else`. -/
inductive Statement : List Token → Stmt → List Token → Prop
  | expr {s : Token} {ts rest : List Token} {e : Expr} : Expression ts e (s :: rest) →
      s.kind = .semicolon → Statement ts (.expr e) rest
  | block {l r : Token} {ts rest : List Token} {body : List Stmt} : l.kind = .leftBrace →
      Declarations ts body (r :: rest) → r.kind = .rightBrace →
      Statement (l :: ts) (.block body) rest
  | ifElse {i el : Token} {ts ts₁ ts₂ rest : List Token} {c : Expr} {t e : Stmt} :
      i.kind = .ifKw → Condition ts c ts₁ → Statement ts₁ t (el :: ts₂) → el.kind = .elseKw →
      Statement ts₂ e rest → Statement (i :: ts) (.ifElse c t e) rest
  | ifThen {i : Token} {ts ts₁ rest : List Token} {c : Expr} {t : Stmt} : i.kind = .ifKw →
      Condition ts c ts₁ → Statement ts₁ t rest → (peekAt rest 0).kind ≠ .elseKw →
      Statement (i :: ts) (.ifElse c t (.block [])) rest
  | whileLoop {w : Token} {ts ts₁ rest : List Token} {c : Expr} {body : Stmt} :
      w.kind = .whileKw → Condition ts c ts₁ → Statement ts₁ body rest →
      Statement (w :: ts) (.whileLoop c body) rest
  | forLoop {f l s r : Token} {ts ts₁ ts₂ ts₃ rest : List Token} {init : Option Stmt}
      {cond : Expr} {incr : Option Expr} {body : Stmt} : f.kind = .forKw →
      l.kind = .leftParen → ForInit ts init ts₁ → ForCond ts₁ cond (s :: ts₂) →
      s.kind = .semicolon → ForIncr ts₂ incr (r :: ts₃) → r.kind = .rightParen →
      Statement ts₃ body rest → Statement (f :: l :: ts) (forLoop tree init cond incr body) rest

/-- A declaration of a class or a variable, or a statement. -/
inductive Declaration : List Token → Stmt → List Token → Prop
  | classDecl {c n lb : Token} {ts ts₁ rest : List Token} {parent : Option Name}
      {fields : List FieldDecl} : c.kind = .classKw → n.kind = .identifier →
      Parent ts parent (lb :: ts₁) → lb.kind = .leftBrace → FieldGroups ts₁ fields rest →
      Declaration (c :: n :: ts) (.classDecl (nameOf n) parent fields) rest
  | var {ts rest : List Token} {v : Stmt} : VarDecl ts v rest → Declaration ts v rest
  | statement {ts rest : List Token} {s : Stmt} : Statement ts s rest → Declaration ts s rest

inductive Declarations : List Token → List Stmt → List Token → Prop
  | done {rest : List Token} : Declarations rest [] rest
  | next {ts ts₁ rest : List Token} {s : Stmt} {ss : List Stmt} : Declaration ts s ts₁ →
      Declarations ts₁ ss rest → Declarations ts (s :: ss) rest

end

/-- A whole program: declarations up to the final `Eof`. -/
def Program (body : List Token) (eof : Token) (stmts : List Stmt) : Prop :=
  Declarations (body ++ [eof]) stmts [eof]

/-! ### What a phrase consumes

A phrase consumes tokens other than `Eof`, at least one unless it may be empty. -/

/-- `rest` is what is left of `ts` after some tokens, none of them `Eof`. -/
def Skips (ts rest : List Token) : Prop :=
  ∃ pre, ts = pre ++ rest ∧ ∀ t ∈ pre, t.kind ≠ .eof

/-- `rest` is what is left of `ts` after one token or more, none of them `Eof`. -/
def Skips1 (ts rest : List Token) : Prop :=
  ∃ t ts', ts = t :: ts' ∧ t.kind ≠ .eof ∧ Skips ts' rest

namespace Skips

variable {t : Token} {ts ts₁ rest : List Token}

theorem refl (ts : List Token) : Skips ts ts := ⟨[], rfl, by simp⟩

theorem trans (h₁ : Skips ts ts₁) (h₂ : Skips ts₁ rest) : Skips ts rest := by
  obtain ⟨pre₁, rfl, ne₁⟩ := h₁
  obtain ⟨pre₂, rfl, ne₂⟩ := h₂
  exact ⟨pre₁ ++ pre₂, by simp, fun t ht => (List.mem_append.mp ht).elim (ne₁ t) (ne₂ t)⟩

theorem cons (ht : t.kind ≠ .eof) (h : Skips ts rest) : Skips (t :: ts) rest := by
  obtain ⟨pre, rfl, ne⟩ := h
  refine ⟨t :: pre, rfl, fun u hu => ?_⟩
  rcases List.mem_cons.mp hu with rfl | hu
  · exact ht
  · exact ne u hu

theorem length_le (h : Skips ts rest) : rest.length ≤ ts.length := by
  obtain ⟨pre, rfl, -⟩ := h
  simp

end Skips

namespace Skips1

variable {t : Token} {ts ts₁ rest : List Token}

theorem cons (ht : t.kind ≠ .eof) (h : Skips ts rest) : Skips1 (t :: ts) rest :=
  ⟨t, ts, rfl, ht, h⟩

theorem skips (h : Skips1 ts rest) : Skips ts rest := by
  obtain ⟨t, ts', rfl, ht, h⟩ := h
  exact h.cons ht

theorem trans (h₁ : Skips1 ts ts₁) (h₂ : Skips ts₁ rest) : Skips1 ts rest := by
  obtain ⟨t, ts', rfl, ht, h⟩ := h₁
  exact .cons ht (h.trans h₂)

theorem length_lt (h : Skips1 ts rest) : rest.length < ts.length := by
  obtain ⟨t, ts', rfl, -, h⟩ := h
  simpa [Nat.lt_succ_iff] using h.length_le

end Skips1

theorem ne_eof_of_isType {kind : Token.Kind} (h : kind.isType = true) : kind ≠ .eof := by
  intro same
  simp [same, Token.Kind.isType] at h

/-- A phrase of tokens that end with their only `Eof` leaves the `Eof` and some of the
tokens before it. -/
theorem Skips1.of_eof {body rest : List Token} {eof : Token} (h : Skips1 (body ++ [eof]) rest)
    (heof : eof.kind = .eof) (hbody : ∀ t ∈ body, t.kind ≠ .eof) :
    ∃ body', rest = body' ++ [eof] ∧ body'.length < body.length ∧ ∀ t ∈ body', t.kind ≠ .eof := by
  obtain ⟨t, ts', whole, ht, pre, rfl, hpre⟩ := h
  have consumed : ∀ u ∈ t :: pre, u.kind ≠ .eof := by
    intro u hu
    rcases List.mem_cons.mp hu with rfl | hu
    · exact ht
    · exact hpre u hu
  rw [show t :: (pre ++ rest) = (t :: pre) ++ rest from rfl] at whole
  rcases List.append_eq_append_iff.mp whole with ⟨a', front, last⟩ | ⟨c', front, rfl⟩
  · cases a' with
    | nil =>
      simp only [List.nil_append] at last
      subst last
      simp only [List.append_nil] at front
      exact ⟨[], rfl, by simp [← front], by simp⟩
    | cons x a' =>
      -- the phrase would have consumed the `Eof` itself
      have : eof ∈ t :: pre := by
        rw [front]
        simp only [List.cons_append, List.cons.injEq] at last
        simp [← last.1]
      exact absurd heof (consumed eof this)
  · have lengths := congrArg List.length front
    simp only [List.length_append, List.length_cons] at lengths
    exact ⟨c', rfl, by omega, fun u hu => hbody u (by simp [front, hu])⟩

theorem Target.skips {ts names rest : List Token} : Target ts names rest → Skips1 ts rest
  | .name ht hu => .cons (by simp [ht]) ((Skips.refl _).cons (by simp [hu]))
  | .field ht hu d => .cons (by simp [ht]) (d.skips.skips.cons (by simp [hu]))

theorem levelOp_ne_eof {k : Nat} {kind : Token.Kind} {o : LogicOp ⊕ BinaryOp}
    (h : levelOp k kind = some o) : kind ≠ .eof := by
  intro same
  have op := (levelOp_eq_some h).2.2
  simp [same, operatorKinds] at op

mutual

theorem Expression.skips {ts rest : List Token} {e : Expr} : Expression ts e rest → Skips1 ts rest
  | .assign target d => target.skips.trans d.skips.skips
  | .binary d => d.skips

theorem Binary.skips {k : Nat} {ts rest : List Token} {e : Expr} : Binary k ts e rest → Skips1 ts rest
  | .unary _ d => d.skips
  | .chain _ d c => d.skips.trans c.skips

theorem Chain.skips {k : Nat} {left e : Expr} {ts rest : List Token} : Chain k left ts e rest → Skips ts rest
  | .done => .refl _
  | .op h d c => (d.skips.skips.trans c.skips).cons (levelOp_ne_eof h)

theorem Unary.skips {ts rest : List Token} {e : Expr} : Unary ts e rest → Skips1 ts rest
  | .not h d => .cons (by simp [h]) d.skips.skips
  | .neg h d => .cons (by simp [h]) d.skips.skips
  | .call d => d.skips

theorem CallChain.skips {ts rest : List Token} {e : Expr} : CallChain ts e rest → Skips1 ts rest
  | .primary d p => d.skips.trans p.skips
  | .new hk hc _ p => .cons (by simp [hk]) (p.skips.cons (by simp [hc]))

theorem Postfixes.skips {callee e : Expr} {ts rest : List Token} : Postfixes callee ts e rest → Skips ts rest
  | .done => .refl _
  | .call hl a p => (a.skips.trans p.skips).skips.cons (by simp [hl])
  | .get hd hn p => (p.skips.cons (by simp [hn])).cons (by simp [hd])

theorem Arguments.skips {callee e : Expr} {args : List Expr} {ts rest : List Token} :
    Arguments callee args ts e rest → Skips1 ts rest
  | .close hr => .cons (by simp [hr]) (.refl _)
  | .next _ d hc a => d.skips.trans (a.skips.skips.cons (by simp [hc]))
  | .last _ d hr => d.skips.trans ((Skips.refl _).cons (by simp [hr]))

theorem Primary.skips {ts rest : List Token} {e : Expr} : Primary ts e rest → Skips1 ts rest
  | .var h => .cons (by simp [h]) (.refl _)
  | .false h => .cons (by simp [h]) (.refl _)
  | .true h => .cons (by simp [h]) (.refl _)
  | .null h => .cons (by simp [h]) (.refl _)
  | .literal h => .cons (by rcases h with h | h | h <;> simp [h]) (.refl _)
  | .new hk hc hl hr => .cons (by simp [hk])
      ((((Skips.refl _).cons (by simp [hr])).cons (by simp [hl])).cons (by simp [hc]))
  | .grouping hl d hr => .cons (by simp [hl]) (d.skips.skips.trans ((Skips.refl _).cons (by simp [hr])))

end

theorem Condition.skips {ts rest : List Token} {e : Expr} : Condition ts e rest → Skips1 ts rest
  | .mk hl d hr => .cons (by simp [hl]) (d.skips.skips.trans ((Skips.refl _).cons (by simp [hr])))

theorem VarDecl.skips {ts rest : List Token} {v : Stmt} : VarDecl ts v rest → Skips1 ts rest
  | .bare ht hn hs => .cons (ne_eof_of_isType ht) (((Skips.refl _).cons (by simp [hs])).cons (by simp [hn]))
  | .init ht hn hq d hs => .cons (ne_eof_of_isType ht)
      (((d.skips.skips.trans ((Skips.refl _).cons (by simp [hs])))).cons (by simp [hq])
        |>.cons (by simp [hn]))

theorem ForInit.skips {ts rest : List Token} {init : Option Stmt} :
    ForInit ts init rest → Skips1 ts rest
  | .none hs => .cons (by simp [hs]) (.refl _)
  | .var d => d.skips
  | .expr d hs => d.skips.trans ((Skips.refl _).cons (by simp [hs]))

theorem ForCond.skips {ts rest : List Token} {e : Expr} : ForCond ts e rest → Skips ts rest
  | .omitted => .refl _
  | .given d => d.skips.skips

theorem ForIncr.skips {ts rest : List Token} {e : Option Expr} : ForIncr ts e rest → Skips ts rest
  | .omitted => .refl _
  | .given d => d.skips.skips

theorem Parent.skips {ts rest : List Token} {p : Option Name} : Parent ts p rest → Skips ts rest
  | .none => .refl _
  | .some he hp => ((Skips.refl _).cons (by simp [hp])).cons (by simp [he])

theorem FieldNames.skips {type : Token} {ts rest : List Token} {fields : List FieldDecl}
    (h : FieldNames type ts fields rest) : Skips1 ts rest := by
  induction h with
  | one hn => exact .cons (by simp [hn]) (.refl _)
  | more hn hc _ ih => exact .cons (by simp [hn]) (ih.skips.cons (by simp [hc]))

theorem FieldGroups.skips {ts rest : List Token} {fields : List FieldDecl}
    (h : FieldGroups ts fields rest) : Skips1 ts rest := by
  induction h with
  | close hr => exact .cons (by simp [hr]) (.refl _)
  | group ht names hs _ ih =>
    exact .cons (ne_eof_of_isType ht) (names.skips.skips.trans (ih.skips.cons (by simp [hs])))

mutual

theorem Statement.skips {ts rest : List Token} {s : Stmt} : Statement ts s rest → Skips1 ts rest
  | .expr d hs => d.skips.trans ((Skips.refl _).cons (by simp [hs]))
  | .block hl d hr => .cons (by simp [hl]) (d.skips.trans ((Skips.refl _).cons (by simp [hr])))
  | .ifElse hi c t he e => .cons (by simp [hi])
      (c.skips.skips.trans (t.skips.skips.trans (e.skips.skips.cons (by simp [he]))))
  | .ifThen hi c t _ => .cons (by simp [hi]) (c.skips.skips.trans t.skips.skips)
  | .whileLoop hw c b => .cons (by simp [hw]) (c.skips.skips.trans b.skips.skips)
  | .forLoop hf hl init cond hs incr hr body => .cons (by simp [hf])
      ((init.skips.skips.trans (cond.skips.trans ((incr.skips.trans
        (body.skips.skips.cons (by simp [hr]))).cons (by simp [hs])))).cons (by simp [hl]))

theorem Declaration.skips {ts rest : List Token} {s : Stmt} :
    Declaration ts s rest → Skips1 ts rest
  | .classDecl hc hn p hl fields => .cons (by simp [hc])
      ((p.skips.trans (fields.skips.skips.cons (by simp [hl]))).cons (by simp [hn]))
  | .var d => d.skips
  | .statement d => d.skips

theorem Declarations.skips {ts rest : List Token} {ss : List Stmt} :
    Declarations ts ss rest → Skips ts rest
  | .done => .refl _
  | .next d ds => d.skips.skips.trans ds.skips

end

/-! ### How a phrase starts -/

section

variable {ts rest : List Token} {e : Expr}

theorem Primary.starts (h : Primary ts e rest) : startsExpr (peekAt ts 0).kind := by
  cases h with
  | var h => simp [h, startsExpr]
  | false h => simp [h, startsExpr]
  | true h => simp [h, startsExpr]
  | null h => simp [h, startsExpr]
  | literal h => rcases h with h | h | h <;> simp [h, startsExpr]
  | new h => simp [h, startsExpr]
  | grouping h => simp [h, startsExpr]

theorem CallChain.starts (h : CallChain ts e rest) : startsExpr (peekAt ts 0).kind := by
  cases h with
  | primary p => exact p.starts
  | new h => simp [h, startsExpr]

theorem Unary.starts (h : Unary ts e rest) : startsExpr (peekAt ts 0).kind := by
  cases h with
  | not h => simp [h, startsExpr]
  | neg h => simp [h, startsExpr]
  | call c => exact c.starts

theorem Binary.starts {k : Nat} {ts rest : List Token} {e : Expr} :
    Binary k ts e rest → startsExpr (peekAt ts 0).kind
  | .unary _ u => u.starts
  | .chain _ b _ => b.starts

theorem Expression.starts (h : Expression ts e rest) : startsExpr (peekAt ts 0).kind := by
  cases h with
  | assign target => cases target <;> simp_all [startsExpr]
  | binary b => exact b.starts

end

theorem Primary.not_prefix {ts rest : List Token} {e : Expr} (p : Primary ts e rest) :
    (peekAt ts 0).kind ≠ .bang ∧ (peekAt ts 0).kind ≠ .minus := by
  cases p with
  | literal h => rcases h with h | h | h <;> simp [h]
  | _ h => simp [h]

theorem CallChain.not_prefix {ts rest : List Token} {e : Expr} (c : CallChain ts e rest) :
    (peekAt ts 0).kind ≠ .bang ∧ (peekAt ts 0).kind ≠ .minus := by
  cases c with
  | primary p => exact p.not_prefix
  | new h => simp [h]

theorem Chain.ends_start {k : Nat} {left e : Expr} {ts rest : List Token}
    (c : Chain k left ts e rest) (ends : Ends k rest) : Ends (k + 1) ts := by
  cases c with
  | done => exact ends.mono (Nat.le_succ k)
  | op h => exact ends_of_levelOp h

theorem ne_of_startsExpr {k k' : Token.Kind} (h : startsExpr k) (h' : startsExpr k' = false) :
    k ≠ k' := by
  rintro rfl
  simp [h] at h'

def startsStatement : Token.Kind → Bool
  | .forKw | .ifKw | .whileKw | .leftBrace => true
  | kind => startsExpr kind

theorem Statement.starts {ts rest : List Token} {s : Stmt} (h : Statement ts s rest) :
    startsStatement (peekAt ts 0).kind := by
  cases h with
  | expr d =>
    have starts := d.starts
    revert starts
    cases (peekAt _ 0).kind <;> simp [startsStatement]
  | block h => simp [h, startsStatement]
  | ifElse h => simp [h, startsStatement]
  | ifThen h => simp [h, startsStatement]
  | whileLoop h => simp [h, startsStatement]
  | forLoop h => simp [h, startsStatement]

theorem VarDecl.starts {ts rest : List Token} {v : Stmt} (d : VarDecl ts v rest) :
    (peekAt ts 0).kind.isType := by
  cases d with
  | bare h => exact h
  | init h => exact h

theorem Declaration.starts {ts rest : List Token} {s : Stmt} (d : Declaration ts s rest) :
    (peekAt ts 0).kind ≠ .rightBrace := by
  cases d with
  | classDecl h => simp [h]
  | var v =>
    have starts := v.starts
    intro same
    simp [same, Token.Kind.isType] at starts
  | statement d =>
    have starts := d.starts
    intro same
    simp [same, startsStatement, startsExpr] at starts

/-! ### Expressions that start with a name

Where the tokens after a name cannot go on with a call, a field read or an operator, an
expression that starts with the name is the name alone. The same descent shows that an
expression cannot end inside an assignment target. -/

/-- What follows the first name of an assignment target: its `=`, or a `.` and the rest of
the target. -/
inductive TargetTail : List Token → Prop
  | equal {u : Token} {rest : List Token} : u.kind = .equal → TargetTail (u :: rest)
  | dot {u : Token} {ts names rest : List Token} : u.kind = .dot → Target ts names rest →
      TargetTail (u :: ts)

theorem Target.tail {t : Token} {ts names rest : List Token} :
    Target (t :: ts) names rest → t.kind = .identifier ∧ TargetTail ts
  | .name ht hu => ⟨ht, .equal hu⟩
  | .field ht hu d => ⟨ht, .dot hu d⟩

theorem Primary.of_name {t : Token} {ts rest : List Token} {e : Expr}
    (h : Primary (t :: ts) e rest) (ht : t.kind = .identifier) : rest = ts := by
  cases h <;> simp_all

section

variable {Q : List Token → Prop}
  (post : ∀ {callee e : Expr} {ts rest : List Token}, Q ts → Postfixes callee ts e rest → Q rest)
  (noOp : ∀ {ts : List Token} (j : Nat), Q ts → levelOp j (peekAt ts 0).kind = none)
include post noOp

omit post in
theorem Chain.keeps {k : Nat} {left e : Expr} {ts rest : List Token}
    (c : Chain k left ts e rest) (q : Q ts) : Q rest := by
  cases c with
  | done => exact q
  | op h =>
    have none := noOp k q
    rw [peekAt_cons_zero] at none
    simp [none] at h

omit noOp in
theorem Unary.keeps_of_name {t : Token} {ts ts' rest : List Token} {e : Expr}
    (u : Unary ts e rest) (h : ts = t :: ts') (ht : t.kind = .identifier) (q : Q ts') :
    Q rest := by
  subst h
  cases u with
  | not h => simp [h] at ht
  | neg h => simp [h] at ht
  | call c =>
    cases c with
    | primary p ps => exact post (p.of_name ht ▸ q) ps
    | new h => simp [h] at ht

theorem Binary.keeps_of_name {k : Nat} {t : Token} {ts ts' rest : List Token} {e : Expr} :
    Binary k ts e rest → ts = t :: ts' → t.kind = .identifier → Q ts' → Q rest
  | .unary _ u, h, ht, q => u.keeps_of_name post h ht q
  | .chain _ b c, h, ht, q => c.keeps noOp (b.keeps_of_name h ht q)

end

theorem TargetTail.not_ends {k : Nat} {ts : List Token} : TargetTail ts → ¬ Ends k ts
  | .equal hu, ends => ends.2.2.1 (by simpa using hu)
  | .dot hu _, ends => ends.2.1 (by simpa using hu)

theorem Postfixes.targetTail {callee e : Expr} {ts rest : List Token} :
    TargetTail ts → Postfixes callee ts e rest → TargetTail rest
  | tail, .done => tail
  | .equal hu, .call hl _ _ => by simp_all
  | .dot hu _, .call hl _ _ => by simp_all
  | .equal hu, .get hd _ _ => by simp_all
  | .dot _ target, .get _ _ p => Postfixes.targetTail (target.tail).2 p

theorem TargetTail.levelOp {ts : List Token} (j : Nat) (h : TargetTail ts) :
    levelOp j (peekAt ts 0).kind = none := by
  cases h with
  | equal hu => exact levelOp_eq_none (by simp [hu, operatorKinds])
  | dot hu => exact levelOp_eq_none (by simp [hu, operatorKinds])

theorem Target.targetPath_eq {ts names rest : List Token} :
    Target ts names rest → targetPath ts = some names ∧ ts.drop (2 * names.length) = rest
  | .name ht hu => by simp [Parse.targetPath, ht, hu]
  | .field ht hu d => by
    obtain ⟨path, drop⟩ := d.targetPath_eq
    refine ⟨by simp [Parse.targetPath, ht, hu, path], ?_⟩
    simpa [Nat.mul_succ] using drop

theorem Target.length {ts names rest : List Token} :
    Target ts names rest → rest.length + 2 * names.length = ts.length
  | .name _ _ => by simp
  | .field _ _ d => by
    have := d.length
    simp only [List.length_cons] at this ⊢
    omega

theorem target_of_targetPath : ∀ {ts names : List Token}, targetPath ts = some names →
    Target ts names (ts.drop (2 * names.length))
  | t :: u :: rest, names, h => by
    simp only [Parse.targetPath] at h
    split at h
    · rename_i ht
      split at h
      · rename_i hu
        cases h
        exact .name ht hu
      · split at h
        · rename_i hu
          obtain ⟨names', path, rfl⟩ := Option.map_eq_some_iff.mp h
          simpa [Nat.mul_succ] using Target.field ht hu (target_of_targetPath path)
        · cases h
    · cases h
  | [], _, h => by simp [Parse.targetPath] at h
  | [_], _, h => by simp [Parse.targetPath] at h

/-- An expression of any binary level ends before a `.` or an `=` after a name: never
inside an assignment target. -/
theorem Binary.targetPath_none {k : Nat} {ts rest : List Token} {e : Expr}
    (d : Binary k ts e rest) (ends : Ends k rest) : targetPath ts = none := by
  cases path : targetPath ts with
  | none => rfl
  | some names =>
    have target := target_of_targetPath path
    obtain ⟨t, ts', rfl, -, -⟩ := target.skips
    obtain ⟨ht, tail⟩ := target.tail
    exact absurd ends (d.keeps_of_name Postfixes.targetTail TargetTail.levelOp rfl ht tail).not_ends

theorem Expression.of_two_names {t u : Token} {ts rest : List Token} {e : Expr}
    (d : Expression (t :: u :: ts) e rest) (ht : t.kind = .identifier)
    (hu : u.kind = .identifier) : rest = u :: ts := by
  cases d with
  | assign target => cases target <;> simp_all
  | binary b =>
    refine b.keeps_of_name (Q := fun r => r = u :: ts) (fun same p => ?_) (fun j same => ?_)
      rfl ht rfl
    · subst same
      cases p <;> simp_all
    · subst same
      exact levelOp_eq_none (by simp [hu, operatorKinds])

end Grammar

end ClassScript
