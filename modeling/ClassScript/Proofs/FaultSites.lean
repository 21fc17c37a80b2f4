import ClassScript.Proofs.Faults
import ClassScript.Proofs.Folds

/-! Where runtime faults are reported. A fault of an expression is reported once, at the
line of one of its tokens, and a fault raised inside a builtin at the line of the call's
closing parenthesis; a condition with no truth value is reported at no line. -/
namespace ClassScript

/-- A place a phrase reports faults at: the token of a name or an operator, or the closing
parenthesis of a call. -/
inductive Site where
  | token (line : Nat)
  | paren (line : Nat)
  deriving DecidableEq, Repr

def Site.line : Site → Nat
  | .token n | .paren n => n

mutual

def Expr.sites : Expr → List Site
  | .literal _ => []
  | .grouping e => e.sites
  | .var name => [.token name.line]
  | .assign name value => .token name.line :: value.sites
  | .unary _ line e => .token line :: e.sites
  | .binary _ line l r => .token line :: (l.sites ++ r.sites)
  | .logical _ line l r => .token line :: (l.sites ++ r.sites)
  | .call callee line args => .paren line :: (callee.sites ++ Expr.sitesAll args)
  | .new cls => [.token cls.line]
  | .get obj field => .token field.line :: obj.sites
  | .set obj field value => .token field.line :: (obj.sites ++ value.sites)

def Expr.sitesAll : List Expr → List Site
  | [] => []
  | e :: es => e.sites ++ Expr.sitesAll es

end

mutual

def Stmt.sites : Stmt → List Site
  | .expr e => e.sites
  | .block body => Stmt.sitesAll body
  | .ifElse c t e => c.sites ++ (t.sites ++ e.sites)
  | .whileLoop c body => c.sites ++ body.sites
  | .var type name init => .token type.line :: .token name.line :: (init.map Expr.sites).getD []
  | .classDecl name parent fields =>
    .token name.line :: (parent.toList.map fun p => .token p.line) ++
      fields.flatMap fun f => [.token f.type.line, .token f.name.line]

def Stmt.sitesAll : List Stmt → List Site
  | [] => []
  | s :: rest => s.sites ++ Stmt.sitesAll rest

end

namespace Fault

/-- A context that says what a fault arose in rather than where: a declaration, an
assignment or a builtin. -/
def Context.IsTag : Context → Prop
  | .declare _ | .assignTo _ => True
  | .builtin name => name ∈ Builtin.all.map Builtin.name
  | .line _ | .condition _ => False

/-- `f` is reported once, at the line of a site of `sites`: its outermost context is that
line and every context inside it is a tag; a fault raised inside a builtin is reported at
the closing parenthesis of a call. -/
def ReportedIn (sites : List Site) (f : Fault) : Prop :=
  ∃ n tags, f.context = .line n :: tags ∧ (∀ c ∈ tags, c.IsTag) ∧ (∃ s ∈ sites, s.line = n) ∧
    ∀ name, .builtin name ∈ tags → .paren n ∈ sites

theorem ReportedIn.mono {sites sites' : List Site} {f : Fault} (h : f.ReportedIn sites)
    (sub : sites ⊆ sites') : f.ReportedIn sites' := by
  obtain ⟨n, tags, ctx, tagged, ⟨s, hs, line⟩, paren⟩ := h
  exact ⟨n, tags, ctx, tagged, ⟨s, sub hs, line⟩, fun name h => sub (paren name h)⟩

def OfCondition (f : Fault) : Prop :=
  ∃ keyword type, (keyword = "if" ∨ keyword = "while") ∧
    f = ⟨[.condition keyword], .cannotConvert type "bool"⟩

/-- The faults a statement stops with: its budget ran out, a condition has no truth value,
or one is reported at a site of the statement. -/
def OfStmt (sites : List Site) (f : Fault) : Prop :=
  f = ⟨[], .outOfSteps⟩ ∨ f.OfCondition ∨ f.ReportedIn sites

theorem OfStmt.mono {sites sites' : List Site} {f : Fault} (h : f.OfStmt sites)
    (sub : sites ⊆ sites') : f.OfStmt sites' := by
  rcases h with budget | cond | reported
  · exact .inl budget
  · exact .inr (.inl cond)
  · exact .inr (.inr (reported.mono sub))

/-! ### Messages -/

theorem message_cons (c : Context) (rest : List Context) (cause : Cause) :
    (⟨c :: rest, cause⟩ : Fault).message = c.text ++ ": " ++ (⟨rest, cause⟩ : Fault).message := by
  simp [message, String.append_assoc]

theorem Cause.text_not_line (c : Cause) : ¬ "line ".toList <+: c.text.toList := by
  cases c <;> dsimp only [Cause.text] <;> simp [String.toList_append]

theorem Context.IsTag.text_not_line {c : Context} (tag : c.IsTag) (s : String) :
    ¬ "line ".toList <+: (c.text ++ s).toList := by
  cases c with
  | declare n => simp [Context.text, String.toList_append]
  | assignTo n => simp [Context.text, String.toList_append]
  | builtin name =>
    simp only [IsTag, Builtin.all, List.map_cons, List.map_nil, List.mem_cons,
      List.not_mem_nil, or_false] at tag
    rcases tag with rfl | rfl | rfl | rfl | rfl <;>
      simp [Context.text, Builtin.name, String.toList_append]
  | line n => exact absurd tag id
  | condition k => exact absurd tag id

theorem message_not_line {tags : List Context} (tagged : ∀ c ∈ tags, c.IsTag) (cause : Cause) :
    ¬ "line ".toList <+: (⟨tags, cause⟩ : Fault).message.toList := by
  cases tags with
  | nil => simpa [message] using cause.text_not_line
  | cons c rest =>
    rw [message_cons, String.append_assoc]
    exact (tagged c (List.mem_cons_self ..)).text_not_line _

theorem ReportedIn.message {sites : List Site} {f : Fault} (h : f.ReportedIn sites) :
    ∃ n tags, f.context = .line n :: tags ∧
      f.message = "line " ++ toString n ++ ": " ++ (⟨tags, f.cause⟩ : Fault).message ∧
      ¬ "line ".toList <+: (⟨tags, f.cause⟩ : Fault).message.toList ∧
      (∃ s ∈ sites, s.line = n) ∧ ∀ name, .builtin name ∈ tags → .paren n ∈ sites := by
  obtain ⟨n, tags, ctx, tagged, at_, paren⟩ := h
  have split : f = ⟨.line n :: tags, f.cause⟩ := by
    cases f
    simp_all
  refine ⟨n, tags, ctx, ?_, message_not_line tagged f.cause, at_, paren⟩
  rw [split, message_cons]
  rfl

end Fault

namespace Act

variable {α β : Type} {P Q : Fault → Prop}

def Throws (P : Fault → Prop) (x : Act α) : Prop := ∀ m f m', x.run m = .error f m' → P f

/-- `x` is an operation of the object model: every fault it stops at has no context. -/
abbrev Bare (x : Act α) : Prop := Throws (·.context = []) x

theorem Total.throws {x : Act α} (hx : Total x) : Throws P x := by
  intro m f m' h
  obtain ⟨a, m₁, ok⟩ := hx m
  rw [ok] at h
  cases h

theorem throws_pure (a : α) : Throws P (pure a : Act α) := (total_pure a).throws

theorem throws_get : Throws P (get : Act Machine) := fun _ _ _ h => by cases h

theorem throws_fault {c : Fault.Cause} (h : P (.ofCause c)) : Throws P (fault c : Act α) := by
  intro m f m' run
  cases run
  exact h

theorem throws_ofExcept {e : Except Fault.Cause α} (h : ∀ c, P (.ofCause c)) :
    Throws P (ofExcept e) := by
  cases e with
  | ok a => exact throws_pure a
  | error c => exact throws_fault (h c)

theorem Throws.mono {x : Act α} (hx : Throws P x) (h : ∀ f, P f → Q f) : Throws Q x :=
  fun m f m' run => h f (hx m f m' run)

theorem Throws.bind {x : Act α} {f : α → Act β} (hx : Throws P x) (hf : ∀ a, Throws P (f a)) :
    Throws P (x >>= f) := by
  intro m e m'' h
  rcases run_bind_error h with h | ⟨a, m', -, h'⟩
  · exact hx m e m'' h
  · exact hf a m' e m'' h'

theorem Throws.map {x : Act α} (g : α → β) (hx : Throws P x) : Throws P (g <$> x) := by
  rw [map_eq_pure_bind]
  exact hx.bind fun _ => throws_pure _

theorem Throws.ite {c : Prop} [Decidable c] {x y : Act α} (hx : Throws P x) (hy : Throws P y) :
    Throws P (if c then x else y) := by
  split
  · exact hx
  · exact hy

/-- A fault out of `within ctx x` is one of `x`'s, inside `ctx`. -/
theorem Throws.within {x : Act α} (ctx : Fault.Context) (hx : Throws P x)
    (h : ∀ f, P f → Q (f.within ctx)) : Throws Q (within ctx x) := by
  intro m f m' run
  rw [run_within] at run
  cases hr : x.run m with
  | ok a m₁ => rw [hr] at run; cases run
  | error f₁ m₁ =>
    rw [hr] at run
    cases run
    exact h f₁ (hx m f₁ _ hr)

theorem throws_forM {γ : Type} (l : List γ) (f : γ → Act PUnit) (hf : ∀ a, Throws P (f a)) :
    Throws P (l.forM f) := by
  induction l with
  | nil => exact throws_pure _
  | cons a l ih => exact (hf a).bind fun _ => ih

theorem throws_forIn {γ : Type} (l : List γ) (b : β) (f : γ → β → Act (ForInStep β))
    (hf : ∀ a ∈ l, ∀ b, Throws P (f a b)) : Throws P (forIn l b f) := by
  induction l generalizing b with
  | nil => exact throws_pure _
  | cons a l ih =>
    rw [List.forIn_cons]
    refine (hf a (List.mem_cons_self ..) b).bind ?_
    intro step
    cases step with
    | done b => exact throws_pure _
    | yield b => exact ih b fun a ha => hf a (List.mem_cons_of_mem _ ha)

theorem Total.bind {x : Act α} {f : α → Act β} (hx : Total x) (hf : ∀ a, Total (f a)) :
    Total (x >>= f) := fun m => by
  obtain ⟨a, m₁, ok⟩ := hx m
  obtain ⟨b, m₂, ok'⟩ := hf a m₁
  exact ⟨b, m₂, by rw [EStateM.run_bind, ok]; exact ok'⟩

theorem total_mapM {γ δ : Type} (l : List γ) (f : γ → Act δ) (hf : ∀ a, Total (f a)) :
    Total (l.mapM f) := by
  induction l with
  | nil => exact total_pure _
  | cons a l ih =>
    rw [List.mapM_cons]
    exact (hf a).bind fun _ => ih.bind fun _ => total_pure _

/-! ### Operations of the object model -/

theorem total_get : Total (get : Act Machine) := fun m => ⟨m, m, rfl⟩

theorem total_alloc (c : Cell) : Total (alloc c) := fun _ => ⟨_, _, rfl⟩

theorem total_freshId : Total freshId := fun _ => ⟨_, _, rfl⟩

theorem total_newTable (t : Table) : Total (newTable t) := fun _ => ⟨_, _, rfl⟩

theorem total_setTable (i : Nat) (t : Table) : Total (setTable i t) := fun _ => ⟨(), _, rfl⟩

theorem total_modifyGet {γ : Type} (g : Machine → γ × Machine) : Total (modifyGet g) :=
  fun m => ⟨(g m).1, (g m).2, rfl⟩

theorem total_emit (s : String) : Total (emit s) := fun _ => ⟨(), _, rfl⟩

theorem total_typeName (v : Value) : Total (typeName v) := fun _ => ⟨_, _, rfl⟩

theorem total_cellOf (v : Value) : Total (cellOf v) := by
  cases v <;> exact fun _ => ⟨_, _, rfl⟩

theorem bare_fault (c : Fault.Cause) : Bare (fault c : Act α) := throws_fault rfl

theorem bare_ofExcept (e : Except Fault.Cause α) : Bare (ofExcept e) := throws_ofExcept fun _ => rfl

theorem bare_updateRegistry (g : Registry → Except Fault.Cause Registry) :
    Bare (updateRegistry g) :=
  (throws_get.bind fun _ => bare_ofExcept _).bind fun _ => (total_modify _).throws

theorem throws_noConversion (v : Value) (target : String) :
    Throws (fun f => ∃ type, f = .ofCause (.cannotConvert type target))
      (noConversion v target : Act α) :=
  (total_typeName v).throws.bind fun type => throws_fault ⟨type, rfl⟩

theorem bare_noConversion (v : Value) (target : String) : Bare (noConversion v target : Act α) :=
  (throws_noConversion v target).mono fun _ ⟨_, h⟩ => by rw [h]; rfl

theorem throws_asBool (v : Value) :
    Throws (fun f => ∃ type, f = .ofCause (.cannotConvert type "bool")) (asBool v) := by
  refine (total_cellOf v).throws.bind ?_
  intro c
  split
  · exact throws_pure _
  · exact throws_pure _
  · exact throws_pure _
  · exact throws_pure _
  · exact throws_noConversion v "bool"

theorem bare_asBool (v : Value) : Bare (asBool v) :=
  (throws_asBool v).mono fun _ ⟨_, h⟩ => by rw [h]; rfl

theorem bare_asInt (v : Value) : Bare (asInt v) := by
  refine (total_cellOf v).throws.bind ?_
  intro c
  split
  · exact throws_pure _
  · exact throws_pure _
  · exact throws_pure _
  · split
    · exact throws_pure _
    · exact bare_fault _
  · exact bare_noConversion v "int"

theorem bare_asReal (v : Value) : Bare (asReal v) := by
  refine (total_cellOf v).throws.bind ?_
  intro c
  split
  · exact throws_pure _
  · exact throws_pure _
  · exact throws_pure _
  · split
    · exact throws_pure _
    · exact bare_fault _
  · exact bare_noConversion v "real"

theorem bare_checkAssignable (target : Ty) (v : Value) : Bare (checkAssignable target v) := by
  unfold checkAssignable
  split
  · refine throws_get.bind ?_
    intro m
    split
    · exact Throws.ite (throws_pure _) (bare_fault _)
    · exact throws_pure _
  · exact throws_pure _

theorem bare_text (v : Value) : Bare (text v) :=
  throws_get.bind fun _ => (throws_forM _ _ fun c => (total_consult c).throws).bind fun _ =>
    throws_pure _

theorem bare_setValue (target v : Value) : Bare (setValue target v) := by
  cases target with
  | null => exact bare_fault _
  | builtin f => exact bare_fault _
  | ref a =>
    refine throws_get.bind ?_
    intro m
    split
    · exact (bare_asInt v).bind fun _ => (total_setCell _ _).throws
    · exact (bare_asReal v).bind fun _ => (total_setCell _ _).throws
    · exact (bare_asBool v).bind fun _ => (total_setCell _ _).throws
    · exact (bare_text v).bind fun _ => (total_setCell _ _).throws
    · refine throws_get.bind ?_
      intro m'
      split
      · exact (total_setCell _ _).throws
      · exact (total_setCell _ _).throws
      · exact (total_typeName _).throws.bind fun _ => throws_get.bind fun _ => bare_fault _
    · exact throws_pure _

theorem bare_parseInto (target : Value) (s : String) : Bare (parseInto target s) := by
  cases target with
  | null => exact bare_fault _
  | builtin f => exact bare_fault _
  | ref a =>
    refine throws_get.bind ?_
    intro m
    split
    · split
      · exact (total_setCell _ _).throws
      · exact bare_fault _
    · split
      · exact (total_setCell _ _).throws
      · exact bare_fault _
    · split
      · exact (total_setCell _ _).throws
      · exact bare_fault _
    · exact (total_setCell _ _).throws
    · exact throws_get.bind fun _ => bare_fault _
    · exact throws_pure _

theorem total_newObject (c : Nat) : Total (newObject c) :=
  total_freshId.bind fun _ => total_alloc _

theorem total_newDefault (t : Ty) : Total (newDefault t) := by
  cases t with
  | cls c => exact total_newObject c
  | null => exact total_pure _
  | function => exact total_pure _
  | int => exact total_alloc _
  | real => exact total_alloc _
  | bool => exact total_alloc _
  | string => exact total_alloc _

theorem total_initializeFields (a : Nat) : Total (initializeFields a) := by
  refine total_get.bind ?_
  intro m
  split
  · exact (total_consult _).bind fun _ => total_get.bind fun _ =>
      (total_mapM _ _ fun (f : String × Ty) => (total_newDefault f.2).bind fun _ =>
        total_pure _).bind
        fun _ => (total_newTable _).bind fun _ => total_setCell _ _
  · exact total_pure _

theorem bare_fieldType (c : Nat) (name : String) : Bare (fieldType c name) :=
  (total_consult c).throws.bind fun _ => throws_get.bind fun _ => throws_pure _

theorem bare_visible (c : Nat) (entries : Table) (name : String) :
    Bare (visible c entries name) := by
  unfold visible
  split
  · exact (total_consult c).throws.bind fun _ => throws_get.bind fun _ => throws_pure _
  · exact throws_pure _

theorem bare_getField (a : Nat) (name : String) : Bare (getField a name) := by
  refine throws_get.bind ?_
  intro m
  split
  · exact bare_fault _
  · refine (bare_visible _ _ _).bind ?_
    intro visible
    split
    · split
      · exact throws_pure _
      · exact bare_fault _
    · exact bare_fault _
  · exact bare_fault _

theorem bare_setField (a : Nat) (name : String) (v : Value) : Bare (setField a name v) := by
  refine throws_get.bind ?_
  intro m
  split
  · exact bare_fault _
  · refine (bare_visible _ _ _).bind ?_
    intro visible
    split
    · exact (total_setTable _ _).throws
    · exact bare_fault _
  · exact bare_fault _

theorem bare_clone (v : Value) : Bare (clone v) := by
  cases v with
  | null => exact throws_pure _
  | builtin f => exact throws_pure _
  | ref a =>
    refine throws_get.bind ?_
    intro m
    split
    · refine (total_newObject _).throws.bind ?_
      intro copy
      -- the copy gets a table of its own only when the original has one
      dsimp only
      split
      · refine throws_get.bind fun _ => (total_newTable _).throws.bind fun _ =>
          throws_get.bind fun _ => ?_
        split
        · exact (total_setCell _ _).throws.bind fun _ => throws_pure _
        · exact throws_pure _
      · exact throws_pure _
    · exact (total_alloc _).throws
    · exact throws_pure _

theorem bare_unary (op : UnaryOp) (v : Value) : Bare (unary op v) := by
  cases op with
  | neg =>
    refine (total_cellOf v).throws.bind ?_
    intro c
    split
    · exact (total_alloc _).throws
    · exact (total_alloc _).throws
    · exact (total_typeName v).throws.bind fun _ => bare_fault _
  | not => exact (bare_asBool v).bind fun _ => (total_alloc _).throws

theorem bare_intArith (op : BinaryOp) (a b : Int64) : Bare (intArith op a b) := by
  unfold intArith
  split
  · exact (total_alloc _).throws
  · exact (total_alloc _).throws
  · exact (total_alloc _).throws
  · exact Throws.ite (bare_fault _) (total_alloc _).throws

theorem bare_realArith (op : BinaryOp) (a b : Real) : Bare (realArith op a b) := by
  unfold realArith
  split <;> exact (total_alloc _).throws

theorem bare_binary (op : BinaryOp) (l r : Value) : Bare (binary op l r) := by
  unfold binary
  split
  · exact throws_get.bind fun _ => (total_alloc _).throws
  · exact throws_get.bind fun _ => (total_alloc _).throws
  · refine (total_cellOf l).throws.bind ?_
    intro lc
    refine (total_cellOf r).throws.bind ?_
    intro rc
    refine Throws.ite ((bare_text l).bind fun _ => (bare_text r).bind fun _ =>
      (total_alloc _).throws)
      (Throws.ite ((total_typeName l).throws.bind fun _ => bare_fault _)
      (Throws.ite ((total_typeName r).throws.bind fun _ => bare_fault _) ?_))
    have reals : Bare (asReal l) ∧ Bare (asReal r) := ⟨bare_asReal l, bare_asReal r⟩
    split
    · exact reals.1.bind fun _ => reals.2.bind fun _ => (total_alloc _).throws
    · exact reals.1.bind fun _ => reals.2.bind fun _ => (total_alloc _).throws
    · exact reals.2.bind fun _ => reals.1.bind fun _ => (total_alloc _).throws
    · exact reals.2.bind fun _ => reals.1.bind fun _ => (total_alloc _).throws
    · split
      · exact bare_intArith _ _ _
      · exact reals.1.bind fun _ => reals.2.bind fun _ => bare_realArith _ _ _

theorem total_literal (l : Literal) : Total (literal l) := by
  cases l with
  | null => exact total_pure _
  | bool b => exact total_alloc _
  | int v => exact total_alloc _
  | real v => exact total_alloc _
  | string s => exact total_alloc _

theorem bare_fieldValue (a : Nat) (name : String) (v : Value) : Bare (fieldValue a name v) := by
  refine throws_get.bind ?_
  intro m
  refine (bare_fieldType _ _).bind ?_
  intro ft
  split
  · exact bare_fault _
  · refine (bare_checkAssignable _ v).bind ?_
    intro _
    refine throws_get.bind ?_
    intro m'
    dsimp only
    split
    · exact Throws.ite (throws_pure _) (bare_fault _)
    · exact Throws.ite (total_newDefault _).throws (bare_fault _)
    · exact (total_newDefault _).throws.bind fun box =>
        (bare_setValue box _).bind fun _ => throws_pure _

theorem bare_callBuiltin (b : Builtin) (args : List Value) : Bare (callBuiltin b args) := by
  unfold callBuiltin
  split
  · exact (bare_text _).bind fun _ => (total_emit _).throws.bind fun _ => throws_pure _
  · exact (bare_text _).bind fun _ => (total_alloc _).throws
  · exact bare_clone _
  · exact throws_get.bind fun _ => (total_alloc _).throws
  · exact (bare_text _).bind fun _ => (bare_parseInto _ _).bind fun _ => throws_pure _
  · exact throws_pure _

/-! ### Expressions -/

open Fault

theorem Bare.atLine {x : Act α} (hx : Bare x) {sites : List Site} {n : Nat}
    (at_ : ∃ s ∈ sites, s.line = n) : Throws (ReportedIn sites) (Act.atLine n x) :=
  hx.within _ fun f hf => ⟨n, [], by simp [Fault.within, hf], by simp, at_, by simp⟩

/-- An operation of the object model run inside a tag at a line of a site is reported there;
inside a builtin, at a call's closing parenthesis. -/
theorem Bare.atLine_tag {x : Act α} (hx : Bare x) {sites : List Site} {n : Nat} {c : Context}
    (tag : c.IsTag) (at_ : ∃ s ∈ sites, s.line = n)
    (paren : ∀ name, c = .builtin name → .paren n ∈ sites) :
    Throws (ReportedIn sites) (Act.atLine n (Act.within c x)) :=
  (hx.within (Q := fun f => f.context = [c]) c fun f hf => by simp [Fault.within, hf]).within _
    fun f hf => ⟨n, [c], by simp [Fault.within, hf], by simpa using tag, at_,
      fun name h => paren name (List.mem_singleton.mp h).symm⟩

theorem Throws.widen {x : Act α} {sites sites' : List Site} (hx : Throws (ReportedIn sites) x)
    (sub : sites ⊆ sites') : Throws (ReportedIn sites') x :=
  hx.mono fun _ h => h.mono sub

theorem Throws.widenStmt {x : Act α} {sites sites' : List Site} (hx : Throws (OfStmt sites) x)
    (sub : sites ⊆ sites') : Throws (OfStmt sites') x :=
  hx.mono fun _ h => h.mono sub

theorem throws_instanceBox (v : Value) (field : Name) {sites : List Site}
    (here : ∃ s ∈ sites, s.line = field.line) : Throws (ReportedIn sites) (instanceBox v field) := by
  refine throws_get.bind ?_
  intro m
  split
  · exact throws_pure _
  · exact (total_typeName v).throws.bind fun _ => (bare_fault _).atLine here

theorem builtin_isTag (b : Builtin) : (Context.builtin b.name).IsTag := by
  cases b <;> simp [Context.IsTag, Builtin.all, Builtin.name]

mutual

/-- Every fault of an expression is reported once, at one of its sites. -/
theorem throws_eval (scope : Scope) : ∀ e : Expr, Throws (ReportedIn e.sites) (eval scope e)
  | .literal l => by
    simp only [eval]
    exact (total_literal l).throws
  | .grouping e => by
    simp only [eval]
    exact throws_eval scope e
  | .var name => by
    simp only [eval]
    split
    · exact throws_pure _
    · exact (bare_fault _).atLine ⟨_, List.mem_cons_self .., rfl⟩
  | .assign name rhs => by
    simp only [eval]
    have here : ∃ s ∈ (Expr.assign name rhs).sites, s.line = name.line :=
      ⟨_, List.mem_cons_self .., rfl⟩
    refine ((throws_eval scope rhs).widen (List.subset_cons_self _ _)).bind ?_
    intro v
    split
    · exact (bare_fault _).atLine here
    · exact throws_get.bind fun _ => ((bare_checkAssignable _ _).atLine here).bind fun _ =>
        ((bare_setValue _ _).atLine_tag (by trivial) here (by simp)).bind fun _ => throws_pure _
  | .unary op line e => by
    simp only [eval]
    exact ((throws_eval scope e).widen (List.subset_cons_self _ _)).bind fun v =>
      (bare_unary op v).atLine ⟨_, List.mem_cons_self .., rfl⟩
  | .binary op line l r => by
    simp only [eval]
    have operands : l.sites ⊆ (Expr.binary op line l r).sites ∧
        r.sites ⊆ (Expr.binary op line l r).sites := by
      constructor <;> intro s hs <;> simp [Expr.sites, hs]
    exact ((throws_eval scope l).widen operands.1).bind fun lv =>
      ((throws_eval scope r).widen operands.2).bind fun rv =>
        (bare_binary op lv rv).atLine ⟨_, List.mem_cons_self .., rfl⟩
  | .logical op line l r => by
    simp only [eval]
    have operands : l.sites ⊆ (Expr.logical op line l r).sites ∧
        r.sites ⊆ (Expr.logical op line l r).sites := by
      constructor <;> intro s hs <;> simp [Expr.sites, hs]
    refine ((throws_eval scope l).widen operands.1).bind ?_
    intro lv
    refine ((bare_asBool lv).atLine ⟨_, List.mem_cons_self .., rfl⟩).bind ?_
    intro truthy
    cases op with
    | or => exact Throws.ite (throws_pure _) ((throws_eval scope r).widen operands.2)
    | and => exact Throws.ite ((throws_eval scope r).widen operands.2) (throws_pure _)
  | .call callee line args => by
    simp only [eval]
    have parts : callee.sites ⊆ (Expr.call callee line args).sites ∧
        Expr.sitesAll args ⊆ (Expr.call callee line args).sites := by
      constructor <;> intro s hs <;> simp [Expr.sites, hs]
    have paren : Site.paren line ∈ (Expr.call callee line args).sites := List.mem_cons_self ..
    refine ((throws_eval scope callee).widen parts.1).bind ?_
    intro f
    refine ((throws_evalAll scope args).widen parts.2).bind ?_
    intro vs
    split
    · exact Throws.ite ((bare_fault _).atLine ⟨_, paren, rfl⟩)
        ((bare_callBuiltin _ _).atLine_tag (builtin_isTag _) ⟨_, paren, rfl⟩ fun _ _ => paren)
    · exact (total_typeName _).throws.bind fun _ => (bare_fault _).atLine ⟨_, paren, rfl⟩
  | .new cls => by
    simp only [eval]
    refine throws_get.bind ?_
    intro m
    refine ((bare_ofExcept _).atLine ⟨_, List.mem_cons_self .., rfl⟩).bind ?_
    intro c
    refine (total_newObject c).throws.bind ?_
    intro obj
    split
    · exact (total_initializeFields _).throws.bind fun _ => throws_pure _
    · exact throws_pure _
  | .get obj field => by
    simp only [eval]
    have here : ∃ s ∈ (Expr.get obj field).sites, s.line = field.line :=
      ⟨_, List.mem_cons_self .., rfl⟩
    refine ((throws_eval scope obj).widen (List.subset_cons_self _ _)).bind ?_
    intro v
    exact (throws_instanceBox v field here).bind fun a => (bare_getField a field.text).atLine here
  | .set obj field rhs => by
    simp only [eval]
    have here : ∃ s ∈ (Expr.set obj field rhs).sites, s.line = field.line :=
      ⟨_, List.mem_cons_self .., rfl⟩
    have operands : obj.sites ⊆ (Expr.set obj field rhs).sites ∧
        rhs.sites ⊆ (Expr.set obj field rhs).sites := by
      constructor <;> intro s hs <;> simp [Expr.sites, hs]
    exact ((throws_eval scope obj).widen operands.1).bind fun o =>
      (throws_instanceBox o field here).bind fun a =>
        ((throws_eval scope rhs).widen operands.2).bind fun v =>
          ((bare_fieldValue a field.text v).atLine here).bind fun stored =>
            ((bare_setField a field.text stored).atLine here).bind fun _ => throws_pure _

theorem throws_evalAll (scope : Scope) :
    ∀ es : List Expr, Throws (ReportedIn (Expr.sitesAll es)) (evalAll scope es)
  | [] => by
    simp only [evalAll]
    exact throws_pure _
  | e :: es => by
    simp only [evalAll]
    exact ((throws_eval scope e).widen (List.subset_append_left _ _)).bind fun _ =>
      ((throws_evalAll scope es).widen (List.subset_append_right _ _)).bind fun _ =>
        throws_pure _

end

/-! ### Statements -/

theorem throws_condition {keyword : String} (kw : keyword = "if" ∨ keyword = "while")
    (scope : Scope) {c : Expr} {sites : List Site} (sub : c.sites ⊆ sites) :
    Throws (OfStmt sites) (condition keyword scope c) :=
  ((throws_eval scope c).mono fun _ h => .inr (.inr (h.mono sub))).bind fun v =>
    (throws_asBool v).within _ fun _ ⟨type, h⟩ => .inr (.inl ⟨keyword, type, kw, by rw [h]; rfl⟩)

theorem throws_declareVar (scope : Scope) (type name : Name) (init : Option Expr) :
    Throws (ReportedIn (Stmt.var type name init).sites) (declareVar scope type name init) := by
  have atType : ∃ s ∈ (Stmt.var type name init).sites, s.line = type.line :=
    ⟨_, List.mem_cons_self .., rfl⟩
  have atName : ∃ s ∈ (Stmt.var type name init).sites, s.line = name.line :=
    ⟨.token name.line, by simp [Stmt.sites], rfl⟩
  refine (throws_get.bind fun _ => (bare_ofExcept _).atLine atType).bind ?_
  intro t
  refine (total_newDefault t).throws.bind ?_
  intro box
  cases init with
  | some e =>
    have sub : e.sites ⊆ (Stmt.var type name (some e)).sites := by
      intro s hs
      simp [Stmt.sites, hs]
    exact ((throws_eval scope e).widen sub).bind fun v =>
      (Bare.atLine_tag ((bare_checkAssignable t v).bind fun _ => bare_setValue box v) (by trivial)
        atName (by simp)).bind fun _ => throws_pure _
  | none => exact throws_pure _

theorem throws_declareClass (name : Name) (parent : Option Name) (fields : List FieldDecl) :
    Throws (ReportedIn (Stmt.classDecl name parent fields).sites)
      (declareClass name parent fields) := by
  have atName : ∃ s ∈ (Stmt.classDecl name parent fields).sites, s.line = name.line :=
    ⟨_, List.mem_cons_self .., rfl⟩
  have atField : ∀ f ∈ fields, (∃ s ∈ (Stmt.classDecl name parent fields).sites,
      s.line = f.type.line) ∧ ∃ s ∈ (Stmt.classDecl name parent fields).sites,
        s.line = f.name.line := fun f hf =>
    ⟨⟨.token f.type.line, List.mem_append_right _ (List.mem_flatMap.2 ⟨f, hf, by simp⟩), rfl⟩,
      ⟨.token f.name.line, List.mem_append_right _ (List.mem_flatMap.2 ⟨f, hf, by simp⟩), rfl⟩⟩
  unfold declareClass
  cases parent
  on_goal 1 => refine (throws_pure _).bind fun super => ?_
  on_goal 2 =>
    rename_i p
    refine throws_get.bind fun _ => Throws.bind (((bare_ofExcept _).atLine
      ⟨.token p.line, by simp [Stmt.sites], rfl⟩).map _) fun super => ?_
  -- the class is made, filled and declared the same way with a parent or without
  all_goals
    refine (total_modifyGet _).throws.bind fun c => ?_
    refine Throws.bind ?_ fun _ => ((bare_updateRegistry _).atLine atName).bind fun _ =>
      (total_consult c).throws
    refine throws_forIn _ _ _ fun f hf _ => ?_
    apply Throws.ite
    · exact (throws_pure _).bind fun ft => ((bare_updateRegistry _).atLine (atField f hf).2).bind
        fun _ => throws_pure _
    · exact throws_get.bind fun _ => ((bare_ofExcept _).atLine (atField f hf).1).bind fun ft =>
        ((bare_updateRegistry _).atLine (atField f hf).2).bind fun _ => throws_pure _

mutual

/-- Every fault of a statement is its budget's, a condition's want of a truth value, or
reported once at one of its sites. -/
theorem throws_exec :
    ∀ (n : Nat) (stmt : Stmt) (scope : Scope), Throws (OfStmt stmt.sites) (exec n stmt scope)
  | 0, _, _ => by
    simp only [exec]
    exact throws_fault (.inl rfl)
  | n + 1, stmt, scope => by
    cases stmt with
    | expr e =>
      simp only [exec]
      exact ((throws_eval scope e).mono fun _ h => .inr (.inr h)).bind fun _ => throws_pure _
    | block body =>
      simp only [exec]
      exact (throws_execAll n body _).bind fun _ => throws_pure _
    | ifElse c t e =>
      simp only [exec]
      have parts : c.sites ⊆ (Stmt.ifElse c t e).sites ∧ t.sites ⊆ (Stmt.ifElse c t e).sites ∧
          e.sites ⊆ (Stmt.ifElse c t e).sites := by
        refine ⟨?_, ?_, ?_⟩ <;> intro s hs <;> simp [Stmt.sites, hs]
      exact (throws_condition (.inl rfl) scope parts.1).bind fun _ =>
        Throws.ite ((throws_exec n t scope).widenStmt parts.2.1)
          ((throws_exec n e scope).widenStmt parts.2.2)
    | whileLoop c body =>
      simp only [exec]
      have parts : c.sites ⊆ (Stmt.whileLoop c body).sites ∧
          body.sites ⊆ (Stmt.whileLoop c body).sites := by
        constructor <;> intro s hs <;> simp [Stmt.sites, hs]
      -- the loop runs again as the same statement, with less budget
      exact (throws_condition (.inr rfl) scope parts.1).bind fun _ =>
        Throws.ite (((throws_exec n body scope).widenStmt parts.2).bind fun scope' =>
          throws_exec n (.whileLoop c body) scope') (throws_pure _)
    | var type name init =>
      simp only [exec]
      exact (throws_declareVar scope type name init).mono fun _ h => .inr (.inr h)
    | classDecl name parent fields =>
      simp only [exec]
      exact ((throws_declareClass name parent fields).mono fun _ h => .inr (.inr h)).bind
        fun _ => throws_pure _

theorem throws_execAll : ∀ (n : Nat) (stmts : List Stmt) (scope : Scope),
    Throws (OfStmt (Stmt.sitesAll stmts)) (execAll n stmts scope)
  | _, [], scope => by
    simp only [execAll]
    exact throws_pure _
  | 0, _ :: _, _ => by
    simp only [execAll]
    exact throws_fault (.inl rfl)
  | n + 1, s :: rest, scope => by
    simp only [execAll]
    exact ((throws_exec n s scope).widenStmt (List.subset_append_left _ _)).bind fun scope' =>
      (throws_execAll n rest scope').widenStmt (List.subset_append_right _ _)

end

end Act

namespace Session

/-- A runtime fault of a step comes out of running the statements of a source that scanned
and parsed. -/
theorem step_fault {s : Session} {source : String} {f : Fault}
    (h : (s.step source).1.error = some (.fault f)) :
    ∃ tokens stmts s', Token.scan source = .ok tokens ∧ Stmt.parseAll tokens = (stmts, []) ∧
      ({ s with machine := { s.machine with out := "" } }).runAll stmts = (some f, s') := by
  simp only [step_eq] at h
  split at h
  · simp at h
  · rename_i tokens scanned
    split at h
    · simp at h
    · rename_i stmts parsed
      rcases ran : ({ s with machine := { s.machine with out := "" } }).runAll stmts with
        ⟨fault?, s'⟩
      rw [ran] at h
      cases fault? with
      | none => simp at h
      | some f' =>
        simp only [Option.map_some, Option.some.injEq, StepError.fault.injEq] at h
        exact ⟨tokens, stmts, s', scanned, parsed, by rw [ran, h]⟩

/-- Every runtime fault names the line of the statement it stopped, once, at a name, operator
or call parenthesis of it, except for a budget spent or a condition with no truth value,
which names no line. -/
theorem runtime_faults_name_their_line (s : Session) (source : String) (f : Fault)
    (failed : (s.step source).1.error = some (.fault f)) :
    ∃ tokens stmts, Token.scan source = .ok tokens ∧ Stmt.parseAll tokens = (stmts, []) ∧
      ∃ done stmt rest, stmts = done ++ stmt :: rest ∧
      (∃ s₀ m, ({ s with machine := { s.machine with out := "" } }).runAll done = (none, s₀) ∧
        (Act.exec budget stmt [s₀.globals]).run s₀.machine = .error f m) ∧
      (f = ⟨[], .outOfSteps⟩ ∨ f.OfCondition ∨
        ∃ n tags, f.context = .line n :: tags ∧
          f.message = "line " ++ toString n ++ ": " ++ (⟨tags, f.cause⟩ : Fault).message ∧
          ¬ "line ".toList <+: (⟨tags, f.cause⟩ : Fault).message.toList ∧
          (∃ site ∈ stmt.sites, site.line = n) ∧
          ∀ name, .builtin name ∈ tags → .paren n ∈ stmt.sites) := by
  obtain ⟨tokens, stmts, s', scanned, parsed, ran⟩ := step_fault failed
  obtain ⟨done, stmt, rest, s₀, rfl, ranDone, failedStmt, -⟩ := runAll_fault ran
  refine ⟨tokens, _, scanned, parsed, done, stmt, rest, rfl, ⟨s₀, _, ranDone, failedStmt⟩, ?_⟩
  rcases Act.throws_exec _ stmt _ _ _ _ failedStmt with budget | cond | reported
  · exact .inl budget
  · exact .inr (.inl cond)
  · exact .inr (.inr reported.message)

/-- `print(1 / 0);` stops at its division, reported at line 1. -/
theorem division_reported_at_its_line :
    let source := "print(1 / 0);"
    let f : Fault := ⟨[.line 1], .divisionByZero⟩
    ((Session.start 0).step source).1.error = some (.fault f) ∧
    ∃ tokens stmts, Token.scan source = .ok tokens ∧ Stmt.parseAll tokens = (stmts, []) ∧
      ∃ done stmt rest, stmts = done ++ stmt :: rest ∧
      (∃ s₀ m, ({ Session.start 0 with
          machine := { (Session.start 0).machine with out := "" } }).runAll done = (none, s₀) ∧
        (Act.exec budget stmt [s₀.globals]).run s₀.machine = .error f m) ∧
      (f = ⟨[], .outOfSteps⟩ ∨ f.OfCondition ∨
        ∃ n tags, f.context = .line n :: tags ∧
          f.message = "line " ++ toString n ++ ": " ++ (⟨tags, f.cause⟩ : Fault).message ∧
          ¬ "line ".toList <+: (⟨tags, f.cause⟩ : Fault).message.toList ∧
          (∃ site ∈ stmt.sites, site.line = n) ∧
          ∀ name, .builtin name ∈ tags → .paren n ∈ stmt.sites) := by
  intro source f
  have failed : ((Session.start 0).step source).1.error = some (.fault f) := by decide +kernel
  exact ⟨failed, runtime_faults_name_their_line _ _ _ failed⟩

/-- A condition with no truth value is reported at no line: `if (null)` on the second line
of a source stops with `if condition: cannot convert type 'null' to bool`, and nothing
names line 2. -/
theorem condition_fault_names_no_line :
    ¬ ∀ (s : Session) (source : String) (f : Fault),
      (s.step source).1.error = some (.fault f) → "line ".toList <+: f.message.toList := by
  intro claim
  have failed : ((Session.start 0).step "\nif (null) print(1);").1.error =
      some (.fault ⟨[.condition "if"], .cannotConvert "null" "bool"⟩) := by decide +kernel
  have begins := claim _ _ _ failed
  revert begins
  decide +kernel

end Session

end ClassScript
