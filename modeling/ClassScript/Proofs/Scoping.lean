import ClassScript.Proofs.TypeSafety
import ClassScript.Proofs.Parsing
import ClassScript.Proofs.FaultSites
import ClassScript.Proofs.Bytes

/-! Block scoping. A block binds in a frame of its own that is dropped when it ends, however
it ends, and no branch or loop body is a declaration; so a session's global names are the
builtins' and those of the top-level declarations that completed, each once. -/
namespace ClassScript

/-! ### Sources end in one `Eof` -/

namespace Scan

theorem singleKind_ne_eof {c : Char} {k : Token.Kind} (h : singleKind c = some k) : k ≠ .eof := by
  unfold singleKind at h
  split at h <;> cases h <;> decide

theorem equalKinds_ne_eof {c : Char} {a b : Token.Kind} (h : equalKinds c = some (a, b)) :
    a ≠ .eof ∧ b ≠ .eof := by
  unfold equalKinds at h
  split at h <;> cases h <;> decide

theorem wordKind_ne_eof (w : String) : Token.wordKind w ≠ .eof := by
  have keywords : ∀ p ∈ Token.keywords, p.2 ≠ .eof := by decide
  unfold Token.wordKind
  cases found : Token.keywords.lookup w with
  | none => decide
  | some k => exact keywords (w, k) (mem_of_lookup_eq_some found)

theorem number_kind {c : Char} {rest : List Char} {line taken : Nat} {t : Token}
    (h : number c rest line = .ok (taken, t)) : t.kind = .int ∨ t.kind = .real := by
  unfold number at h
  dsimp only at h
  split at h
  · split at h
    · cases h
      exact .inr rfl
    · cases h
  · split at h
    · cases h
      exact .inl rfl
    · cases h

theorem step_not_eof {lead : Char → Char} {c : Char} {rest : List Char} {line taken line' : Nat}
    {t : Token} (h : step lead c rest line = .ok (taken, some t, line')) : t.kind ≠ .eof := by
  unfold step at h
  dsimp only at h
  split at h
  · -- punctuation
    cases h
    exact singleKind_ne_eof ‹_›
  · split at h
    · -- an operator, alone or with `=`
      split at h
      · cases h
        exact (equalKinds_ne_eof ‹_›).2
      · cases h
        exact (equalKinds_ne_eof ‹_›).1
    · split at h
      · -- a comment or `/`
        split at h
        · cases h
        · split at h
          · cases h
          · cases h
        · cases h
          simp
      · split at h
        · cases h
        · split at h
          · cases h
          · split at h
            · -- a string literal
              split at h
              · cases h
                simp
              · cases h
            · split at h
              · -- a number
                split at h
                · cases h
                  rename_i found
                  rcases number_kind found with kind | kind <;> simp [kind]
                · cases h
              · -- a word
                split at h
                · cases h
                  exact wordKind_ne_eof _
                · cases h

/-- A scan that succeeds ends its tokens with one `Eof` and has no other. -/
theorem run_ends_with_eof {lead : Char → Char} {cs : List Char} {line : Nat}
    {acc tokens : List Token} (hacc : ∀ t ∈ acc, t.kind ≠ .eof) (h : run lead cs line acc = .ok tokens) :
    ∃ body eof, tokens = body ++ [eof] ∧ eof.kind = .eof ∧ ∀ t ∈ body, t.kind ≠ .eof := by
  fun_induction run lead cs line acc with
  | case1 line acc =>
    cases h
    exact ⟨acc.reverse, _, rfl, rfl, by simpa using hacc⟩
  | case2 c rest line acc e found => simp at h
  | case3 c rest line acc taken tok line' found _ ih =>
    refine ih ?_ h
    cases tok with
    | none => exact hacc
    | some t =>
      intro u hu
      rcases List.mem_cons.mp hu with rfl | hu
      · exact step_not_eof found
      · exact hacc u hu

end Scan

theorem Token.scan_ends_with_eof {source : String} {tokens : List Token}
    (h : Token.scan source = .ok tokens) :
    ∃ body eof, tokens = body ++ [eof] ∧ eof.kind = .eof ∧ ∀ t ∈ body, t.kind ≠ .eof :=
  Scan.run_ends_with_eof (by simp) (Token.scan_eq_run source ▸ h)

/-! ### What a statement binds -/

/-- The names a statement can bind in the scope it runs in: a declaration's own, and those
of the branches and the body it runs in that scope. A block binds in a frame of its own. -/
def Stmt.exposed : Stmt → List String
  | .var _ name _ => [name.text]
  | .ifElse _ t e => t.exposed ++ e.exposed
  | .whileLoop _ body => body.exposed
  | .expr _ | .block _ | .classDecl .. => []

def Stmt.boundName : Stmt → Option String
  | .var _ name _ => some name.text
  | _ => none

theorem Stmt.boundName_eq_none {s : Stmt} (h : s.exposed = []) : s.boundName = none := by
  cases s <;> simp_all [Stmt.exposed, Stmt.boundName]

namespace Grammar

theorem exposed_forLoop {init : Option Stmt} {cond : Expr} {incr : Option Expr} {body : Stmt}
    (h : body.exposed = []) : (Parse.forLoop Alg.tree init cond incr body).exposed = [] := by
  cases init <;> cases incr <;> simp [Parse.forLoop, Alg.tree, Stmt.exposed, h]

mutual

/-- A statement of the grammar binds nothing in the scope it runs in: no branch and no loop
body is a declaration. -/
theorem Statement.exposed_nil {ts rest : List Token} {s : Stmt} :
    Statement ts s rest → s.exposed = []
  | .expr _ _ => rfl
  | .block _ _ _ => rfl
  | .ifElse _ _ t _ e => by simp [Stmt.exposed, t.exposed_nil, e.exposed_nil]
  | .ifThen _ _ t _ => by simp [Stmt.exposed, t.exposed_nil]
  | .whileLoop _ _ body => by simp [Stmt.exposed, body.exposed_nil]
  | .forLoop _ _ _ _ _ _ _ body => exposed_forLoop body.exposed_nil

theorem Declaration.exposed_eq {ts rest : List Token} {s : Stmt} :
    Declaration ts s rest → s.exposed = s.boundName.toList
  | .classDecl .. => rfl
  | .var d => by cases d <;> rfl
  | .statement d => by rw [d.exposed_nil, Stmt.boundName_eq_none d.exposed_nil]; rfl

theorem Declarations.exposed_eq {ts rest : List Token} {ss : List Stmt} :
    Declarations ts ss rest → ∀ s ∈ ss, s.exposed = s.boundName.toList
  | .done => by simp
  | .next d ds => by
    intro s hs
    rcases List.mem_cons.mp hs with rfl | hs
    · exact d.exposed_eq
    · exact ds.exposed_eq s hs

end

end Grammar

/-- Of the statements of a source, only a declaration binds in the global scope, and only
its own name. -/
theorem parsed_exposed {source : String} {tokens : List Token} {stmts : List Stmt}
    (scanned : Token.scan source = .ok tokens) (parsed : Stmt.parseAll tokens = (stmts, [])) :
    ∀ stmt ∈ stmts, stmt.exposed = stmt.boundName.toList := by
  obtain ⟨body, eof, rfl, heof, hbody⟩ := Token.scan_ends_with_eof scanned
  exact ((Parse.parseAll_eq_iff_program heof hbody stmts).mp parsed).exposed_eq

/-! ### Frames -/

namespace Frame

theorem mem_keys_define (f : Frame) (x y : String) (v : Value) :
    y ∈ (f.define x v).map Prod.fst ↔ y = x ∨ y ∈ f.map Prod.fst := by
  by_cases hy : y = x
  · subst hy
    simp [define]
  · simp [define, hy]

theorem nodup_keys_define {f : Frame} (nodup : (f.map Prod.fst).Nodup) (x : String) (v : Value) :
    ((f.define x v).map Prod.fst).Nodup := by
  simp only [define, List.map_cons, List.nodup_cons]
  constructor
  · simp
  · exact nodup.sublist ((List.filter_sublist (l := f)).map Prod.fst)

end Frame

/-! ### Runs of statements -/

namespace Act

/-- A declaration binds its name, to the box it made, in the innermost frame. -/
theorem declareVar_defines {scope scope' : Scope} {type name : Name} {init : Option Expr}
    {m m' : Machine} (h : (declareVar scope type name init).run m = .ok scope' m') :
    ∃ box, scope' = scope.define name.text box := by
  simp only [declareVar] at h
  obtain ⟨m₀, m₁, -, h₁⟩ := run_bind_ok h
  obtain ⟨t, m₂, -, h₂⟩ := run_bind_ok h₁
  obtain ⟨box, m₃, -, h₃⟩ := run_bind_ok h₂
  cases init with
  | some e =>
    obtain ⟨v, m₄, -, h₄⟩ := run_bind_ok h₃
    obtain ⟨_, m₅, -, h₅⟩ := run_bind_ok h₄
    obtain ⟨rfl, -⟩ := run_pure_ok h₅
    exact ⟨box, rfl⟩
  | none =>
    obtain ⟨rfl, -⟩ := run_pure_ok h₃
    exact ⟨box, rfl⟩

/-- A statement gives back the scope it ran in with some of its exposed names bound in the
innermost frame; a block, whatever it declares, gives back the scope it started with. -/
theorem exec_binds : ∀ (n : Nat) (stmt : Stmt) (scope scope' : Scope) (m m' : Machine),
    (exec n stmt scope).run m = .ok scope' m' →
    ∃ binds : List (String × Value),
      scope' = binds.foldl (fun sc b => sc.define b.1 b.2) scope ∧ ∀ b ∈ binds, b.1 ∈ stmt.exposed
  | 0, _, _, _, _, _, h => by
    simp only [exec] at h
    exact absurd h (run_fault_ne_ok _ _ _ _)
  | n + 1, stmt, scope, scope', m, m', h => by
    cases stmt with
    | expr _ | block _ | classDecl _ _ _ =>
      -- these give back the scope they ran in: a block drops its own frame with whatever
      -- it bound
      simp only [exec] at h
      obtain ⟨_, m₁, -, h₁⟩ := run_bind_ok h
      obtain ⟨rfl, -⟩ := run_pure_ok h₁
      exact ⟨[], rfl, by simp⟩
    | ifElse c t e =>
      simp only [exec] at h
      obtain ⟨_, m₁, -, h₁⟩ := run_bind_ok h
      split at h₁
      · obtain ⟨binds, rfl, names⟩ := exec_binds n t scope scope' m₁ m' h₁
        exact ⟨binds, rfl, fun b hb => by simp [Stmt.exposed, names b hb]⟩
      · obtain ⟨binds, rfl, names⟩ := exec_binds n e scope scope' m₁ m' h₁
        exact ⟨binds, rfl, fun b hb => by simp [Stmt.exposed, names b hb]⟩
    | whileLoop c body =>
      simp only [exec] at h
      obtain ⟨_, m₁, -, h₁⟩ := run_bind_ok h
      split at h₁
      · -- one pass of the body, then the loop again from the scope it left
        obtain ⟨scope₁, m₂, h₂, h₃⟩ := run_bind_ok h₁
        obtain ⟨first, rfl, names₁⟩ := exec_binds n body scope scope₁ m₁ m₂ h₂
        obtain ⟨later, rfl, names₂⟩ := exec_binds n (.whileLoop c body) _ scope' m₂ m' h₃
        refine ⟨first ++ later, by rw [List.foldl_append], fun b hb => ?_⟩
        rcases List.mem_append.mp hb with hb | hb
        · exact names₁ b hb
        · exact names₂ b hb
      · obtain ⟨rfl, -⟩ := run_pure_ok h₁
        exact ⟨[], rfl, by simp⟩
    | var type name init =>
      simp only [exec] at h
      obtain ⟨box, rfl⟩ := declareVar_defines h
      exact ⟨[(name.text, box)], rfl, by simp [Stmt.exposed]⟩

end Act

namespace Session

theorem budget_succ : budget = (budget - 1) + 1 :=
  (Nat.succ_pred_eq_of_pos (by decide)).symm

/-- A top-level statement that binds only its own name runs in the global frame and leaves
one frame: the globals with the declared name bound, if it is a declaration. -/
theorem exec_top {stmt : Stmt} (confined : stmt.exposed = stmt.boundName.toList) {g : Frame}
    {scope' : Scope} {m m' : Machine} (h : (Act.exec budget stmt [g]).run m = .ok scope' m') :
    ∃ g', scope' = [g'] ∧
      (∀ x, x ∈ g'.map Prod.fst ↔ x ∈ g.map Prod.fst ∨ x ∈ stmt.boundName.toList) ∧
      ((g.map Prod.fst).Nodup → (g'.map Prod.fst).Nodup) := by
  cases stmt with
  | var type name init =>
    rw [budget_succ] at h
    simp only [Act.exec] at h
    obtain ⟨box, rfl⟩ := Act.declareVar_defines h
    refine ⟨g.define name.text box, rfl, fun x => ?_, fun nodup => Frame.nodup_keys_define nodup _ _⟩
    rw [Frame.mem_keys_define]
    simp [Stmt.boundName, or_comm]
  | _ =>
    -- a statement other than a declaration exposes nothing, so it binds nothing
    obtain ⟨binds, rfl, names⟩ := Act.exec_binds _ _ _ _ _ _ h
    have none : binds = [] := by
      cases binds with
      | nil => rfl
      | cons b _ => simpa [confined, Stmt.boundName] using names b (List.mem_cons_self ..)
    subst none
    exact ⟨g, rfl, by simp [Stmt.boundName], id⟩

/-- Statements that ran to completion bound the globals they found and the names of the
declarations among them. -/
theorem runAll_names {s s₀ : Session} {done : List Stmt}
    (confined : ∀ stmt ∈ done, stmt.exposed = stmt.boundName.toList)
    (h : s.runAll done = (none, s₀)) :
    (∀ x, x ∈ s₀.globals.map Prod.fst ↔
      x ∈ s.globals.map Prod.fst ∨ x ∈ done.filterMap Stmt.boundName) ∧
    ((s.globals.map Prod.fst).Nodup → (s₀.globals.map Prod.fst).Nodup) := by
  induction done generalizing s with
  | nil =>
    cases h
    simp
  | cons stmt rest ih =>
    rw [runAll_cons] at h
    split at h
    · rename_i scope m ran
      obtain ⟨g', rfl, names, nodup⟩ := exec_top (confined stmt (List.mem_cons_self ..)) ran
      obtain ⟨namesRest, nodupRest⟩ := ih (fun st hs => confined st (List.mem_cons_of_mem _ hs)) h
      refine ⟨fun x => ?_, fun n => nodupRest (nodup n)⟩
      rw [namesRest, names]
      cases hb : stmt.boundName <;> simp [hb, or_assoc]
    · cases h

theorem runAll_append {s s₀ : Session} {done : List Stmt} (more : List Stmt)
    (h : s.runAll done = (none, s₀)) : s.runAll (done ++ more) = s₀.runAll more := by
  induction done generalizing s with
  | nil =>
    cases h
    rfl
  | cons stmt rest ih =>
    rw [runAll_cons] at h
    simp only [List.cons_append, runAll_cons]
    split at h
    · exact ih h
    · cases h

/-- `done` are the top-level statements of `source` that ran to completion when `source` ran
on `s`. A source that does not scan or parse runs none; otherwise its statements run in order
from `s` with its printed text cleared, and `done` are all of them, or those before the first
that stopped at a fault. -/
def Completed (s : Session) (source : String) (done : List Stmt) : Prop :=
  (done = [] ∧ ∀ tokens, Token.scan source = .ok tokens → (Stmt.parseAll tokens).2 ≠ []) ∨
  ∃ tokens stmts s₀, Token.scan source = .ok tokens ∧ Stmt.parseAll tokens = (stmts, []) ∧
    ({ s with machine := { s.machine with out := "" } }).runAll done = (none, s₀) ∧
    (stmts = done ∨ ∃ stmt rest f m, stmts = done ++ stmt :: rest ∧
      (Act.exec budget stmt [s₀.globals]).run s₀.machine = .error f m)

theorem exists_completed (s : Session) (source : String) : ∃ done, s.Completed source done := by
  cases scanned : Token.scan source with
  | error e => exact ⟨[], .inl ⟨rfl, fun tokens h => by rw [scanned] at h; cases h⟩⟩
  | ok tokens =>
    rcases parsed : Stmt.parseAll tokens with ⟨stmts, _ | ⟨e, es⟩⟩
    · rcases ran : ({ s with machine := { s.machine with out := "" } }).runAll stmts with
        ⟨_ | f, s'⟩
      · exact ⟨stmts, .inr ⟨tokens, stmts, s', scanned, parsed, ran, .inl rfl⟩⟩
      · obtain ⟨done, stmt, rest, s₀, split, ranDone, failed, -⟩ := runAll_fault ran
        exact ⟨done, .inr ⟨tokens, stmts, s₀, scanned, parsed, ranDone,
          .inr ⟨stmt, rest, f, _, split, failed⟩⟩⟩
    · refine ⟨[], .inl ⟨rfl, fun tokens' h => ?_⟩⟩
      rw [scanned] at h
      cases h
      simp [parsed]

/-- A step binds the globals it found and the names of the top-level declarations that
completed; the frames of blocks and loops are gone, however the step ended. -/
theorem Completed.globals {s : Session} {source : String} {done : List Stmt}
    (h : s.Completed source done) :
    (∀ x, x ∈ (s.step source).2.globals.map Prod.fst ↔
      x ∈ s.globals.map Prod.fst ∨ x ∈ done.filterMap Stmt.boundName) ∧
    ((s.globals.map Prod.fst).Nodup → ((s.step source).2.globals.map Prod.fst).Nodup) := by
  rcases h with ⟨rfl, unparsed⟩ | ⟨tokens, stmts, s₀, scanned, parsed, ranDone, rest⟩
  · -- nothing ran, and the globals stay
    have same : (s.step source).2.globals = s.globals := by
      simp only [step_eq]
      split
      · rfl
      · rename_i tokens scanned
        split
        · rfl
        · rename_i stmts parsed
          exact absurd (congrArg Prod.snd parsed) (unparsed tokens scanned)
    rw [same]
    simp
  · have confined : ∀ stmt ∈ done, stmt.exposed = stmt.boundName.toList := fun stmt hs =>
      parsed_exposed scanned parsed stmt (by
        rcases rest with rfl | ⟨_, _, _, _, rfl, _⟩
        · exact hs
        · exact List.mem_append_left _ hs)
    have ends : (s.step source).2.globals = s₀.globals := by
      simp only [step_eq, scanned, parsed]
      rcases rest with rfl | ⟨stmt, more, f, m, rfl, failed⟩
      · rw [ranDone]
      · rw [runAll_append _ ranDone]
        simp only [runAll_cons, failed]
    rw [ends]
    have names := runAll_names confined ranDone
    exact names

/-- `names` are the names, in order, that the top-level declarations which completed bound
in the sources a new session ran to reach `s`. -/
inductive Declared : Session → List String → Prop
  | start (capacity : Int) : Declared (start capacity) []
  | step {s : Session} {names : List String} {source : String} {done : List Stmt} :
      Declared s names → s.Completed source done →
      Declared (s.step source).2 (names ++ done.filterMap Stmt.boundName)

theorem Reachable.declared {s : Session} (h : s.Reachable) : ∃ names, s.Declared names := by
  induction h with
  | start capacity => exact ⟨[], .start capacity⟩
  | step source _ ih =>
    obtain ⟨names, declared⟩ := ih
    obtain ⟨done, completed⟩ := exists_completed _ source
    exact ⟨_, .step declared completed⟩

/-- A session's global names are the builtins' and those its completed top-level
declarations bound, each once. -/
theorem Declared.globals {s : Session} {names : List String} (h : s.Declared names) :
    (s.globals.map Prod.fst).Nodup ∧
      ∀ x, x ∈ s.globals.map Prod.fst ↔ x ∈ Builtin.all.map Builtin.name ∨ x ∈ names := by
  induction h with
  | start capacity =>
    have keys : (Session.start capacity).globals.map Prod.fst =
        Builtin.all.map Builtin.name := by
      simp [Session.start]
    rw [keys]
    exact ⟨by decide, fun x => by simp⟩
  | step _ completed ih =>
    obtain ⟨nodup, names⟩ := ih
    obtain ⟨stepNames, stepNodup⟩ := completed.globals
    refine ⟨stepNodup nodup, fun x => ?_⟩
    rw [stepNames, names, List.mem_append, or_assoc]

end Session

/-- Block scoping is restored on every path: a block gives back the scope it started with,
so only a top-level declaration binds a global, and a session's globals are the builtins' and
the names its completed top-level declarations bound, each once. -/
theorem block_scopes_are_restored :
    (∀ n stmt scope scope' m m', (Act.exec n stmt scope).run m = .ok scope' m' →
      ∃ binds : List (String × Value),
        scope' = binds.foldl (fun sc b => sc.define b.1 b.2) scope ∧
        ∀ b ∈ binds, b.1 ∈ stmt.exposed) ∧
    (∀ source tokens stmts, Token.scan source = .ok tokens → Stmt.parseAll tokens = (stmts, []) →
      ∀ stmt ∈ stmts, stmt.exposed = stmt.boundName.toList) ∧
    (∀ s : Session, s.Reachable → ∃ names, s.Declared names) ∧
    ∀ (s : Session) names, s.Declared names → (s.globals.map Prod.fst).Nodup ∧
      ∀ x, x ∈ s.globals.map Prod.fst ↔ x ∈ Builtin.all.map Builtin.name ∨ x ∈ names :=
  ⟨Act.exec_binds, fun _ _ _ scanned parsed => parsed_exposed scanned parsed,
    fun _ h => h.declared, fun _ _ h => h.globals⟩

end ClassScript
