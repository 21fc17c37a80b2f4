import ClassScript.Proofs.Typing
import ClassScript.Proofs.Folds

/-! Type safety of runs. Every expression, statement and source run from a well-typed
machine ends in a well-typed machine, also when it stops with a fault, so every state a
session reaches is well typed: a declared variable's box has the declared type for good,
every instance's table holds the field names of its class, and every value in it fits
the type some ancestor of the table's class gives its name. When no class gives an
inherited field a type of its own, that is the type the instance's own class gives it. -/
namespace ClassScript

namespace Act

variable {α : Type}

/-! ### Expressions -/

@[simp] theorem final_atLine (line : Nat) (x : Act α) (m : Machine) :
    (atLine line x).final m = x.final m :=
  final_within _ x m

theorem typed_callBuiltin (b : Builtin) (args : List Value) : Typed (callBuiltin b args) := by
  unfold callBuiltin
  split
  · exact (respects_text typed_consult _).bind fun _ => (typed_emit _).bind fun _ =>
      respects_pure _
  · exact (respects_text typed_consult _).bind fun _ => typed_alloc _ (by simp)
  · exact typed_clone _
  · exact respects_get.bind fun _ => typed_alloc _ (by simp)
  · exact (respects_text typed_consult _).bind fun _ => (typed_parseInto _ _).bind fun _ =>
      respects_pure _
  · exact respects_pure _

mutual

/-- Evaluating an expression keeps the machine well typed. An assignment stores only what
the target box may take, and a field is written with the value made to fit the type the
instance's class gives it. -/
theorem typed_eval (scope : Scope) : ∀ e : Expr, Typed (eval scope e)
  | .literal l => by
    simp only [eval]
    exact respects_literal typed_alloc l
  | .grouping e => by
    simp only [eval]
    exact typed_eval scope e
  | .var name => by
    simp only [eval]
    split
    · exact respects_pure _
    · exact (respects_fault _).atLine _
  | .assign name rhs => by
    simp only [eval]
    refine (typed_eval scope rhs).bind ?_
    intro v
    split
    · exact (respects_fault _).atLine _
    · rename_i box _
      intro m wt
      refine wellTyped_bind wt fun m₀ m₁ hget _ => ?_
      obtain ⟨rfl, rfl⟩ := run_get_ok hget
      refine wellTyped_bind ((respects_checkAssignable (R := Machine.KeepsTyping) _ v).atLine _ m wt)
        fun _ m₂ run₂ _ => ?_
      obtain ⟨hm, adm⟩ := checkAssignable_ok (run_atLine_ok.mp run₂)
      subst m₂
      refine wellTyped_bind ?_ fun _ _ _ wt₃ => wt₃
      rw [final_atLine, final_within]
      exact wellTyped_setValue wt adm
  | .unary op line e => by
    simp only [eval]
    exact (typed_eval scope e).bind fun v => (respects_unary typed_alloc op v).atLine line
  | .binary op line l r => by
    simp only [eval]
    exact (typed_eval scope l).bind fun lv => (typed_eval scope r).bind fun rv =>
      (respects_binary typed_alloc typed_consult op lv rv).atLine line
  | .logical op line l r => by
    simp only [eval]
    refine (typed_eval scope l).bind ?_
    intro lv
    refine ((respects_asBool lv).atLine line).bind ?_
    intro truthy
    cases op with
    | or => exact Respects.ite (respects_pure _) (typed_eval scope r)
    | and => exact Respects.ite (typed_eval scope r) (respects_pure _)
  | .call callee line args => by
    simp only [eval]
    refine (typed_eval scope callee).bind ?_
    intro f
    refine (typed_evalAll scope args).bind ?_
    intro vs
    split
    · exact Respects.ite ((respects_fault _).atLine _)
        (((typed_callBuiltin _ _).within _).atLine _)
    · exact (respects_typeName _).bind fun _ => (respects_fault _).atLine _
  | .new cls => by
    simp only [eval]
    intro m wt
    refine wellTyped_bind wt fun m₀ m₁ hget _ => ?_
    obtain ⟨rfl, rfl⟩ := run_get_ok hget
    refine wellTyped_bind ((respects_ofExcept (R := Machine.KeepsTyping) _).atLine _ m wt)
      fun c m₂ run₂ _ => ?_
    obtain ⟨hc, rfl⟩ := run_ofExcept_ok (run_atLine_ok.mp run₂)
    -- a class found by name is declared
    refine wellTyped_bind (wellTyped_newObject wt (wt.registry.lookupClass_declared hc))
      fun obj m₃ _ wt₃ => ?_
    split
    · exact ((typed_initializeFields _).bind fun _ => respects_pure _) m₃ wt₃
    · exact wt₃
  | .get obj field => by
    simp only [eval]
    exact (typed_eval scope obj).bind fun v => (respects_instanceBox v field).bind fun a =>
      (respects_getField typed_consult a field.text).atLine _
  | .set obj field rhs => by
    simp only [eval]
    refine (typed_eval scope obj).bind fun o => ?_
    intro m wt
    refine wellTyped_bind (respects_instanceBox (R := Machine.KeepsTyping) o field m wt)
      fun a m₁ run₁ _ => ?_
    obtain ⟨rfl, c, id, t, found⟩ := instanceBox_ok run₁
    obtain ⟨-, hold⟩ := object?_eq_some found
    refine wellTyped_bind (typed_eval scope rhs m wt) fun v m₂ run₂ wt₂ => ?_
    obtain ⟨t₂, hold₂⟩ := ((extending_eval scope rhs).of_ok run₂).object hold
    refine wellTyped_bind (by rw [final_atLine]; exact wellTyped_fieldValue wt₂ hold₂)
      fun stored m₃ run₃ wt₃ => ?_
    -- the stored value fits the field's type in the instance's class, which the box keeps
    obtain ⟨T, hT, fit⟩ := fieldValue_fits wt₂ hold₂ (run_atLine_ok.mp run₃)
    obtain ⟨t₃, hold₃⟩ :=
      ((extending_fieldValue a field.text v).of_ok (run_atLine_ok.mp run₃)).object hold₂
    refine wellTyped_bind ?_ fun _ _ _ wt₄ => wt₄
    rw [final_atLine]
    refine wellTyped_setField wt₃ fun c' id' t' h' => ?_
    rw [hold₃] at h'
    cases h'
    exact ⟨T, hT, fit⟩

theorem typed_evalAll (scope : Scope) : ∀ es : List Expr, Typed (evalAll scope es)
  | [] => by
    simp only [evalAll]
    exact respects_pure _
  | e :: es => by
    simp only [evalAll]
    exact (typed_eval scope e).bind fun _ => (typed_evalAll scope es).bind fun _ =>
      respects_pure _

end

/-! ### Statements -/

theorem typed_condition (keyword : String) (scope : Scope) (c : Expr) :
    Typed (condition keyword scope c) :=
  respects_condition typed_eval keyword scope c

theorem wellTyped_addField {m : Machine} {c : Nat} {name : String} {ft : Ty} (wt : m.WellTyped)
    (good : ft = .cls c ∨ m.registry.TyOk ft) :
    ((updateRegistry (·.addField c name ft)).final m).WellTyped :=
  wellTyped_updateRegistry wt fun _ h => ⟨Registry.keeps_addField h, wt.registry.addField good h⟩

theorem typed_declare (c : Nat) : Typed (updateRegistry (·.declare c)) := fun _ wt =>
  wellTyped_updateRegistry wt fun _ h => ⟨Registry.keeps_declare h, wt.registry.declare h⟩

/-- Declaring a class keeps the machine well typed: each field is typed by the class
itself or by a type the registry names. -/
theorem typed_declareClass (name : Name) (parent : Option Name) (fields : List FieldDecl) :
    Typed (declareClass name parent fields) := by
  unfold declareClass
  split
  on_goal 1 => refine respects_get.bind fun _ =>
    Respects.bind (((respects_ofExcept _).atLine _).map _) fun super => ?_
  on_goal 2 => refine (respects_pure _).bind fun super => ?_
  all_goals
    dsimp only
    refine Respects.bind ?_ ?_
    · intro m wt
      exact wt.of_store ⟨fun _ c h => ⟨c, h, rfl⟩, le_rfl, fun _ _ => rfl,
        Registry.keeps_newClass name.text super⟩ (wt.registry.newClass name.text super) rfl rfl
    · intro c
      refine Respects.bind ?_ ?_
      · apply respects_forIn
        intro f _ m wt
        split
        · refine wellTyped_bind wt fun ft m₁ run₁ _ => ?_
          obtain ⟨rfl, rfl⟩ := run_pure_ok run₁
          refine wellTyped_bind (by rw [final_atLine]; exact wellTyped_addField wt (.inl rfl))
            fun _ _ _ wt₂ => wt₂
        · refine wellTyped_bind wt fun m₀ m₁ hget _ => ?_
          obtain ⟨rfl, rfl⟩ := run_get_ok hget
          refine wellTyped_bind ((respects_ofExcept (R := Machine.KeepsTyping) _).atLine _ m wt)
            fun ft m₂ run₂ _ => ?_
          obtain ⟨found, rfl⟩ := run_ofExcept_ok (run_atLine_ok.mp run₂)
          -- a field typed by another name takes the type the registry gives that name
          refine wellTyped_bind (by
            rw [final_atLine]
            exact wellTyped_addField wt (.inr (wt.registry.lookup_tyOk found)))
            fun _ _ _ wt₂ => wt₂
      · intro _
        exact ((typed_declare c).atLine _).bind fun _ => typed_consult c

/-- A declaration keeps the machine well typed: the new box has the declared type, and it
takes the initial value only when a box of that type may take it. -/
theorem typed_declareVar (scope : Scope) (type name : Name) (init : Option Expr) :
    Typed (declareVar scope type name init) := by
  intro m wt
  refine wellTyped_bind wt fun m₀ m₁ hget _ => ?_
  obtain ⟨rfl, rfl⟩ := run_get_ok hget
  refine wellTyped_bind ((respects_ofExcept (R := Machine.KeepsTyping) _).atLine _ m wt)
    fun t m₂ run₂ _ => ?_
  obtain ⟨found, rfl⟩ := run_ofExcept_ok (run_atLine_ok.mp run₂)
  have tyOk : m.registry.TyOk t := wt.registry.lookup_tyOk found
  refine wellTyped_bind (wellTyped_newDefault wt tyOk) fun box m₃ run₃ wt₃ => ?_
  have fits₃ : m₃.Fits box t := newDefault_fits tyOk run₃
  dsimp only
  split
  · rename_i e
    refine wellTyped_bind (typed_eval scope e m₃ wt₃) fun v m₄ run₄ wt₄ => ?_
    obtain ⟨-, -, same⟩ := ((extending_eval scope e).of_ok run₄).tyOf_of_fits fits₃
    refine wellTyped_bind ?_ fun _ _ _ wt₅ => wt₅
    rw [final_atLine, final_within]
    refine wellTyped_bind (respects_checkAssignable (R := Machine.KeepsTyping) t v m₄ wt₄)
      fun _ m₅ run₅ _ => ?_
    obtain ⟨hm, adm⟩ := checkAssignable_ok run₅
    subst m₅
    refine wellTyped_setValue wt₄ ?_
    rw [same, (newDefault_tyOf tyOk run₃).2]
    exact adm
  · exact wt₃

theorem declareVar_binds {scope scope' : Scope} {type name : Name} {init : Option Expr}
    {m m' : Machine} (wt : m.WellTyped) (run : (declareVar scope type name init).run m = .ok scope' m') :
    ∃ t a, m.registry.lookup type.text = .ok t ∧ scope' = scope.define name.text (.ref a) ∧
      m'.tyOf (.ref a) = t := by
  simp only [declareVar] at run
  obtain ⟨m₀, m₁, hget, run₁⟩ := run_bind_ok run
  obtain ⟨rfl, rfl⟩ := run_get_ok hget
  obtain ⟨t, m₂, run₂, run₃⟩ := run_bind_ok run₁
  obtain ⟨found, rfl⟩ := run_ofExcept_ok (run_atLine_ok.mp run₂)
  have tyOk : m.registry.TyOk t := wt.registry.lookup_tyOk found
  obtain ⟨box, m₃, run₄, run₅⟩ := run_bind_ok run₃
  obtain ⟨rfl, hty⟩ := newDefault_tyOf tyOk run₄
  -- storing the initial value keeps the box's type
  have stored : m₃.Extends m' ∧ scope' = scope.define name.text (.ref m.heap.cells.size) := by
    cases init with
    | some e =>
      obtain ⟨v, m₄, run₆, run₇⟩ := run_bind_ok run₅
      obtain ⟨u, m₅, run₈, run₉⟩ := run_bind_ok run₇
      obtain ⟨rfl, rfl⟩ := run_pure_ok run₉
      exact ⟨((extending_eval scope e).of_ok run₆).trans ((((respects_checkAssignable t v).bind
        fun _ => extending_setValue _ v).within _).atLine _ |>.of_ok run₈), rfl⟩
    | none =>
      obtain ⟨rfl, rfl⟩ := run_pure_ok run₅
      exact ⟨.refl _, rfl⟩
  obtain ⟨ext, rfl⟩ := stored
  obtain ⟨-, -, same⟩ := ext.tyOf_of_fits (newDefault_fits tyOk run₄)
  exact ⟨t, _, found, rfl, same.trans hty⟩

theorem typed_exec (n : Nat) (stmt : Stmt) (scope : Scope) : Typed (exec n stmt scope) :=
  respects_exec ⟨typed_eval, typed_declareVar, typed_declareClass⟩ n stmt scope

end Act

namespace Machine

theorem empty_wellTyped (capacity : Int) : (Machine.empty capacity).WellTyped := by
  refine ⟨⟨fun n t h => ?_, fun c k h => ?_, fun c k h => ?_⟩, fun a c id t h => ?_,
    fun a c id t h => ?_, fun t ht => ?_⟩
  · simp only [Machine.empty, Registry.empty, List.mem_cons, Prod.mk.injEq,
      List.not_mem_nil] at h
    rcases h with ⟨-, rfl⟩ | ⟨-, rfl⟩ | ⟨-, rfl⟩ | ⟨-, rfl⟩ | h <;> trivial
  all_goals simp [Machine.empty, Registry.empty, Heap.empty, Registry.get?, Machine.cell?] at *

end Machine

namespace Session

inductive Reachable : Session → Prop
  | start (capacity : Int) : Reachable (start capacity)
  | step {s : Session} (source : String) : Reachable s → Reachable (s.step source).2

theorem final_of_error {α : Type} {x : Act α} {m m' : Machine} {f : Fault}
    (h : x.run m = .error f m') : x.final m = m' := by
  simp [Act.final, h]

/-- Running top-level statements, up to the first fault, relates the machine it starts
from to the one it stops in by every relation each statement respects. -/
theorem runAll_respects {R : Machine → Machine → Prop} [Std.Refl R] [IsTrans Machine R]
    (hexec : ∀ stmt scope, Act.Respects R (Act.exec budget stmt scope)) :
    ∀ (s : Session) (stmts : List Stmt), R s.machine (s.runAll stmts).2.machine := by
  intro s stmts
  induction stmts generalizing s with
  | nil => exact Std.Refl.refl _
  | cons stmt rest ih =>
    have first := hexec stmt [s.globals] s.machine
    rw [runAll_cons]
    split
    · rename_i scope m h
      rw [Act.final_of_ok h] at first
      exact IsTrans.trans _ _ _ first (ih ⟨m, _⟩)
    · rename_i f m h
      rwa [final_of_error h] at first

theorem step_respects {R : Machine → Machine → Prop} [Std.Refl R] [IsTrans Machine R]
    (hexec : ∀ stmt scope, Act.Respects R (Act.exec budget stmt scope))
    (hout : ∀ m : Machine, R m { m with out := "" }) (s : Session) (source : String) :
    R s.machine (s.step source).2.machine := by
  rw [step_eq]
  dsimp only
  split
  · exact hout _
  · split
    · exact hout _
    · exact IsTrans.trans _ _ _ (hout _)
        (runAll_respects hexec { s with machine := { s.machine with out := "" } } _)

theorem extends_step (s : Session) (source : String) :
    s.machine.Extends (s.step source).2.machine :=
  step_respects (fun _ _ => Act.extending_exec _ _ _)
    (fun _ => ⟨fun _ c h => ⟨c, h, rfl⟩, le_rfl, fun _ _ => rfl, fun _ _ h _ => h⟩) s source

theorem wellTyped_step (s : Session) (source : String) (wt : s.machine.WellTyped) :
    (s.step source).2.machine.WellTyped :=
  step_respects (R := Machine.KeepsTyping) (fun _ _ => Act.typed_exec _ _ _)
    (fun _ wt => wt.of_store ⟨fun _ c h => ⟨c, h, rfl⟩, le_rfl, fun _ _ => rfl, fun _ _ h _ => h⟩
      wt.registry rfl rfl) s source wt

theorem Reachable.wellTyped {s : Session} (h : s.Reachable) : s.machine.WellTyped := by
  induction h with
  | start capacity => exact Machine.empty_wellTyped capacity
  | step source _ ih => exact wellTyped_step _ source ih

/-- Every state a session reaches is well typed: every box keeps its declared type, and the
values of an instance's table fit the types some ancestor of the table's class gives them. -/
theorem reachable_states_typed :
    (∀ s : Session, s.Reachable → s.machine.WellTyped ∧ ∀ a D id t,
      s.machine.cell? a = some (.object D id (some t)) →
      ∃ C, s.machine.registry.isSubclassOf C D = true ∧
        (s.machine.table t).map Prod.fst = (s.machine.registry.fieldTypes C).map Prod.fst ∧
        (∀ n ∈ (s.machine.registry.fieldTypes D).map Prod.fst,
          n ∈ (s.machine.table t).map Prod.fst) ∧
        (∀ e ∈ s.machine.table t, ∃ E T, s.machine.registry.isSubclassOf C E = true ∧
          s.machine.registry.fieldType? E e.1 = some T ∧ s.machine.Fits e.2 T) ∧
        (∀ n T v, s.machine.registry.fieldType? D n = some T →
          (s.machine.table t).lookup n = some v →
          (∀ E T', (s.machine.registry.isSubclassOf E D = true ∨
              s.machine.registry.isSubclassOf D E = true) →
            s.machine.registry.fieldType? E n = some T' → T' = T) →
          s.machine.Fits v T)) ∧
    (∀ (n : Nat) (type name : Name) (init : Option Expr) (scope scope' : Scope) (m m' : Machine),
      m.WellTyped → (Act.exec (n + 1) (.var type name init) scope).run m = .ok scope' m' →
      ∃ t a, m.registry.lookup type.text = .ok t ∧ scope'.lookup? name.text = some (.ref a) ∧
        m'.tyOf (.ref a) = t) ∧
    (∀ (n : Nat) (stmt : Stmt) (scope : Scope) (m : Machine) (a : Nat),
      a < m.heap.cells.size → ((Act.exec n stmt scope).final m).tyOf (.ref a) = m.tyOf (.ref a)) ∧
    (∀ (s : Session) (source : String) (a : Nat), a < s.machine.heap.cells.size →
      (s.step source).2.machine.tyOf (.ref a) = s.machine.tyOf (.ref a)) ∧
    (∀ (n : Nat) (stmt : Stmt) (scope : Scope) (m : Machine),
      m.WellTyped → ((Act.exec n stmt scope).final m).WellTyped) := by
  refine ⟨fun s reach => ⟨reach.wellTyped, fun a D id t hold => ?_⟩,
    fun n type name init scope scope' m m' wt run => ?_,
    fun n stmt scope m a ha => (Act.extending_exec n stmt scope m).tyOf_ref ha,
    fun s source a ha => (extends_step s source).tyOf_ref ha,
    fun n stmt scope m wt => Act.typed_exec n stmt scope m wt⟩
  · have wt := reach.wellTyped
    obtain ⟨C, owner⟩ := wt.owners t (wt.tables a D id _ hold)
    have sub := owner.users a D id hold
    exact ⟨C, sub, owner.holds.keys, fun n hn => owner.holds.names sub hn, owner.holds.values,
      fun n T v _ hv uniform => owner.holds.fits_of_uniform sub hv uniform⟩
  · simp only [Act.exec] at run
    obtain ⟨t, a, found, rfl, typed⟩ := Act.declareVar_binds wt run
    exact ⟨t, a, found, Scope.lookup?_define_self scope name.text _, typed⟩

/-- Seen through a `Base` box, the table of a `Child` instance holds under `x` a value fitting
the type `Child` gives `x`. -/
theorem base_view_of_child_fits :
    let s := ((Session.start 0).step ("class Base \x7b int x; \x7d " ++
      "class Child extends Base \x7b string x; \x7d Child c = new Child; Base b = c;")).2
    s.Reachable ∧ s.machine.cell? 3 = some (.object 0 3 (some 0)) ∧
      ∃ C, s.machine.registry.isSubclassOf C 0 = true ∧
        ∀ e ∈ s.machine.table 0, ∃ E T, s.machine.registry.isSubclassOf C E = true ∧
          s.machine.registry.fieldType? E e.1 = some T ∧ s.machine.Fits e.2 T := by
  intro s
  have reach : s.Reachable := .step _ (.start 0)
  have hold : s.machine.cell? 3 = some (.object 0 3 (some 0)) := by decide +kernel
  obtain ⟨C, sub, -, -, fits, -⟩ := (reachable_states_typed.1 s reach).2 3 0 3 0 hold
  exact ⟨reach, hold, C, sub, fits⟩

/-- A class that gives an inherited field a type of its own breaks the field's type in its
ancestor: a `Base` variable made from a `Child` uses the `Child`'s table, whose `x` holds a
string, while `Base` types `x` as an integer. -/
theorem retyped_field_breaks_declared_type :
    ¬ ∀ s : Session, s.Reachable → ∀ a D id t n T v,
      s.machine.cell? a = some (.object D id (some t)) →
      s.machine.registry.fieldType? D n = some T → (s.machine.table t).lookup n = some v →
      s.machine.Fits v T := by
  intro claim
  let s := ((Session.start 0).step ("class Base \x7b int x; \x7d " ++
    "class Child extends Base \x7b string x; \x7d Child c = new Child; Base b = c;")).2
  have facts : s.machine.cell? 3 = some (.object 0 3 (some 0)) ∧
      s.machine.registry.fieldType? 0 "x" = some .int ∧
      (s.machine.table 0).lookup "x" = some (.ref 2) ∧
      s.machine.registry.conforms (s.machine.tyOf (.ref 2)) .int = false := by
    decide +kernel
  have fits := claim s (.step _ (.start 0)) 3 0 3 0 "x" .int (.ref 2) facts.1 facts.2.1 facts.2.2.1
  exact absurd fits (by simp [Machine.Fits, facts.2.2.2])

end Session

end ClassScript
