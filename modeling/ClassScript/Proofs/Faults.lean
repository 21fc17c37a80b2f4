import ClassScript.Proofs.Tables

/-! Operations that stop at a fault. Operands run first and what they did stays; the
operation itself checks before it writes. A store converts the value before it writes
the box, a field store makes the stored box before it writes the table and checks the
field before that, `parse` reads the text before it writes, and a class is declared by
the last step that can fail. So a fault leaves the box, the table, the registry's names
and the field-cache account as they were, and a statement that fails binds nothing. -/
namespace ClassScript

namespace Registry

/-- `r'` names the types `r` names, has the classes of `r` declared and no other, and keeps
its field-cache account; it may hold more classes not yet declared, or more fields of
those. -/
structure SameDeclared (r r' : Registry) : Prop where
  named : r'.named = r.named
  capacity : r'.capacity = r.capacity
  lookups : r'.lookups = r.lookups
  declared : ∀ c, r'.IsDeclared c ↔ r.IsDeclared c

instance : Std.Refl SameDeclared := ⟨fun _ => ⟨rfl, rfl, rfl, fun _ => .rfl⟩⟩

instance : IsTrans Registry SameDeclared :=
  ⟨fun _ _ _ h h' => ⟨h'.named.trans h.named, h'.capacity.trans h.capacity,
    h'.lookups.trans h.lookups, fun c => (h'.declared c).trans (h.declared c)⟩⟩

theorem sameDeclared_newClass (r : Registry) (name : String) (parent : Option Nat) :
    r.SameDeclared (r.newClass name parent).2 := by
  refine ⟨rfl, rfl, rfl, fun c => ⟨?_, (keeps_newClass (r := r) name parent).isDeclared⟩⟩
  rintro ⟨k, hk, declared⟩
  simp only [newClass, get?, Array.getElem?_push] at hk
  split at hk
  · cases hk
    cases declared
  · exact ⟨k, hk, declared⟩

theorem sameDeclared_addField {r r' : Registry} {c : Nat} {name : String} {ty : Ty}
    (h : r.addField c name ty = .ok r') : r.SameDeclared r' := by
  unfold addField at h
  split at h
  · cases h
    exact Std.Refl.refl r
  · rename_i k hk
    split at h
    · cases h
    · rename_i undeclared
      split at h
      · cases h
      · cases h
        refine ⟨rfl, rfl, rfl, fun d => ?_⟩
        have hc : c < r.classes.size := (Array.getElem?_eq_some_iff.mp hk).1
        by_cases hcd : c = d
        · subst hcd
          simp_all [IsDeclared, get?]
        · simp [IsDeclared, get?, hcd]

end Registry

namespace Machine

/-- `m'` has every table and every box of `m` as it was; it may have more boxes. -/
structure KeepsStore (m m' : Machine) : Prop where
  tables : m'.heap.tables = m.heap.tables
  size : m.heap.cells.size ≤ m'.heap.cells.size
  cells : ∀ b < m.heap.cells.size, m'.cell? b = m.cell? b

instance : Std.Refl KeepsStore := ⟨fun _ => ⟨rfl, le_rfl, fun _ _ => rfl⟩⟩

instance : IsTrans Machine KeepsStore :=
  ⟨fun _ _ _ h h' => ⟨h'.tables.trans h.tables, h.size.trans h'.size,
    fun b hb => (h'.cells b (Nat.lt_of_lt_of_le hb h.size)).trans (h.cells b hb)⟩⟩

theorem KeepsStore.of_sameHeap {m m' : Machine} (h : m.SameHeap m') : m.KeepsStore m' := by
  have heap : m'.heap = m.heap := h
  exact ⟨by rw [heap], by rw [heap], fun _ _ => by simp [cell?, heap]⟩

/-- `m'` has the store of `m`, and its registry names the same types, declares the same
classes and keeps the field-cache account. -/
structure KeepsTypes (m m' : Machine) : Prop where
  heap : m'.heap = m.heap
  registry : m.registry.SameDeclared m'.registry

instance : Std.Refl KeepsTypes := ⟨fun m => ⟨rfl, Std.Refl.refl m.registry⟩⟩

instance : IsTrans Machine KeepsTypes :=
  ⟨fun _ _ _ h h' => ⟨h'.heap.trans h.heap, IsTrans.trans _ _ _ h.registry h'.registry⟩⟩

end Machine

namespace Act

variable {α β : Type} {R S : Machine → Machine → Prop}

/-- Every run of `x` that stops at a fault ends in a machine that `R` relates to the one
it started from: what `x` may have done before it failed. -/
def RespectsOnFault (R : Machine → Machine → Prop) (x : Act α) : Prop :=
  ∀ m f m', x.run m = .error f m' → R m m'

def Total (x : Act α) : Prop := ∀ m, ∃ a m', x.run m = .ok a m'

theorem total_pure (a : α) : Total (pure a : Act α) := fun m => ⟨a, m, rfl⟩

theorem total_setCell (a : Nat) (c : Cell) : Total (setCell a c) := fun _ => ⟨(), _, rfl⟩

theorem total_consult (c : Nat) : Total (consult c) := fun _ => ⟨(), _, rfl⟩

theorem Total.onFault {x : Act α} (hx : Total x) : RespectsOnFault R x := by
  intro m f m' h
  obtain ⟨a, m₁, ok⟩ := hx m
  rw [ok] at h
  cases h

theorem Respects.onFault {x : Act α} (hx : Respects R x) : RespectsOnFault R x :=
  fun _ _ _ h => hx.of_error h

theorem RespectsOnFault.mono {x : Act α} (hx : RespectsOnFault R x)
    (hRS : ∀ m m', R m m' → S m m') : RespectsOnFault S x :=
  fun m f m' h => hRS m m' (hx m f m' h)

theorem RespectsOnFault.within {x : Act α} (ctx : Fault.Context) (hx : RespectsOnFault R x) :
    RespectsOnFault R (within ctx x) := by
  intro m f m' h
  rw [run_within] at h
  cases hr : x.run m with
  | ok a m₁ => rw [hr] at h; cases h
  | error f₁ m₁ =>
    rw [hr] at h
    cases h
    exact hx m f₁ m' hr

theorem RespectsOnFault.atLine {x : Act α} (line : Nat) (hx : RespectsOnFault R x) :
    RespectsOnFault R (atLine line x) :=
  hx.within (.line line)

/-- A fault after a step that respects `R` on every run is within `R`, when the rest
faults within `R`. -/
theorem RespectsOnFault.bind [IsTrans Machine R] {x : Act α} {f : α → Act β}
    (hx : Respects R x) (hf : ∀ a, RespectsOnFault R (f a)) : RespectsOnFault R (x >>= f) := by
  intro m e m'' h
  rcases run_bind_error h with h | ⟨a, m', ok, h'⟩
  · exact hx.of_error h
  · exact IsTrans.trans _ _ _ (hx.of_ok ok) (hf a m' e m'' h')

theorem RespectsOnFault.bind_total {x : Act α} {f : α → Act β} (hx : RespectsOnFault R x)
    (hf : ∀ a, Total (f a)) : RespectsOnFault R (x >>= f) := by
  intro m e m'' h
  rcases run_bind_error h with h | ⟨a, m', -, h'⟩
  · exact hx m e m'' h
  · obtain ⟨b, m₁, ok⟩ := hf a m'
    rw [ok] at h'
    cases h'

/-! ### Stores that fail -/

/-- A store that fails has converted nothing into the box: every way it fails is a check
of the value before the write. -/
theorem sameHeap_setValue_onFault (target v : Value) :
    RespectsOnFault Machine.SameHeap (setValue target v) := by
  cases target with
  | null => exact (respects_fault _).onFault
  | builtin b => exact (respects_fault _).onFault
  | ref a =>
    refine RespectsOnFault.bind respects_get fun m => ?_
    split
    · exact (respects_asInt v).onFault.bind_total fun _ => total_setCell _ _
    · exact (respects_asReal v).onFault.bind_total fun _ => total_setCell _ _
    · exact (respects_asBool v).onFault.bind_total fun _ => total_setCell _ _
    · exact (respects_text sameHeap_consult v).onFault.bind_total fun _ => total_setCell _ _
    · refine RespectsOnFault.bind respects_get fun m' => ?_
      split
      · exact (total_setCell _ _).onFault
      · exact (total_setCell _ _).onFault
      · exact ((respects_typeName _).bind fun _ => respects_get.bind fun _ => respects_fault _).onFault
    · exact (total_pure _).onFault

/-- `parse` reads the text before it writes: when it fails the machine is as it was. -/
theorem parseInto_onFault (target : Value) (s : String) :
    RespectsOnFault (· = ·) (parseInto target s) := by
  cases target with
  | null => exact (respects_fault _).onFault
  | builtin b => exact (respects_fault _).onFault
  | ref a =>
    refine RespectsOnFault.bind respects_get fun m => ?_
    split
    · split
      · exact (total_setCell _ _).onFault
      · exact (respects_fault _).onFault
    · split
      · exact (total_setCell _ _).onFault
      · exact (respects_fault _).onFault
    · split
      · exact (total_setCell _ _).onFault
      · exact (respects_fault _).onFault
    · exact (total_setCell _ _).onFault
    · exact (respects_get.bind fun _ => respects_fault _).onFault
    · exact (total_pure _).onFault

theorem sameHeap_setField_onFault (a : Nat) (name : String) (v : Value) :
    RespectsOnFault Machine.SameHeap (setField a name v) :=
  fun _ _ _ h => setField_error_heap h

/-! ### Field stores keep the boxes and tables there were -/

theorem keepsStore_consult (c : Nat) : Respects Machine.KeepsStore (consult c) :=
  fun _ => .of_sameHeap rfl

theorem keepsStore_newDefault (t : Ty) : Respects Machine.KeepsStore (newDefault t) := by
  intro m
  obtain ⟨v, m', run, -, next, -, tables, -, keep⟩ := newDefault_fresh t m
  rw [final_of_ok run]
  exact ⟨tables, by rcases next with ⟨-, h⟩ | ⟨-, h⟩ <;> omega, keep⟩

/-- A scalar stored in a field is converted into a box made for it after every box there
was, so no box there was changes. -/
theorem keepsStore_storeFresh (t : Ty) (v : Value) :
    Respects Machine.KeepsStore (newDefault t >>= fun box => setValue box v >>= fun _ => pure box) := by
  intro m
  obtain ⟨box, m₁, run₁, -, next, -, tables₁, -, keep₁⟩ := newDefault_fresh t m
  have first : m.KeepsStore m₁ := by
    have := keepsStore_newDefault t m
    rwa [final_of_ok run₁] at this
  rw [final_bind, run₁]
  dsimp only
  rcases next with ⟨rfl, -⟩ | ⟨rfl, size₁⟩
  · -- a field type with no box: the store refuses, and the machine is the one after the default
    exact first
  · set m₂ := (setValue (.ref m.heap.cells.size) v >>= fun _ => pure (Value.ref m.heap.cells.size)).final m₁
    have only : m₁.ChangesOnly m.heap.cells.size m₂ :=
      (changesOnly_setValue _ v).bind (fun _ => respects_pure _) m₁
    have grows : m₁.Extends m₂ :=
      (extending_setValue _ v).bind (fun _ => respects_pure _) m₁
    refine ⟨only.tables.trans tables₁, first.size.trans grows.cells_size, fun b hb => ?_⟩
    rw [only.cells b (Nat.ne_of_lt hb), keep₁ b hb]

/-- Computing the value a field stores changes no box and no table there was, on every
run. -/
theorem keepsStore_fieldValue (a : Nat) (name : String) (v : Value) :
    Respects Machine.KeepsStore (fieldValue a name v) := by
  refine respects_get.bind fun m => ?_
  refine (respects_fieldType keepsStore_consult _ _).bind fun ft => ?_
  split
  · exact respects_fault _
  · refine (respects_checkAssignable _ v).bind fun _ => respects_get.bind fun m' => ?_
    dsimp only
    split
    · exact Respects.ite (respects_pure _) (respects_fault _)
    · exact Respects.ite (keepsStore_newDefault _) (respects_fault _)
    · exact keepsStore_storeFresh _ _

/-! ### Class declarations that fail -/

theorem total_modify (g : Machine → Machine) : Total (modify g : Act Unit) := fun _ => ⟨(), _, rfl⟩

/-- A registry update that fails leaves the machine as it was. -/
theorem updateRegistry_onFault (g : Registry → Except Fault.Cause Registry) :
    RespectsOnFault (· = ·) (updateRegistry g) :=
  RespectsOnFault.bind respects_get fun _ =>
    (respects_ofExcept _).onFault.bind_total fun _ => total_modify _

theorem keepsTypes_updateRegistry (g : Registry → Except Fault.Cause Registry)
    (same : ∀ r r', g r = .ok r' → r.SameDeclared r') :
    Respects Machine.KeepsTypes (updateRegistry g) := by
  intro m
  rw [final_updateRegistry]
  cases hg : g m.registry with
  | error e => exact Std.Refl.refl m
  | ok r' => exact ⟨rfl, same _ _ hg⟩

/-- A class declaration that fails declares nothing, names no new type, keeps the
field-cache account and changes no box: the class is declared by the last step that can
fail, and the steps before it only make the class and add its fields. -/
theorem keepsTypes_declareClass_onFault (name : Name) (parent : Option Name)
    (fields : List FieldDecl) :
    RespectsOnFault Machine.KeepsTypes (declareClass name parent fields) := by
  unfold declareClass
  split
  on_goal 1 => refine RespectsOnFault.bind respects_get fun _ =>
    RespectsOnFault.bind (((respects_ofExcept _).atLine _).map _) fun super => ?_
  on_goal 2 => refine RespectsOnFault.bind (respects_pure _) fun super => ?_
  -- the class is made, filled and declared the same way with a parent or without
  all_goals
    dsimp only
    refine RespectsOnFault.bind (fun m => ⟨rfl, Registry.sameDeclared_newClass _ _ _⟩) fun c => ?_
    refine RespectsOnFault.bind ?_ fun _ => ?_
    · apply respects_forIn
      intro f _
      have addField : ∀ ft, Respects Machine.KeepsTypes
          (atLine f.name.line (updateRegistry (·.addField c f.name.text ft))) := fun _ =>
        (keepsTypes_updateRegistry _ fun _ _ h => Registry.sameDeclared_addField h).atLine _
      apply Respects.ite
      · exact (respects_pure _).bind fun ft => (addField ft).bind fun _ => respects_pure _
      · exact respects_get.bind fun _ => ((respects_ofExcept _).atLine _).bind fun ft =>
          (addField ft).bind fun _ => respects_pure _
    · exact (((updateRegistry_onFault _).mono fun m _ h => h ▸ Std.Refl.refl m).atLine _).bind_total
        fun _ => total_consult c

theorem keepsTypes_classDecl_onFault (n : Nat) (name : Name) (parent : Option Name)
    (fields : List FieldDecl) (scope : Scope) :
    RespectsOnFault Machine.KeepsTypes (exec n (.classDecl name parent fields) scope) := by
  cases n with
  | zero =>
    simp only [exec]
    exact (respects_fault _).onFault
  | succ n =>
    simp only [exec]
    exact (keepsTypes_declareClass_onFault name parent fields).bind_total fun _ => total_pure _

/-! ### Expressions that fail after their operands -/

theorem run_bind_error_of_ok {x : Act α} {f : α → Act β} {m m₁ m' : Machine} {a : α}
    {e : Fault} (ok : x.run m = .ok a m₁) (h : (x >>= f).run m = .error e m') :
    (f a).run m₁ = .error e m' := by
  rw [EStateM.run_bind, ok] at h
  exact h

theorem instanceBox_run {v : Value} {field : Name} {m : Machine} {a c id : Nat} {t : Option Nat}
    (h : m.object? v = some (a, c, id, t)) : (instanceBox v field).run m = .ok a m := by
  simp only [instanceBox, EStateM.run_bind, EStateM.run_get, h]
  rfl

variable {scope : Scope} {m m₁ mv m' : Machine} {v : Value} {f : Fault}

/-- An assignment that fails after its value was computed changes no box: the variable's
box keeps its value, or its table, and so does every other. -/
theorem eval_assign_fault {x : Name} {e : Expr} (rhs : (eval scope e).run m = .ok v mv)
    (h : (eval scope (.assign x e)).run m = .error f m') : m'.heap = mv.heap := by
  simp only [eval] at h
  refine (?_ : RespectsOnFault Machine.SameHeap _) mv f m' (run_bind_error_of_ok rhs h)
  split
  · exact ((respects_fault _).atLine _).onFault
  · refine RespectsOnFault.bind respects_get fun _ => ?_
    refine RespectsOnFault.bind ((respects_checkAssignable _ _).atLine _) fun _ => ?_
    exact (((sameHeap_setValue_onFault _ _).within _).atLine _).bind_total fun _ => total_pure _

/-- A field store that fails after its instance and value were computed changes no table
and no box there was: every entry of the instance's table is as it was. -/
theorem eval_set_fault {obj rhs : Expr} {field : Name} {o : Value} {a c id : Nat}
    {t : Option Nat} (target : (eval scope obj).run m = .ok o m₁)
    (inst : m₁.object? o = some (a, c, id, t)) (value : (eval scope rhs).run m₁ = .ok v mv)
    (h : (eval scope (.set obj field rhs)).run m = .error f m') : mv.KeepsStore m' := by
  simp only [eval] at h
  have h₁ := run_bind_error_of_ok target h
  have h₂ := run_bind_error_of_ok (instanceBox_run inst) h₁
  refine (?_ : RespectsOnFault Machine.KeepsStore _) mv f m' (run_bind_error_of_ok value h₂)
  refine RespectsOnFault.bind ((keepsStore_fieldValue _ _ _).atLine _) fun _ => ?_
  exact (((sameHeap_setField_onFault _ _ _).mono fun _ _ => .of_sameHeap).atLine _).bind_total
    fun _ => total_pure _

theorem sameHeap_callParse_onFault (target source : Value) :
    RespectsOnFault Machine.SameHeap (callBuiltin .parse [target, source]) := by
  unfold callBuiltin
  refine RespectsOnFault.bind (respects_text sameHeap_consult _) fun _ => ?_
  exact ((parseInto_onFault _ _).mono fun m _ h => h ▸ Std.Refl.refl m).bind_total
    fun _ => total_pure _

/-- A call of `parse` that fails after its arguments were computed changes no box: the
target keeps its value. -/
theorem eval_parse_fault {callee : Expr} {line : Nat} {args : List Expr} {target source : Value}
    (fn : (eval scope callee).run m = .ok (.builtin .parse) m₁)
    (operands : (evalAll scope args).run m₁ = .ok [target, source] mv)
    (h : (eval scope (.call callee line args)).run m = .error f m') : m'.heap = mv.heap := by
  simp only [eval] at h
  have h₁ := run_bind_error_of_ok fn h
  refine (?_ : RespectsOnFault Machine.SameHeap _) mv f m' (run_bind_error_of_ok operands h₁)
  dsimp only
  rw [if_neg (by simp [Builtin.arity])]
  exact ((sameHeap_callParse_onFault _ _).within _).atLine _

end Act

/-! ### Statements that fail bind nothing -/

namespace Session

/-- A run of top-level statements that stops at a fault ran a prefix of them, then the
statement that failed; the globals it ends with are those the prefix left, so the failed
statement, a declaration among them, bound nothing. -/
theorem runAll_fault {s s' : Session} {stmts : List Stmt} {f : Fault}
    (h : s.runAll stmts = (some f, s')) :
    ∃ done stmt rest s₀, stmts = done ++ stmt :: rest ∧ s.runAll done = (none, s₀) ∧
      (Act.exec budget stmt [s₀.globals]).run s₀.machine = .error f s'.machine ∧
      s'.globals = s₀.globals := by
  induction stmts generalizing s with
  | nil => simp at h
  | cons stmt rest ih =>
    rw [runAll_cons] at h
    split at h
    · -- the first statement ran, and the fault is in the rest
      rename_i scope m ran
      obtain ⟨done, bad, rest', s₀, rfl, ranDone, failed, globals⟩ := ih h
      exact ⟨stmt :: done, bad, rest', s₀, rfl, by simp only [runAll_cons, ran]; exact ranDone,
        failed, globals⟩
    · rename_i f' m failed
      cases h
      exact ⟨[], stmt, rest, s, rfl, rfl, failed, rfl⟩

end Session

/-- Every failing mutation leaves its target as it was: a failed class declaration declares
nothing, a failed statement binds nothing, and a failed assignment, field store or `parse`
changes no box. -/
theorem failed_mutations_keep_targets :
    (∀ n name parent fields scope m f m',
      (Act.exec n (.classDecl name parent fields) scope).run m = .error f m' →
        m.KeepsTypes m') ∧
    (∀ (s s' : Session) stmts f, s.runAll stmts = (some f, s') →
      ∃ done stmt rest s₀, stmts = done ++ stmt :: rest ∧ s.runAll done = (none, s₀) ∧
        (Act.exec Session.budget stmt [s₀.globals]).run s₀.machine = .error f s'.machine ∧
        s'.globals = s₀.globals) ∧
    (∀ scope x e m v mv f m', (Act.eval scope e).run m = .ok v mv →
      (Act.eval scope (.assign x e)).run m = .error f m' → m'.heap = mv.heap) ∧
    (∀ scope obj field rhs m o m₁ a c id t v mv f m', (Act.eval scope obj).run m = .ok o m₁ →
      m₁.object? o = some (a, c, id, t) → (Act.eval scope rhs).run m₁ = .ok v mv →
      (Act.eval scope (.set obj field rhs)).run m = .error f m' → mv.KeepsStore m') ∧
    ∀ scope callee line args m m₁ target source mv f m',
      (Act.eval scope callee).run m = .ok (.builtin .parse) m₁ →
      (Act.evalAll scope args).run m₁ = .ok [target, source] mv →
      (Act.eval scope (.call callee line args)).run m = .error f m' → m'.heap = mv.heap :=
  ⟨fun n name parent fields scope m f m' h =>
      Act.keepsTypes_classDecl_onFault n name parent fields scope m f m' h,
    fun _ _ _ _ h => Session.runAll_fault h,
    fun _ _ _ _ _ _ _ _ rhs h => Act.eval_assign_fault rhs h,
    fun _ _ _ _ _ _ _ _ _ _ _ _ _ _ _ target inst value h => Act.eval_set_fault target inst value h,
    fun _ _ _ _ _ _ _ _ _ _ _ fn operands h => Act.eval_parse_fault fn operands h⟩

end ClassScript
