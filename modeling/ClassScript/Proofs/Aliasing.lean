import ClassScript.Proofs.Frame

/-! Aliasing of instances. A variable declared from a variable that holds an instance
gets a box of its own: a new instance on the same table. A field stored from such a
variable holds the variable's own box. An assignment to a variable overwrites its box
in place, an instance box taking the other instance's table, or none for `null`, and
keeping its identity. So after `T y = x;` a later `x = e;` leaves `y` as it was, while
after `o.f = x;` it changes what `o.f` shows. -/
namespace ClassScript

theorem lookup_replace (entries : Table) (name : String) (v : Value)
    (held : (entries.lookup name).isSome) :
    (entries.map fun e => if e.1 == name then (name, v) else e).lookup name = some v := by
  induction entries with
  | nil => simp at held
  | cons e rest ih =>
    obtain ⟨k, w⟩ := e
    by_cases hk : k = name
    · subst hk
      simp
    · have hk' : (name == k) = false := by simpa using Ne.symm hk
      have hk'' : (k == name) = false := by simpa using hk
      simp only [List.lookup_cons, hk'] at held
      simp only [List.map_cons, hk'', Bool.false_eq_true, if_false, List.lookup_cons, hk']
      exact ih held

namespace Machine

/-- `m'` differs from `m` at most in box `a`, the classes' field-cache account and the
printed text: every table, and every other box, is as it was. -/
structure ChangesOnly (a : Nat) (m m' : Machine) : Prop where
  tables : m'.heap.tables = m.heap.tables
  cells : ∀ b, b ≠ a → m'.cell? b = m.cell? b

instance (a : Nat) : Std.Refl (ChangesOnly a) := ⟨fun _ => ⟨rfl, fun _ _ => rfl⟩⟩

instance (a : Nat) : IsTrans Machine (ChangesOnly a) :=
  ⟨fun _ _ _ h h' => ⟨h'.tables.trans h.tables, fun b hb => (h'.cells b hb).trans (h.cells b hb)⟩⟩

def SameHeap (m m' : Machine) : Prop := m'.heap = m.heap

instance : Std.Refl SameHeap := ⟨fun _ => rfl⟩

instance : IsTrans Machine SameHeap := ⟨fun _ _ _ h h' => h'.trans h⟩

/-- What a value shows as an instance: its identity, and the entries of its table, or
none in the null state. -/
def view (m : Machine) (v : Value) : Option (Nat × Option Table) :=
  (m.object? v).map fun (_, _, id, t) => (id, t.map m.table)

theorem view_of_cell {m : Machine} {a c id : Nat} {t : Option Nat}
    (h : m.cell? a = some (.object c id t)) : m.view (.ref a) = some (id, t.map m.table) := by
  simp [view, object?, h]

theorem view_congr {m m' : Machine} {a : Nat} (cell : m'.cell? a = m.cell? a)
    (tables : m'.heap.tables = m.heap.tables) : m'.view (.ref a) = m.view (.ref a) := by
  have : m'.table = m.table := by
    funext t
    simp [table, tables]
  simp [view, object?, cell, this]

theorem map_table_tableOf (m : Machine) (v : Value) :
    ((m.object? v).bind fun (_, _, _, t) => t).map m.table = (m.view v).bind Prod.snd := by
  unfold view
  cases m.object? v with
  | none => rfl
  | some o => rfl

end Machine

namespace Act

variable {α : Type}

theorem changesOnly_consult (a c : Nat) : Respects (Machine.ChangesOnly a) (consult c) :=
  fun _ => ⟨rfl, fun _ _ => rfl⟩

theorem changesOnly_setCell (a : Nat) (cell : Cell) :
    Respects (Machine.ChangesOnly a) (setCell a cell) := fun m =>
  ⟨rfl, fun b hb => by simp [final, setCell, Machine.cell?, Ne.symm hb]⟩

theorem changesOnly_setValue (a : Nat) (v : Value) :
    Respects (Machine.ChangesOnly a) (setValue (.ref a) v) := by
  refine respects_get.bind ?_
  intro m
  split
  · exact (respects_asInt v).bind fun _ => changesOnly_setCell a _
  · exact (respects_asReal v).bind fun _ => changesOnly_setCell a _
  · exact (respects_asBool v).bind fun _ => changesOnly_setCell a _
  · exact (respects_text (changesOnly_consult a) v).bind fun _ => changesOnly_setCell a _
  · refine respects_get.bind ?_
    intro m'
    split
    · exact changesOnly_setCell a _
    · exact changesOnly_setCell a _
    · exact (respects_typeName _).bind fun _ => respects_get.bind fun _ => respects_fault _
  · exact respects_pure _

theorem ChangesOnly.of_ok {a : Nat} {x : Act α} (hx : Respects (Machine.ChangesOnly a) x)
    {m m' : Machine} {r : α} (h : x.run m = .ok r m') : m.ChangesOnly a m' := by
  have := hx m
  rwa [final_of_ok h] at this

theorem cell?_setCell_ok {a : Nat} {cell : Cell} {m m' : Machine} {u : Unit}
    (exists_ : a < m.heap.cells.size) (h : (setCell a cell).run m = .ok u m') :
    m'.cell? a = some cell := by
  cases h
  simp [Machine.cell?, exists_]

/-- Storing into an instance box keeps its class and identity and makes it use the
table of the stored instance, or none for `null`. -/
theorem setValue_object_ok {a c id : Nat} {t : Option Nat} {v : Value} {m m' : Machine}
    {u : Unit} (hcell : m.cell? a = some (.object c id t))
    (h : (setValue (.ref a) v).run m = .ok u m') :
    m'.cell? a = some (.object c id ((m.object? v).bind fun (_, _, _, t) => t)) := by
  have exists_ : a < m.heap.cells.size := (Array.getElem?_eq_some_iff.mp hcell).1
  simp only [setValue] at h
  obtain ⟨m₀, m₁, hget, h₁⟩ := run_bind_ok h
  obtain ⟨rfl, rfl⟩ := run_get_ok hget
  rw [hcell] at h₁
  obtain ⟨m₂, m₃, hget', h₂⟩ := run_bind_ok h₁
  obtain ⟨rfl, rfl⟩ := run_get_ok hget'
  split at h₂
  · rename_i t' instance_
    rw [cell?_setCell_ok exists_ h₂, instance_]
    rfl
  · rename_i none_
    rw [cell?_setCell_ok exists_ h₂, none_]
    rfl
  · obtain ⟨n, m₄, -, h₃⟩ := run_bind_ok h₂
    obtain ⟨m₅, m₆, -, h₄⟩ := run_bind_ok h₃
    exact absurd h₄ (run_fault_ne_ok _ _ _ _)

theorem newDefault_ok {t : Ty} {m m' : Machine} {v : Value} (h : (newDefault t).run m = .ok v m') :
    v = .null ∨ v = .ref m.heap.cells.size := by
  cases t <;> simp [newDefault, newObject, alloc, freshId] at h <;> simp [h]

theorem setValue_null_ne_ok (v : Value) (m m' : Machine) (u : Unit) :
    (setValue .null v).run m ≠ .ok u m' :=
  run_fault_ne_ok _ m m' u

/-- A declaration with an initial value binds the name to a box made for it, the next
box of the store. -/
theorem declareVar_ok {scope s₁ : Scope} {type name : Name} {e : Expr} {m m₁ : Machine}
    (h : (declareVar scope type name (some e)).run m = .ok s₁ m₁) :
    s₁ = scope.define name.text (.ref m.heap.cells.size) := by
  simp only [declareVar] at h
  obtain ⟨m', m₀, hget, h₁⟩ := run_bind_ok h
  obtain ⟨rfl, rfl⟩ := run_get_ok hget
  obtain ⟨t, m₁', ht, h₂⟩ := run_bind_ok h₁
  obtain ⟨-, rfl⟩ := run_ofExcept_ok (run_atLine_ok.mp ht)
  obtain ⟨box, m₂, hbox, h₃⟩ := run_bind_ok h₂
  obtain ⟨v, m₃, -, h₄⟩ := run_bind_ok h₃
  obtain ⟨u, m₄, hstore, h₅⟩ := run_bind_ok h₄
  obtain ⟨rfl, -⟩ := run_pure_ok h₅
  rcases newDefault_ok hbox with rfl | rfl
  · -- the null box of a type that has no box refuses every value
    obtain ⟨w, m₅, -, hset⟩ := run_bind_ok (run_within_ok.mp (run_atLine_ok.mp hstore))
    exact absurd hset (setValue_null_ne_ok _ _ _ _)
  · rfl

theorem eval_assign_ok {scope : Scope} {name : Name} {rhs : Expr} {m mv m₂ : Machine}
    {r v : Value} (h : (eval scope (.assign name rhs)).run m = .ok r m₂)
    (hrhs : (eval scope rhs).run m = .ok v mv) :
    ∃ box, scope.lookup? name.text = some box ∧ r = box ∧ (setValue box v).run mv = .ok () m₂ := by
  simp only [eval] at h
  obtain ⟨v', mv', hrhs', h₁⟩ := run_bind_ok h
  rw [hrhs] at hrhs'
  cases hrhs'
  split at h₁
  · exact absurd (run_atLine_ok.mp h₁) (run_fault_ne_ok _ _ _ _)
  · rename_i box bound
    obtain ⟨m₃, m₄, hget, h₂⟩ := run_bind_ok h₁
    obtain ⟨rfl, rfl⟩ := run_get_ok hget
    obtain ⟨u, m₅, hcheck, h₃⟩ := run_bind_ok h₂
    obtain rfl := (respects_checkAssignable (R := (· = ·)) _ _).state_of_ok (run_atLine_ok.mp hcheck)
    obtain ⟨u', m₆, hset, h₄⟩ := run_bind_ok h₃
    obtain ⟨hr, rfl⟩ := run_pure_ok h₄
    exact ⟨box, bound, hr.symm, run_within_ok.mp (run_atLine_ok.mp hset)⟩

theorem sameHeap_consult (c : Nat) : Respects Machine.SameHeap (consult c) := fun _ => rfl

theorem SameHeap.of_ok {x : Act α} (hx : Respects Machine.SameHeap x) {m m' : Machine} {r : α}
    (h : x.run m = .ok r m') : m'.heap = m.heap := by
  have := hx m
  rwa [final_of_ok h] at this

theorem object?_of_heap {m m' : Machine} (heap : m'.heap = m.heap) (v : Value) :
    m'.object? v = m.object? v := by
  simp [Machine.object?, Machine.cell?, heap]

theorem fieldValue_instance_ok {a : Nat} {name : String} {v stored : Value} {m m' : Machine}
    (instance_ : (m.object? v).isSome) (h : (fieldValue a name v).run m = .ok stored m') :
    stored = v ∧ m'.heap = m.heap := by
  simp only [fieldValue] at h
  obtain ⟨m₀, m₁, hget, h₁⟩ := run_bind_ok h
  obtain ⟨rfl, rfl⟩ := run_get_ok hget
  obtain ⟨ft?, m₂, hft, h₂⟩ := run_bind_ok h₁
  have heap₂ := SameHeap.of_ok (respects_fieldType sameHeap_consult _ _) hft
  split at h₂
  · exact absurd h₂ (run_fault_ne_ok _ _ _ _)
  · obtain ⟨u, m₃, hcheck, h₃⟩ := run_bind_ok h₂
    obtain rfl := (respects_checkAssignable (R := (· = ·)) _ _).state_of_ok hcheck
    obtain ⟨m₄, m₅, hget', h₄⟩ := run_bind_ok h₃
    obtain ⟨rfl, rfl⟩ := run_get_ok hget'
    rw [object?_of_heap heap₂] at h₄
    obtain ⟨o, ho⟩ := Option.isSome_iff_exists.mp instance_
    simp only [ho] at h₄
    split at h₄
    · obtain ⟨rfl, rfl⟩ := run_pure_ok h₄
      exact ⟨rfl, heap₂⟩
    · exact absurd h₄ (run_fault_ne_ok _ _ _ _)

theorem visible_ok_true {c : Nat} {entries : Table} {name : String} {m m' : Machine}
    (h : (visible c entries name).run m = .ok true m') : (entries.lookup name).isSome := by
  unfold visible at h
  split at h
  · assumption
  · cases h

/-- Writing a field replaces the value under its name in the instance's table, which
holds the name. -/
theorem setField_ok {a : Nat} {name : String} {v : Value} {m m' : Machine} {u : Unit}
    (h : (setField a name v).run m = .ok u m') :
    ∃ c id t, m.cell? a = some (.object c id (some t)) ∧ ((m.table t).lookup name).isSome ∧
      m'.heap.cells = m.heap.cells ∧
      m'.table t = (m.table t).map fun e => if e.1 == name then (name, v) else e := by
  simp only [setField] at h
  obtain ⟨m₀, m₁, hget, h₁⟩ := run_bind_ok h
  obtain ⟨rfl, rfl⟩ := run_get_ok hget
  split at h₁
  · exact absurd h₁ (run_fault_ne_ok _ _ _ _)
  · rename_i c id t hcell
    obtain ⟨visible, m₂, hvisible, h₂⟩ := run_bind_ok h₁
    have heap₂ := SameHeap.of_ok (respects_visible sameHeap_consult _ _ _) hvisible
    split at h₂
    · rename_i yes
      subst yes
      have held := visible_ok_true hvisible
      have bound : t < m.heap.tables.size := by
        by_contra outside
        simp [Machine.table, Array.getElem?_eq_none (Nat.le_of_not_lt outside)] at held
      cases h₂
      refine ⟨c, id, t, hcell, held, by simp [heap₂], ?_⟩
      simp [Machine.table, heap₂, bound]
    · exact absurd h₂ (run_fault_ne_ok _ _ _ _)
  · exact absurd h₁ (run_fault_ne_ok _ _ _ _)

theorem eval_var_ok {scope : Scope} {name : Name} {m m' : Machine} {v : Value}
    (h : (eval scope (.var name)).run m = .ok v m') : scope.lookup? name.text = some v ∧ m = m' := by
  simp only [eval] at h
  split at h
  · rename_i w bound
    obtain ⟨rfl, rfl⟩ := run_pure_ok h
    exact ⟨bound, rfl⟩
  · exact absurd (run_atLine_ok.mp h) (run_fault_ne_ok _ _ _ _)

/-- Declaring a variable of a class type from a variable that holds an instance makes a
new instance of that class under the next identity, on the other instance's table. -/
theorem declareVar_instance_cell {scope s₁ : Scope} {type y x : Name} {m m₁ : Machine}
    {bx c id c' : Nat} {t : Option Nat} (holds : scope.lookup? x.text = some (.ref bx))
    (inst : m.cell? bx = some (.object c id t)) (cls : m.registry.lookup type.text = .ok (.cls c'))
    (h : (declareVar scope type y (some (.var x))).run m = .ok s₁ m₁) :
    m₁.cell? m.heap.cells.size = some (.object c' m.heap.nextId t) := by
  simp only [declareVar] at h
  obtain ⟨m', m₀, hget, h₁⟩ := run_bind_ok h
  obtain ⟨rfl, rfl⟩ := run_get_ok hget
  obtain ⟨ty, m₂, hty, h₂⟩ := run_bind_ok h₁
  obtain ⟨looked, rfl⟩ := run_ofExcept_ok (run_atLine_ok.mp hty)
  rw [cls] at looked
  cases looked
  obtain ⟨box, m₃, hbox, h₃⟩ := run_bind_ok h₂
  cases hbox
  obtain ⟨v, m₄, hv, h₄⟩ := run_bind_ok h₃
  obtain ⟨bound, rfl⟩ := eval_var_ok hv
  rw [holds] at bound
  cases bound
  obtain ⟨u, m₅, hstore, h₅⟩ := run_bind_ok h₄
  obtain ⟨-, rfl⟩ := run_pure_ok h₅
  obtain ⟨w, m₆, hcheck, hset⟩ := run_bind_ok (run_within_ok.mp (run_atLine_ok.mp hstore))
  obtain rfl := (respects_checkAssignable (R := (· = ·)) _ _).state_of_ok hcheck
  -- `x`'s box was made before the new one, so it still holds `x`'s instance
  have old : bx < m.heap.cells.size := (Array.getElem?_eq_some_iff.mp inst).1
  have kept : (m.heap.cells.push (.object c' m.heap.nextId none))[bx]? = some (.object c id t) := by
    rw [Array.getElem?_push, if_neg (by omega)]
    exact inst
  rw [setValue_object_ok (by simp [Machine.cell?] : _ = some (Cell.object c' m.heap.nextId none)) hset]
  simp [Machine.object?, Machine.cell?, kept]

/-- Storing a variable that holds an instance into a field puts the variable's own box
into the table of the instance the field belongs to. -/
theorem eval_set_var_ok {scope : Scope} {o f x : Name} {bx cx idx : Nat} {tx : Option Nat}
    {m m₁ : Machine} {r : Value} (holds : scope.lookup? x.text = some (.ref bx))
    (inst : m.cell? bx = some (.object cx idx tx))
    (h : (eval scope (.set (.var o) f (.var x))).run m = .ok r m₁) :
    r = .ref bx ∧ ∃ bo c id t, scope.lookup? o.text = some (.ref bo) ∧
      m₁.cell? bo = some (.object c id (some t)) ∧ (m₁.table t).lookup f.text = some (.ref bx) := by
  rw [eval] at h
  obtain ⟨vo, m₂, hvo, h₁⟩ := run_bind_ok h
  obtain ⟨ho, rfl⟩ := eval_var_ok hvo
  obtain ⟨a, m₃, hbox, h₂⟩ := run_bind_ok h₁
  obtain ⟨rfl, c, id, t, found⟩ := instanceBox_ok hbox
  obtain ⟨rfl, -⟩ := object?_eq_some found
  obtain ⟨vx, m₄, hvx, h₃⟩ := run_bind_ok h₂
  obtain ⟨hx, rfl⟩ := eval_var_ok hvx
  rw [holds] at hx
  cases hx
  obtain ⟨stored, m₅, hstored, h₄⟩ := run_bind_ok h₃
  obtain ⟨rfl, -⟩ := fieldValue_instance_ok (by simp [Machine.object?, inst])
    (run_atLine_ok.mp hstored)
  obtain ⟨u, m₆, hset, h₅⟩ := run_bind_ok h₄
  obtain ⟨c', id', t', hcell, held, cells, table⟩ := setField_ok (run_atLine_ok.mp hset)
  obtain ⟨rfl, rfl⟩ := run_pure_ok h₅
  refine ⟨rfl, a, c', id', t', ho, ?_, ?_⟩
  · simpa [Machine.cell?, cells] using hcell
  · rw [table]
    exact lookup_replace _ _ _ held

/-- Assigning to a variable bound to box `a` changes what box `a` shows and no other:
every other box shows what it showed after the right side was evaluated, and when `a`
is an instance box it keeps its identity and shows the assigned value's null state and
fields. -/
theorem eval_assign_view {s : Scope} {x : Name} {a : Nat} {n nv n₂ : Machine} {e : Expr}
    {v r : Value} (bound : s.lookup? x.text = some (.ref a)) (rhs : (eval s e).run n = .ok v nv)
    (assigned : (eval s (.assign x e)).run n = .ok r n₂) :
    (∀ b, b ≠ a → n₂.view (.ref b) = nv.view (.ref b)) ∧
      ∀ c id t, nv.cell? a = some (.object c id t) →
        n₂.view (.ref a) = some (id, (nv.view v).bind Prod.snd) := by
  obtain ⟨box, hbox, -, hset⟩ := eval_assign_ok assigned rhs
  rw [bound] at hbox
  cases hbox
  have frame := ChangesOnly.of_ok (changesOnly_setValue a v) hset
  refine ⟨fun b hb => Machine.view_congr (frame.cells b hb) frame.tables, fun c id t hcell => ?_⟩
  have table : n₂.table = nv.table := by
    funext t
    simp [Machine.table, frame.tables]
  rw [Machine.view_of_cell (setValue_object_ok hcell hset), table, Machine.map_table_tableOf]

/-- A declaration `T y = x;` binds `y` to a box of its own, while `o.f = x;` puts `x`'s own
box into `o`'s table; so a later `x = e;` leaves `y` as it was and changes what `o.f` shows. -/
theorem instance_store_aliasing (scope : Scope) (m : Machine) (x : Name) (bx c id : Nat)
    (t : Option Nat) (holds : scope.lookup? x.text = some (.ref bx))
    (inst : m.cell? bx = some (.object c id t)) :
    (∀ (type y : Name) (s₁ : Scope) (m₁ : Machine), y.text ≠ x.text →
      (declareVar scope type y (some (.var x))).run m = .ok s₁ m₁ →
      ∃ b, s₁.lookup? y.text = some (.ref b) ∧ b ≠ bx ∧ s₁.lookup? x.text = some (.ref bx) ∧
        ∀ c', m.registry.lookup type.text = .ok (.cls c') →
          m₁.cell? b = some (.object c' m.heap.nextId t)) ∧
    (∀ (o f : Name) (r : Value) (m₁ : Machine),
      (eval scope (.set (.var o) f (.var x))).run m = .ok r m₁ →
      r = .ref bx ∧ ∃ bo c' id' t', scope.lookup? o.text = some (.ref bo) ∧
        m₁.cell? bo = some (.object c' id' (some t')) ∧ (m₁.table t').lookup f.text = some (.ref bx)) ∧
    (∀ (s : Scope) (a : Nat) (n : Machine) (e : Expr) (v : Value) (nv : Machine) (r : Value)
      (n₂ : Machine), s.lookup? x.text = some (.ref a) →
      (eval s e).run n = .ok v nv → (eval s (.assign x e)).run n = .ok r n₂ →
      (∀ b, b ≠ a → n₂.view (.ref b) = nv.view (.ref b)) ∧
        ∀ c' id' t', nv.cell? a = some (.object c' id' t') →
          n₂.view (.ref a) = some (id', (nv.view v).bind Prod.snd)) := by
  refine ⟨fun type y s₁ m₁ distinct declared => ?_, fun o f r m₁ stored => eval_set_var_ok holds inst stored,
    fun s a n e v nv r n₂ bound rhs assigned => eval_assign_view bound rhs assigned⟩
  -- the declared box is the next box of the store, and `x`'s box is already in it
  have fresh : bx < m.heap.cells.size := (Array.getElem?_eq_some_iff.mp inst).1
  refine ⟨m.heap.cells.size, ?_, by omega, ?_, fun c' cls => declareVar_instance_cell holds inst cls declared⟩
  · rw [declareVar_ok declared]
    exact Scope.lookup?_define_self _ _ _
  · rw [declareVar_ok declared, Scope.lookup?_define_of_ne _ _ (Ne.symm distinct), holds]

theorem declared_copy_has_own_box :
    let s := ((Session.start 0).step "class N \x7b int v; \x7d N x = new N;").2
    Scope.lookup? [s.globals] "x" = some (.ref 0) ∧ s.machine.cell? 0 = some (.object 0 1 (some 0)) ∧
      ((declareVar [s.globals] ⟨"N", 1⟩ ⟨"y", 1⟩ (some (.var ⟨"x", 1⟩))).value? s.machine).bind
        (fun s₁ => s₁.lookup? "y") ≠ some (.ref 0) := by
  intro s
  have facts : Scope.lookup? [s.globals] "x" = some (.ref 0) ∧
      s.machine.cell? 0 = some (.object 0 1 (some 0)) ∧
      ((declareVar [s.globals] ⟨"N", 1⟩ ⟨"y", 1⟩ (some (.var ⟨"x", 1⟩))).value? s.machine).isSome := by
    decide +kernel
  obtain ⟨holds, inst, runs⟩ := facts
  refine ⟨holds, inst, ?_⟩
  obtain ⟨s₁, declared⟩ := Option.isSome_iff_exists.mp runs
  obtain ⟨b, bound, other, -, -⟩ := (instance_store_aliasing [s.globals] s.machine ⟨"x", 1⟩ 0 0 1
    (some 0) holds inst).1 ⟨"N", 1⟩ ⟨"y", 1⟩ s₁ _ (by decide) (run_eq_ok declared)
  rw [declared]
  simpa [bound] using other

theorem field_store_sees_reassignment :
    ¬ ∀ (scope : Scope) (m : Machine) (o f x : Name) (bx c id : Nat) (t : Option Nat) (r : Value)
      (m₁ : Machine) (e : Expr) (v : Value) (mv : Machine) (r' : Value) (m₂ : Machine),
      scope.lookup? x.text = some (.ref bx) → m.cell? bx = some (.object c id t) →
      (eval scope (.set (.var o) f (.var x))).run m = .ok r m₁ →
      (eval scope e).run m₁ = .ok v mv → (eval scope (.assign x e)).run m₁ = .ok r' m₂ →
      m₂.view r = mv.view r := by
  intro claim
  -- after `N x = new N; x.v = 1; H o = new H;`, run `o.f = x;` and then `x = new N;`
  let s := ((Session.start 0).step
    "class N \x7b int v; \x7d class H \x7b N f; \x7d N x = new N; x.v = 1; H o = new H;").2
  let store : Expr := .set (.var ⟨"o", 1⟩) ⟨"f", 1⟩ (.var ⟨"x", 1⟩)
  let fresh : Expr := .new ⟨"N", 1⟩
  let m₁ := (eval [s.globals] store).final s.machine
  -- one evaluation of the session gives every fact the claim needs, and its failure
  have facts : Scope.lookup? [s.globals] "x" = some (.ref 0) ∧
      s.machine.cell? 0 = some (.object 0 1 (some 0)) ∧
      (eval [s.globals] store).value? s.machine = some (.ref 0) ∧
      (eval [s.globals] fresh).value? m₁ = some (.ref 8) ∧
      (eval [s.globals] (.assign ⟨"x", 1⟩ fresh)).value? m₁ = some (.ref 0) ∧
      ((eval [s.globals] (.assign ⟨"x", 1⟩ fresh)).final m₁).view (.ref 0) ≠
        ((eval [s.globals] fresh).final m₁).view (.ref 0) := by
    decide +kernel
  obtain ⟨holds, inst, stored, made, assigned, differs⟩ := facts
  exact differs (claim [s.globals] s.machine ⟨"o", 1⟩ ⟨"f", 1⟩ ⟨"x", 1⟩ 0 0 1 (some 0) (.ref 0) m₁
    fresh (.ref 8) _ (.ref 0) _ holds inst (run_eq_ok stored) (run_eq_ok made)
    (run_eq_ok assigned))

end Act

end ClassScript
