import ClassScript.Proofs.Tables
import ClassScript.Proofs.TypeSafety

/-! Which locations share a scalar box. A scalar bound to a variable is bound once and held
by no field table, so a write through a variable changes what no other variable and no field
reads. Tables may share boxes with each other: a clone's table holds the original's. -/
namespace ClassScript

namespace Cell

/-- A box of an integer, a real, a truth value or a string. -/
def scalar : Cell → Bool
  | .object .. => false
  | _ => true

@[simp] theorem scalar_shape (c : Cell) : c.shape.scalar = c.scalar := by
  cases c <;> rfl

end Cell

namespace Machine

variable {m m' m'' : Machine} {a : Nat}

/-- Whether a value is a scalar box of `m`. -/
def scalar (m : Machine) : Value → Bool
  | .ref a => (m.cell? a).any Cell.scalar
  | _ => false

def held (m : Machine) (t : Nat) : List Value := (m.table t).map Prod.snd

theorem scalar_of_object? {v : Value} {o : Nat × Nat × Nat × Option Nat}
    (h : m.object? v = some o) : m.scalar v = false := by
  obtain ⟨b, c, id, t⟩ := o
  obtain ⟨rfl, hb⟩ := Act.object?_eq_some h
  simp [scalar, hb, Cell.scalar]

theorem Extends.scalar_ref (ext : m.Extends m') (ha : a < m.heap.cells.size) :
    m'.scalar (.ref a) = m.scalar (.ref a) := by
  obtain ⟨c, hc⟩ : ∃ c, m.cell? a = some c := ⟨_, Array.getElem?_eq_getElem ha⟩
  obtain ⟨c', hc', same⟩ := ext.cells a c hc
  simp only [scalar, hc, hc', Option.any_some]
  rw [← Cell.scalar_shape c', same, Cell.scalar_shape]

theorem held_of_tables (tables : m'.heap.tables = m.heap.tables) (t : Nat) :
    m'.held t = m.held t := by
  simp [held, table, tables]

theorem held_of_size_le {t : Nat} (ht : m.heap.tables.size ≤ t) : m.held t = [] := by
  simp [held, table, Array.getElem?_eq_none ht]

theorem WellTyped.lt_of_held (wt : m.WellTyped) {t : Nat} (h : .ref a ∈ m.held t) :
    a < m.heap.cells.size := by
  obtain ⟨e, he, same⟩ := List.mem_map.mp h
  have ht : t < m.heap.tables.size := by
    by_contra outside
    simp [held_of_size_le (Nat.le_of_not_lt outside)] at h
  obtain ⟨C, owner⟩ := wt.owners t ht
  obtain ⟨E, T, -, -, fits⟩ := owner.holds.values e he
  obtain ⟨b, c, hb, hc⟩ := fits.cell
  rw [same] at hb
  cases hb
  exact (Array.getElem?_eq_some_iff.mp hc).1

/-- Every scalar box a table of `m'` holds is a box `m` does not have, or one a table of
`m` holds already: the tables of `m'` took in no box that `m` had outside its tables. -/
structure StoresFresh (m m' : Machine) : Prop where
  grows : m.Extends m'
  fresh : ∀ t a, .ref a ∈ m'.held t → m'.scalar (.ref a) = true →
    m.heap.cells.size ≤ a ∨ ∃ u, .ref a ∈ m.held u

namespace StoresFresh

theorem refl (m : Machine) : m.StoresFresh m := ⟨.refl m, fun t _ h _ => .inr ⟨t, h⟩⟩

theorem trans (h : m.StoresFresh m') (h' : m'.StoresFresh m'') : m.StoresFresh m'' where
  grows := h.grows.trans h'.grows
  fresh t a hold scalar := by
    rcases h'.fresh t a hold scalar with later | ⟨u, before⟩
    · exact .inl (h.grows.cells_size.trans later)
    · -- a box of `m'` was a scalar box there too
      by_cases ha : a < m'.heap.cells.size
      · exact h.fresh u a before (by rwa [← h'.grows.scalar_ref ha])
      · exact .inl (h.grows.cells_size.trans (Nat.le_of_not_lt ha))

theorem of_tables (ext : m.Extends m') (tables : m'.heap.tables = m.heap.tables) :
    m.StoresFresh m' :=
  ⟨ext, fun t _ hold _ => .inr ⟨t, by rwa [← held_of_tables tables]⟩⟩

/-- A step that adds one table, of boxes made after `m` or held by its tables already. -/
theorem of_push {entries : Table} (ext : m.Extends m')
    (tables : m'.heap.tables = m.heap.tables.push entries)
    (fresh : ∀ a, .ref a ∈ entries.map Prod.snd →
      m.heap.cells.size ≤ a ∨ ∃ u, .ref a ∈ m.held u) :
    m.StoresFresh m' where
  grows := ext
  fresh t a hold _ := by
    have table : m'.held t = if t = m.heap.tables.size then entries.map Prod.snd else m.held t := by
      simp only [held, table, tables, Array.getElem?_push]
      split <;> rfl
    rw [table] at hold
    split at hold
    · exact fresh a hold
    · exact .inr ⟨t, hold⟩

end StoresFresh

instance : Std.Refl StoresFresh := ⟨StoresFresh.refl⟩

instance : IsTrans Machine StoresFresh := ⟨fun _ _ _ => StoresFresh.trans⟩

def KeepsBoxes (m m' : Machine) : Prop := ∀ b < m.heap.cells.size, m'.cell? b = m.cell? b

instance : Std.Refl KeepsBoxes := ⟨fun _ _ _ => rfl⟩

instance : IsTrans Machine KeepsBoxes := ⟨fun m m' m'' h h' b hb => by
  have kept := h b hb
  rw [Machine.cell?, Machine.cell?, Array.getElem?_eq_getElem hb] at kept
  rw [h' b (Array.getElem?_eq_some_iff.mp kept).1, h b hb]⟩

end Machine

/-! ### Bindings that share no scalar box -/

namespace Scope

variable {scope : Scope} {m m' : Machine} {x : String} {v : Value}

theorem mem_flatten_of_lookup? :
    ∀ {scope : Scope} {x : String} {v : Value}, scope.lookup? x = some v → (x, v) ∈ scope.flatten
  | [], _, _, h => by cases h
  | f :: rest, x, v, h => by
    simp only [lookup?] at h
    split at h
    · rename_i w found
      cases h
      exact List.mem_append_left _ (mem_of_lookup_eq_some found)
    · exact List.mem_append_right _ (mem_flatten_of_lookup? h)

/-- A declaration binds in the innermost frame, dropping an earlier binding of the name
there. -/
theorem flatten_define_sublist (scope : Scope) (x : String) (v : Value) :
    (scope.define x v).flatten.Sublist ((x, v) :: scope.flatten) := by
  cases scope with
  | nil => simp [define, Frame.define]
  | cons f rest =>
    simp only [define, Frame.define, List.flatten_cons, List.cons_append]
    exact ((List.filter_sublist).append_right _).cons_cons _

/-- The bindings of `scope` hold boxes of `m`, and a scalar box in one binding only and in
no table of `m`. -/
structure Apart (scope : Scope) (m : Machine) : Prop where
  allocated : ∀ x a, (x, .ref a) ∈ scope.flatten → a < m.heap.cells.size
  once : ((scope.flatten.filter fun b => m.scalar b.2).map Prod.snd).Nodup
  unshared : ∀ x a, (x, .ref a) ∈ scope.flatten → m.scalar (.ref a) = true →
    ∀ t, .ref a ∉ m.held t

namespace Apart

/-- Bindings stay apart through every run that stores into tables no box it did not make. -/
theorem mono (h : scope.Apart m) (step : m.StoresFresh m') : scope.Apart m' where
  allocated x a hb := (h.allocated x a hb).trans_le step.grows.cells_size
  once := by
    have same : scope.flatten.filter (fun b => m'.scalar b.2) =
        scope.flatten.filter (fun b => m.scalar b.2) := by
      apply List.filter_congr
      rintro ⟨x, w⟩ hb
      cases w with
      | ref a => exact step.grows.scalar_ref (h.allocated x a hb)
      | null => rfl
      | builtin f => rfl
    rw [same]
    exact h.once
  unshared x a hb scalar t held := by
    have ha := h.allocated x a hb
    rcases step.fresh t a held scalar with later | ⟨u, before⟩
    · omega
    · exact h.unshared x a hb (by rwa [← step.grows.scalar_ref ha]) u before

theorem sublist {scope' : Scope} (h : scope.Apart m) (sub : scope'.flatten.Sublist scope.flatten) :
    scope'.Apart m where
  allocated x a hb := h.allocated x a (sub.subset hb)
  once := h.once.sublist ((sub.filter _).map _)
  unshared x a hb := h.unshared x a (sub.subset hb)

theorem bind (h : scope.Apart m) (hv : ∀ a, v = .ref a → a < m.heap.cells.size)
    (own : m.scalar v = true → (∀ b ∈ scope.flatten, b.2 ≠ v) ∧ ∀ t, v ∉ m.held t) :
    Apart ([(x, v)] :: scope) m where
  allocated y a hb := by
    rcases List.mem_cons.mp hb with same | later
    · cases same
      exact hv a rfl
    · exact h.allocated y a later
  once := by
    by_cases scalar : m.scalar v = true
    · simp only [List.flatten_cons, List.singleton_append, List.filter_cons, scalar, if_true,
        List.map_cons, List.nodup_cons]
      refine ⟨fun mem => ?_, h.once⟩
      obtain ⟨b, hb, same⟩ := List.mem_map.mp mem
      exact (own scalar).1 b (List.mem_filter.mp hb).1 same
    · simpa [List.filter_cons, scalar] using h.once
  unshared y a hb scalar t := by
    rcases List.mem_cons.mp hb with same | later
    · cases same
      exact (own scalar).2 t
    · exact h.unshared y a later scalar t

theorem define (h : scope.Apart m) (hv : ∀ a, v = .ref a → a < m.heap.cells.size)
    (own : m.scalar v = true → (∀ b ∈ scope.flatten, b.2 ≠ v) ∧ ∀ t, v ∉ m.held t) :
    (scope.define x v).Apart m :=
  (h.bind hv own).sublist (flatten_define_sublist scope x v)

/-- Through a variable bound to a scalar box, a write that changes that box only changes
what no other variable reads, no table, and what no field reads. -/
theorem write_local {a : Nat} (h : scope.Apart m) (hx : scope.lookup? x = some (.ref a))
    (scalar : m.scalar (.ref a) = true) (only : m.ChangesOnly a m') :
    (∀ y b, y ≠ x → scope.lookup? y = some (.ref b) → m'.cell? b = m.cell? b) ∧
      (∀ t, m'.table t = m.table t) ∧
      ∀ t b, .ref b ∈ m.held t → m'.cell? b = m.cell? b := by
  have bx := mem_flatten_of_lookup? hx
  refine ⟨fun y b hy found => only.cells b fun same => hy ?_, fun t => by
    simp [Machine.table, only.tables], fun t b held => only.cells b fun same => ?_⟩
  · -- two bindings of one scalar box are one binding
    subst same
    have by_ := mem_flatten_of_lookup? found
    have inj := List.inj_on_of_nodup_map h.once (List.mem_filter.mpr ⟨by_, scalar⟩)
      (List.mem_filter.mpr ⟨bx, scalar⟩) rfl
    exact (Prod.mk.inj inj).1
  · subst same
    exact h.unshared x b bx scalar t held

end Apart

end Scope

namespace Act

variable {α β : Type}

/-- A relation between a machine `m₀` and the one a run ends in, followed through a bind:
to where the first step stops with a fault, and to where the rest ends after the first
step succeeds. -/
theorem rel_final_bind {R : Machine → Machine → Prop} {x : Act α} {f : α → Act β}
    {m₀ m : Machine} (hx : R m₀ (x.final m))
    (hf : ∀ a m', x.run m = .ok a m' → R m₀ ((f a).final m')) :
    R m₀ ((x >>= f).final m) := by
  rw [final_bind]
  cases hr : x.run m with
  | ok a m' => exact hf a m' hr
  | error e m' => simpa [final, hr] using hx

theorem changesOnly_parseInto (a : Nat) (s : String) :
    Respects (Machine.ChangesOnly a) (parseInto (.ref a) s) := by
  refine respects_get.bind fun m => ?_
  split
  · split
    · exact changesOnly_setCell a _
    · exact respects_fault _
  · split
    · exact changesOnly_setCell a _
    · exact respects_fault _
  · split
    · exact changesOnly_setCell a _
    · exact respects_fault _
  · exact changesOnly_setCell a _
  · exact respects_get.bind fun _ => respects_fault _
  · exact respects_pure _

/-! ### Steps that store no box in a table -/

theorem storesFresh_alloc (c : Cell) : Respects Machine.StoresFresh (alloc c) := fun m =>
  .of_tables (extending_alloc c m) rfl

theorem storesFresh_consult (c : Nat) : Respects Machine.StoresFresh (consult c) := fun m =>
  .of_tables (extending_consult c m) rfl

theorem storesFresh_emit (s : String) : Respects Machine.StoresFresh (emit s) := fun m =>
  .of_tables (extending_emit s m) rfl

theorem storesFresh_updateRegistry (f : Registry → Except Fault.Cause Registry)
    (keeps : ∀ r r', f r = .ok r' → r.Keeps r') :
    Respects Machine.StoresFresh (updateRegistry f) := fun m =>
  .of_tables (extending_updateRegistry f keeps m) (by
    unfold updateRegistry
    simp only [final, EStateM.run_bind, EStateM.run_get]
    cases f m.registry <;> rfl)

theorem storesFresh_newObject (c : Nat) : Respects Machine.StoresFresh (newObject c) := fun m =>
  .of_tables (extending_newObject c m) rfl

theorem storesFresh_newDefault (t : Ty) : Respects Machine.StoresFresh (newDefault t) := fun m =>
  .of_tables (extending_newDefault t m) (by cases t <;> rfl)

theorem storesFresh_setValue (target v : Value) : Respects Machine.StoresFresh (setValue target v) :=
  fun m => .of_tables (extending_setValue target v m) (by
    cases target with
    | ref a => exact (changesOnly_setValue a v m).tables
    | null => rfl
    | builtin f => rfl)

theorem storesFresh_parseInto (target : Value) (s : String) :
    Respects Machine.StoresFresh (parseInto target s) :=
  fun m => .of_tables (extending_parseInto target s m) (by
    cases target with
    | ref a => exact (changesOnly_parseInto a s m).tables
    | null => rfl
    | builtin f => rfl)

theorem storesFresh_text (v : Value) : Respects Machine.StoresFresh (text v) :=
  respects_text storesFresh_consult v

/-! ### Steps that make tables -/

theorem initializeFields_tables (a : Nat) (m : Machine) :
    ((initializeFields a).final m).heap.tables = m.heap.tables ∨
      ∃ entries : Table, ((initializeFields a).final m).heap.tables = m.heap.tables.push entries ∧
        ∀ w ∈ entries.map Prod.snd, w = .null ∨ ∃ b, m.heap.cells.size ≤ b ∧ w = .ref b := by
  cases hold : m.cell? a with
  | none =>
    left
    simp [initializeFields, final, hold]
  | some cell =>
    cases cell with
    | object c id t =>
      obtain ⟨values, m₂, run₂, -, -, -, fresh, -, tables₂, -, -, -⟩ :=
        defaults_fresh ((m.registry.consult c).fieldTypes c)
          { m with registry := m.registry.consult c }
      refine .inr ⟨values, ?_, fresh⟩
      simp only [initializeFields, final, EStateM.run_bind, EStateM.run_get, hold, consult,
        EStateM.run_modify, run₂, newTable, EStateM.run_modifyGet, setCell]
      exact congrArg (·.push values) tables₂
    | _ =>
      left
      simp [initializeFields, final, hold]

theorem storesFresh_initializeFields (a : Nat) :
    Respects Machine.StoresFresh (initializeFields a) := fun m => by
  rcases initializeFields_tables a m with same | ⟨entries, pushed, fresh⟩
  · exact .of_tables (extending_initializeFields a m) same
  · refine .of_push (extending_initializeFields a m) pushed fun b hb => .inl ?_
    rcases fresh _ hb with null | ⟨b', le, same⟩
    · cases null
    · cases same
      exact le

theorem clone_tables (v : Value) (m : Machine) :
    ((clone v).final m).heap.tables = m.heap.tables ∨
      ∃ u, ((clone v).final m).heap.tables = m.heap.tables.push (m.table u) := by
  cases v with
  | null => exact .inl rfl
  | builtin f => exact .inl rfl
  | ref a =>
    cases hold : m.cell? a with
    | none =>
      left
      simp [clone, final, hold]
    | some cell =>
      cases cell with
      | object c id t =>
        cases t with
        | none =>
          left
          simp [clone, final, hold, newObject_run]
        | some u =>
          right
          refine ⟨u, ?_⟩
          have found : m.heap.cells[a]? = some (.object c id (some u)) := hold
          simp [clone, final, Machine.cell?, found, newObject_run, newTable, setCell,
            Machine.table]
      | _ =>
        left
        simp [clone, final, hold, alloc]

theorem storesFresh_clone (v : Value) : Respects Machine.StoresFresh (clone v) := fun m => by
  rcases clone_tables v m with same | ⟨u, pushed⟩
  · exact .of_tables (extending_clone v m) same
  · exact .of_push (extending_clone v m) pushed fun _ hb => .inr ⟨u, hb⟩

/-! ### Storing into a field -/

theorem storesFresh_fieldValue (a : Nat) (name : String) (v : Value) :
    Respects Machine.StoresFresh (fieldValue a name v) := by
  refine respects_get.bind fun m => ?_
  refine (respects_fieldType storesFresh_consult _ _).bind fun ft => ?_
  split
  · exact respects_fault _
  · refine (respects_checkAssignable _ v).bind fun _ => respects_get.bind fun m' => ?_
    dsimp only
    split
    · exact Respects.ite (respects_pure _) (respects_fault _)
    · exact Respects.ite (storesFresh_newDefault _) (respects_fault _)
    · exact (storesFresh_newDefault _).bind fun box =>
        (storesFresh_setValue box _).bind fun _ => respects_pure _

theorem newDefault_next {t : Ty} {m m' : Machine} {box : Value}
    (run : (newDefault t).run m = .ok box m') : box = .null ∨ box = .ref m.heap.cells.size := by
  obtain ⟨box', m'', run', -, next, -⟩ := newDefault_fresh t m
  rw [run'] at run
  cases run
  rcases next with ⟨rfl, -⟩ | ⟨rfl, -⟩
  · exact .inl rfl
  · exact .inr rfl

theorem fieldValue_fresh {a : Nat} {name : String} {v stored : Value} {m m' : Machine}
    (run : (fieldValue a name v).run m = .ok stored m') (scalar : m'.scalar stored = true) :
    ∃ b, stored = .ref b ∧ m.heap.cells.size ≤ b := by
  simp only [fieldValue] at run
  obtain ⟨m₀, m₁, hget, run₁⟩ := run_bind_ok run
  obtain ⟨rfl, rfl⟩ := run_get_ok hget
  obtain ⟨ft?, m₂, run₂, run₃⟩ := run_bind_ok run₁
  have heap₂ := SameHeap.of_ok (respects_fieldType sameHeap_consult _ _) run₂
  split at run₃
  · exact absurd run₃ (run_fault_ne_ok _ _ _ _)
  · obtain ⟨u, m₃, run₄, run₅⟩ := run_bind_ok run₃
    have hm₃ := (respects_checkAssignable (R := (· = ·)) _ _).state_of_ok run₄
    subst m₃
    obtain ⟨m₄, m₅, hget', run₆⟩ := run_bind_ok run₅
    obtain ⟨hm₄, hm₅⟩ := run_get_ok hget'
    subst m₄ m₅
    -- a default made here is the null literal or the next box of `m`
    have fresh : ∀ {ft box m'}, (newDefault ft).run m₂ = .ok box m' →
        ∀ {m'' : Machine}, m''.scalar box = true → ∃ b, box = .ref b ∧ m.heap.cells.size ≤ b := by
      intro ft box m' run' m'' scalar'
      rcases newDefault_next run' with rfl | rfl
      · cases scalar'
      · exact ⟨_, rfl, by rw [heap₂]⟩
    split at run₆
    · -- an instance is stored as itself
      rename_i o found
      split at run₆
      · obtain ⟨rfl, rfl⟩ := run_pure_ok run₆
        rw [Machine.scalar_of_object? found] at scalar
        cases scalar
      · exact absurd run₆ (run_fault_ne_ok _ _ _ _)
    · split at run₆
      · rw [if_pos rfl] at run₆
        exact fresh run₆ scalar
      · rw [if_neg (by simp)] at run₆
        exact absurd run₆ (run_fault_ne_ok _ _ _ _)
    · obtain ⟨box, m₆, run₇, run₈⟩ := run_bind_ok run₆
      obtain ⟨u, m₇, run₉, run₁₀⟩ := run_bind_ok run₈
      obtain ⟨rfl, rfl⟩ := run_pure_ok run₁₀
      exact fresh run₇ scalar

theorem mem_replace {entries : Table} {name : String} {v w : Value}
    (h : w ∈ (entries.map fun e => if e.1 == name then (name, v) else e).map Prod.snd) :
    w ∈ entries.map Prod.snd ∨ w = v := by
  rw [List.map_map, List.mem_map] at h
  obtain ⟨e, he, rfl⟩ := h
  by_cases hk : e.1 = name
  · simp [hk]
  · exact .inl (List.mem_map.mpr ⟨e, he, by simp [hk]⟩)

theorem held_of_setField_ok {a : Nat} {name : String} {v : Value} {m m' : Machine} {u : Unit}
    (run : (setField a name v).run m = .ok u m') (t : Nat) {w : Value} (hw : w ∈ m'.held t) :
    w ∈ m.held t ∨ w = v := by
  obtain ⟨c, id, t₀, -, -, -, heap⟩ := setField_spec run
  simp only [Machine.held, Machine.table, heap, Array.set!, Array.getElem?_setIfInBounds] at hw
  split_ifs at hw with same inside
  · subst same
    exact mem_replace hw
  · simp at hw
  · exact .inl hw

/-- Writing a field keeps a run storing only what it may: the value written, when a scalar
box, is one made after the run began. -/
theorem storesFresh_setField {a : Nat} {name : String} {v : Value} {m m₁ : Machine}
    (before : m.StoresFresh m₁)
    (made : m₁.scalar v = true → ∃ b, v = .ref b ∧ m.heap.cells.size ≤ b) :
    m.StoresFresh ((setField a name v).final m₁) := by
  cases run : (setField a name v).run m₁ with
  | error e m₂ =>
    have ext := (extending_setField a name v).of_error run
    have final : (setField a name v).final m₁ = m₂ := by simp [final, run]
    rw [final]
    exact before.trans (.of_tables ext (by rw [setField_error_heap run]))
  | ok u m₂ =>
    have final : (setField a name v).final m₁ = m₂ := by simp [final, run]
    rw [final]
    obtain ⟨c, id, t₀, -, -, -, heap⟩ := setField_spec run
    have scalar₂ : ∀ w, m₂.scalar w = m₁.scalar w := fun w => by
      cases w <;> simp [Machine.scalar, Machine.cell?, heap]
    refine ⟨before.grows.trans ((extending_setField a name v).of_ok run), fun t b hold scalar => ?_⟩
    rw [scalar₂] at scalar
    rcases held_of_setField_ok run t hold with old | rfl
    · exact before.fresh t b old scalar
    · obtain ⟨b', same, le⟩ := made scalar
      cases same
      exact .inl le

/-! ### Whole runs -/

theorem storesFresh_callBuiltin (b : Builtin) (args : List Value) :
    Respects Machine.StoresFresh (callBuiltin b args) := by
  unfold callBuiltin
  split
  · exact (storesFresh_text _).bind fun _ => (storesFresh_emit _).bind fun _ => respects_pure _
  · exact (storesFresh_text _).bind fun _ => storesFresh_alloc _
  · exact storesFresh_clone _
  · exact respects_get.bind fun _ => storesFresh_alloc _
  · exact (storesFresh_text _).bind fun _ =>
      (storesFresh_parseInto _ _).bind fun _ => respects_pure _
  · exact respects_pure _

mutual

/-- Evaluating an expression stores into tables only boxes it makes or boxes a table held
already: a field gets a new box for a scalar, and a clone the boxes of its original. -/
theorem storesFresh_eval (scope : Scope) : ∀ e : Expr, Respects Machine.StoresFresh (eval scope e)
  | .literal l => by
    simp only [eval]
    exact respects_literal (fun c _ => storesFresh_alloc c) l
  | .grouping e => by
    simp only [eval]
    exact storesFresh_eval scope e
  | .var name => by
    simp only [eval]
    split
    · exact respects_pure _
    · exact (respects_fault _).atLine _
  | .assign name rhs => by
    simp only [eval]
    refine (storesFresh_eval scope rhs).bind fun v => ?_
    split
    · exact (respects_fault _).atLine _
    · exact respects_get.bind fun _ => ((respects_checkAssignable _ _).atLine _).bind fun _ =>
        (((storesFresh_setValue _ _).within _).atLine _).bind fun _ => respects_pure _
  | .unary op line e => by
    simp only [eval]
    exact (storesFresh_eval scope e).bind fun v =>
      (respects_unary (fun c _ => storesFresh_alloc c) op v).atLine line
  | .binary op line l r => by
    simp only [eval]
    exact (storesFresh_eval scope l).bind fun lv => (storesFresh_eval scope r).bind fun rv =>
      (respects_binary (fun c _ => storesFresh_alloc c) storesFresh_consult op lv rv).atLine line
  | .logical op line l r => by
    simp only [eval]
    refine (storesFresh_eval scope l).bind fun lv => ((respects_asBool lv).atLine line).bind ?_
    intro truthy
    cases op with
    | or => exact Respects.ite (respects_pure _) (storesFresh_eval scope r)
    | and => exact Respects.ite (storesFresh_eval scope r) (respects_pure _)
  | .call callee line args => by
    simp only [eval]
    refine (storesFresh_eval scope callee).bind fun f => (storesFresh_evalAll scope args).bind ?_
    intro vs
    split
    · exact Respects.ite ((respects_fault _).atLine _)
        (((storesFresh_callBuiltin _ _).within _).atLine _)
    · exact (respects_typeName _).bind fun _ => (respects_fault _).atLine _
  | .new cls => by
    simp only [eval]
    refine respects_get.bind fun m => ((respects_ofExcept _).atLine _).bind fun c => ?_
    refine (storesFresh_newObject c).bind fun obj => ?_
    split
    · exact (storesFresh_initializeFields _).bind fun _ => respects_pure _
    · exact respects_pure _
  | .get obj field => by
    simp only [eval]
    exact (storesFresh_eval scope obj).bind fun v => (respects_instanceBox v field).bind fun a =>
      (respects_getField storesFresh_consult a field.text).atLine _
  | .set obj field rhs => by
    simp only [eval]
    refine (storesFresh_eval scope obj).bind fun o => (respects_instanceBox o field).bind
      fun a => (storesFresh_eval scope rhs).bind fun v => ?_
    -- the value stored is made by `fieldValue` itself when it is a scalar box
    intro m
    refine rel_final_bind ((storesFresh_fieldValue a field.text v).atLine _ m) ?_
    intro stored m₁ run₁
    have made := fieldValue_fresh (run_atLine_ok.mp run₁)
    have before := (storesFresh_fieldValue a field.text v).of_ok (run_atLine_ok.mp run₁)
    have written : m.StoresFresh ((setField a field.text stored).final m₁) :=
      storesFresh_setField before made
    refine rel_final_bind (by rwa [final_atLine]) ?_
    intro _ m₂ run₂
    rwa [final_of_ok (run_atLine_ok.mp run₂)] at written

theorem storesFresh_evalAll (scope : Scope) :
    ∀ es : List Expr, Respects Machine.StoresFresh (evalAll scope es)
  | [] => by
    simp only [evalAll]
    exact respects_pure _
  | e :: es => by
    simp only [evalAll]
    exact (storesFresh_eval scope e).bind fun _ => (storesFresh_evalAll scope es).bind fun _ =>
      respects_pure _

end

theorem storesFresh_condition (keyword : String) (scope : Scope) (c : Expr) :
    Respects Machine.StoresFresh (condition keyword scope c) :=
  respects_condition storesFresh_eval keyword scope c

theorem storesFresh_declareClass (name : Name) (parent : Option Name) (fields : List FieldDecl) :
    Respects Machine.StoresFresh (declareClass name parent fields) := by
  unfold declareClass
  split
  on_goal 1 => refine respects_get.bind fun _ =>
    Respects.bind (((respects_ofExcept _).atLine _).map _) fun super => ?_
  on_goal 2 => refine (respects_pure _).bind fun super => ?_
  -- a class changes the registry only
  all_goals
    dsimp only
    refine Respects.bind ?_ ?_
    · intro m
      refine .of_tables ⟨fun _ c h => ⟨c, h, rfl⟩, le_rfl, fun _ _ => rfl, fun d k hd _ => ?_⟩ rfl
      simpa [final] using Registry.get?_newClass name.text super hd
    · intro c
      refine Respects.bind ?_ ?_
      · apply respects_forIn
        intro f _
        apply Respects.ite
        · exact (respects_pure _).bind fun ft => ((storesFresh_updateRegistry _
            fun r r' h _ _ hd declared => Registry.get?_addField h hd declared).atLine _).bind
              fun _ => respects_pure _
        · exact respects_get.bind fun _ => ((respects_ofExcept _).atLine _).bind fun ft =>
            ((storesFresh_updateRegistry _ fun r r' h _ _ hd declared =>
              Registry.get?_addField h hd declared).atLine _).bind fun _ => respects_pure _
      · intro _
        exact ((storesFresh_updateRegistry _ fun r r' h _ _ hd declared =>
          Registry.get?_declare h hd declared).atLine _).bind fun _ => storesFresh_consult c

theorem storesFresh_exec (n : Nat) (stmt : Stmt) (scope : Scope) :
    Respects Machine.StoresFresh (exec n stmt scope) :=
  respects_exec ⟨storesFresh_eval,
    respects_declareVar storesFresh_eval storesFresh_newDefault storesFresh_setValue,
    storesFresh_declareClass⟩ n stmt scope

/-- A declaration that succeeds binds a box that no binding and no table holds. -/
theorem apart_declareVar {scope scope' : Scope} {type name : Name} {init : Option Expr}
    {m m' : Machine} (apart : scope.Apart m) (wt : m.WellTyped)
    (run : (declareVar scope type name init).run m = .ok scope' m') : scope'.Apart m' := by
  simp only [declareVar] at run
  obtain ⟨m₀, m₁, hget, run₁⟩ := run_bind_ok run
  obtain ⟨rfl, rfl⟩ := run_get_ok hget
  obtain ⟨t, m₂, run₂, run₃⟩ := run_bind_ok run₁
  obtain ⟨-, rfl⟩ := run_ofExcept_ok (run_atLine_ok.mp run₂)
  obtain ⟨box, m₃, run₄, run₅⟩ := run_bind_ok run₃
  -- the box is the null literal or the next box of `m`, and no table changed making it
  obtain ⟨box', m₃', run₄', -, next, -, tables₃, -⟩ := newDefault_fresh t m
  rw [run₄'] at run₄
  cases run₄
  have rest : m₃.StoresFresh m' ∧ scope' = scope.define name.text box := by
    cases init with
    | some e =>
      obtain ⟨v, m₄, run₆, run₇⟩ := run_bind_ok run₅
      obtain ⟨u, m₅, run₈, run₉⟩ := run_bind_ok run₇
      obtain ⟨rfl, rfl⟩ := run_pure_ok run₉
      exact ⟨((storesFresh_eval scope e).of_ok run₆).trans ((((respects_checkAssignable t v).bind
        fun _ => storesFresh_setValue _ v).within _).atLine _ |>.of_ok run₈), rfl⟩
    | none =>
      obtain ⟨rfl, rfl⟩ := run_pure_ok run₅
      exact ⟨.refl _, rfl⟩
  obtain ⟨stored, rfl⟩ := rest
  have grows := stored.grows.cells_size
  refine (apart.mono (((storesFresh_newDefault t).of_ok run₄').trans stored)).define ?_ ?_
  · rintro a rfl
    rcases next with ⟨null, -⟩ | ⟨same, size⟩
    · cases null
    · cases same
      omega
  · intro scalar
    rcases next with ⟨rfl, -⟩ | ⟨rfl, size⟩
    · cases scalar
    · refine ⟨fun b hb same => ?_, fun t held => ?_⟩
      · obtain ⟨y, w⟩ := b
        cases same
        exact absurd (apart.allocated y _ hb) (lt_irrefl _)
      · -- a table holding it held it before the box was made, past the end of the store
        rcases stored.fresh t _ held scalar with later | ⟨u, before⟩
        · omega
        · rw [Machine.held_of_tables tables₃] at before
          exact absurd (wt.lt_of_held before) (lt_irrefl _)

/-- A statement that succeeds gives back bindings that share no scalar box, the ones it
made included. -/
theorem apart_exec : ∀ (n : Nat) (stmt : Stmt) (scope scope' : Scope) (m m' : Machine),
    scope.Apart m → m.WellTyped → (exec n stmt scope).run m = .ok scope' m' → scope'.Apart m'
  | 0, _, _, _, _, _, _, _, h => by
    simp only [exec] at h
    exact absurd h (run_fault_ne_ok _ _ _ _)
  | n + 1, stmt, scope, scope', m, m', apart, wt, h => by
    have stored := (storesFresh_exec (n + 1) stmt scope).of_ok h
    cases stmt with
    | expr _ | block _ | classDecl _ _ _ =>
      -- these give back the scope they ran in
      simp only [exec] at h
      obtain ⟨_, m₁, -, h₁⟩ := run_bind_ok h
      obtain ⟨rfl, -⟩ := run_pure_ok h₁
      exact apart.mono stored
    | ifElse c t e =>
      simp only [exec] at h
      obtain ⟨_, m₁, hc, h₁⟩ := run_bind_ok h
      have apart₁ := apart.mono ((storesFresh_condition _ scope c).of_ok hc)
      have wt₁ := (typed_condition _ scope c).of_ok hc wt
      split at h₁
      · exact apart_exec n t scope scope' m₁ m' apart₁ wt₁ h₁
      · exact apart_exec n e scope scope' m₁ m' apart₁ wt₁ h₁
    | whileLoop c body =>
      simp only [exec] at h
      obtain ⟨_, m₁, hc, h₁⟩ := run_bind_ok h
      have apart₁ := apart.mono ((storesFresh_condition _ scope c).of_ok hc)
      have wt₁ := (typed_condition _ scope c).of_ok hc wt
      split at h₁
      · -- one pass of the body, then the loop again from the bindings it left
        obtain ⟨scope₁, m₂, h₂, h₃⟩ := run_bind_ok h₁
        exact apart_exec n (.whileLoop c body) scope₁ scope' m₂ m'
          (apart_exec n body scope scope₁ m₁ m₂ apart₁ wt₁ h₂)
          ((typed_exec n body scope).of_ok h₂ wt₁) h₃
      · obtain ⟨rfl, -⟩ := run_pure_ok h₁
        exact apart.mono stored
    | var type name init =>
      simp only [exec] at h
      exact apart_declareVar apart wt h

/-! ### Field stores write no box there was -/

theorem keepsBoxes_alloc (c : Cell) : Respects Machine.KeepsBoxes (alloc c) := fun m b hb => by
  simp [Machine.cell?, Array.getElem?_push, hb.ne]

theorem keepsBoxes_consult (c : Nat) : Respects Machine.KeepsBoxes (consult c) := fun _ _ _ => rfl

theorem keepsBoxes_freshId : Respects Machine.KeepsBoxes freshId := fun _ _ _ => rfl

theorem keepsBoxes_newDefault (t : Ty) : Respects Machine.KeepsBoxes (newDefault t) := by
  cases t with
  | cls c => exact keepsBoxes_freshId.bind fun _ => keepsBoxes_alloc _
  | null => exact respects_pure _
  | function => exact respects_pure _
  | int => exact keepsBoxes_alloc _
  | real => exact keepsBoxes_alloc _
  | bool => exact keepsBoxes_alloc _
  | string => exact keepsBoxes_alloc _

/-- The value a field takes is the stored instance itself or a box made for it; a scalar
is copied into that box, and no box there was is written. -/
theorem keepsBoxes_fieldValue (a : Nat) (name : String) (v : Value) :
    Respects Machine.KeepsBoxes (fieldValue a name v) := by
  refine respects_get.bind fun m => ?_
  refine (respects_fieldType keepsBoxes_consult _ _).bind fun ft => ?_
  split
  · exact respects_fault _
  · refine (respects_checkAssignable _ v).bind fun _ => respects_get.bind fun m' => ?_
    dsimp only
    split
    · exact Respects.ite (respects_pure _) (respects_fault _)
    · exact Respects.ite (keepsBoxes_newDefault _) (respects_fault _)
    · intro m₅
      refine rel_final_bind (keepsBoxes_newDefault _ m₅) fun box m₆ run₆ => ?_
      have made := (keepsBoxes_newDefault _).of_ok run₆
      rcases newDefault_next run₆ with rfl | rfl
      · -- storing into the null literal fails at once
        exact rel_final_bind made fun _ _ run => absurd run (setValue_null_ne_ok _ _ _ _)
      · -- the value goes into the box just made
        refine rel_final_bind (fun b hb => ?_) fun _ m₇ run₇ b hb => ?_
        · rw [(changesOnly_setValue _ _ m₆).cells b hb.ne, made b hb]
        · rw [← made b hb]
          exact (ChangesOnly.of_ok (changesOnly_setValue _ _) run₇).cells b hb.ne

theorem keepsBoxes_setField (a : Nat) (name : String) (v : Value) :
    Respects Machine.KeepsBoxes (setField a name v) := fun m b _ => by
  cases run : (setField a name v).run m with
  | ok u m' =>
    obtain ⟨c, id, t, -, -, -, heap⟩ := setField_spec run
    simp [final, run, Machine.cell?, heap]
  | error e m' => simp [final, run, Machine.cell?, setField_error_heap run]

end Act

namespace Session

theorem apart_start (capacity : Int) :
    Scope.Apart [(start capacity).globals] (start capacity).machine := by
  have builtins : ∀ b ∈ [(start capacity).globals].flatten, ∃ f, b.2 = .builtin f := by
    simp [start]
  refine ⟨fun x a hb => ?_, ?_, fun x a hb => ?_⟩
  · obtain ⟨f, hf⟩ := builtins _ hb
    cases hf
  · have none : [(start capacity).globals].flatten.filter
        (fun b => (start capacity).machine.scalar b.2) = [] := by
      refine List.filter_eq_nil_iff.mpr fun b hb => ?_
      obtain ⟨f, hf⟩ := builtins b hb
      simp [hf, Machine.scalar]
    rw [none]
    exact List.nodup_nil
  · obtain ⟨f, hf⟩ := builtins _ hb
    cases hf

/-- Running top-level statements keeps the globals apart, also when a fault stops them. -/
theorem apart_runAll : ∀ (s : Session) (stmts : List Stmt),
    Scope.Apart [s.globals] s.machine → s.machine.WellTyped →
      Scope.Apart [(s.runAll stmts).2.globals] (s.runAll stmts).2.machine
  | s, [], apart, _ => apart
  | s, stmt :: rest, apart, wt => by
    rw [runAll_cons]
    split
    · rename_i scope m run
      refine apart_runAll _ rest ?_ ((Act.typed_exec budget stmt [s.globals]).of_ok run wt)
      -- the statement leaves the globals as its outermost frame
      split
      · exact (Act.apart_exec _ _ _ _ _ _ apart wt run).sublist (by simp)
      · exact apart.mono ((Act.storesFresh_exec _ _ _).of_ok run)
    · rename_i f m run
      exact apart.mono ((Act.storesFresh_exec _ _ _).of_error run)

theorem apart_step (s : Session) (source : String) (apart : Scope.Apart [s.globals] s.machine)
    (wt : s.machine.WellTyped) :
    Scope.Apart [(s.step source).2.globals] (s.step source).2.machine := by
  have grows : s.machine.Extends { s.machine with out := "" } :=
    ⟨fun _ c h => ⟨c, h, rfl⟩, le_rfl, fun _ _ => rfl, fun _ _ h _ => h⟩
  have cleared : Scope.Apart [s.globals] { s.machine with out := "" } :=
    apart.mono (.of_tables grows rfl)
  rw [step_eq]
  dsimp only
  split
  · exact cleared
  · split
    · exact cleared
    · exact apart_runAll { s with machine := { s.machine with out := "" } } _ cleared
        (wt.of_store grows wt.registry rfl rfl)

/-- In every state a session reaches, the globals share no scalar box. -/
theorem Reachable.apart {s : Session} (h : s.Reachable) : Scope.Apart [s.globals] s.machine := by
  induction h with
  | start capacity => exact apart_start capacity
  | step source reach ih => exact apart_step _ source ih reach.wellTyped

/-- No scalar box bound to a variable is shared: in every state a session reaches, each is in
one binding only and in no field table. So a write through a variable changes what no other
variable and no field reads, and storing into a field writes no box there was. -/
theorem variable_scalars_unshared :
    (∀ s : Session, s.Reachable → Scope.Apart [s.globals] s.machine) ∧
    (∀ (n : Nat) (stmt : Stmt) (scope scope' : Scope) (m m' : Machine), scope.Apart m →
      m.WellTyped → (Act.exec n stmt scope).run m = .ok scope' m' → scope'.Apart m') ∧
    (∀ (n : Nat) (stmt : Stmt) (scope : Scope) (m : Machine), scope.Apart m →
      scope.Apart ((Act.exec n stmt scope).final m)) ∧
    (∀ (scope : Scope) (m m' : Machine) (x : String) (a : Nat), scope.Apart m →
      scope.lookup? x = some (.ref a) → m.scalar (.ref a) = true → m.ChangesOnly a m' →
      (∀ y b, y ≠ x → scope.lookup? y = some (.ref b) → m'.cell? b = m.cell? b) ∧
      (∀ t, m'.table t = m.table t) ∧ ∀ t b, .ref b ∈ m.held t → m'.cell? b = m.cell? b) ∧
    (∀ (a : Nat) (v : Value) (text : String) (m : Machine),
      m.ChangesOnly a ((Act.setValue (.ref a) v).final m) ∧
      m.ChangesOnly a ((Act.parseInto (.ref a) text).final m)) ∧
    ∀ (a : Nat) (name : String) (v : Value) (m : Machine),
      (∀ stored m', (Act.fieldValue a name v).run m = .ok stored m' → m'.scalar stored = true →
        ∃ b, stored = .ref b ∧ m.heap.cells.size ≤ b) ∧
      m.KeepsBoxes ((Act.fieldValue a name v).final m) ∧
      m.KeepsBoxes ((Act.setField a name v).final m) :=
  ⟨fun _ reach => reach.apart, Act.apart_exec,
    fun n stmt scope m apart => apart.mono (Act.storesFresh_exec n stmt scope m),
    fun _ _ _ _ _ apart found scalar only => apart.write_local found scalar only,
    fun a v text m => ⟨Act.changesOnly_setValue a v m, Act.changesOnly_parseInto a text m⟩,
    fun a name v m => ⟨fun _ _ run scalar => Act.fieldValue_fresh run scalar,
      Act.keepsBoxes_fieldValue a name v m, Act.keepsBoxes_setField a name v m⟩⟩

/-- Field tables do share scalar boxes: a clone's table holds the very boxes of the
original's, so after `P b = clone(a);` the tables of `a` and `b` hold one integer box, and
`parse` through `a.x` changes what `b.x` reads. -/
theorem cloned_tables_share_scalar_boxes :
    (¬ ∀ s : Session, s.Reachable → ∀ t u a, t ≠ u → s.machine.scalar (.ref a) = true →
      .ref a ∈ s.machine.held t → .ref a ∉ s.machine.held u) ∧
    (((Session.start 0).step "class P \x7b int x; \x7d P a = new P; P b = clone(a);").2.step
      "parse(a.x, \"7\"); print(b.x);").1.out = "7\n" := by
  let s := ((Session.start 0).step "class P \x7b int x; \x7d P a = new P; P b = clone(a);").2
  have shared : s.machine.scalar (.ref 2) = true ∧ .ref 2 ∈ s.machine.held 0 ∧
      .ref 2 ∈ s.machine.held 1 := by
    decide +kernel
  refine ⟨fun claim => claim s (.step _ (.start 0)) 0 1 2 (by decide) shared.1 shared.2.1
    shared.2.2, ?_⟩
  decide +kernel

end Session

end ClassScript
