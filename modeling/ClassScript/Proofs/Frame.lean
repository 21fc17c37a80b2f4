import Mathlib
import ClassScript.Eval.Session
import ClassScript.Proofs.Registry

/-! What a run can change. Boxes and tables are only ever added: an existing box keeps
its kind, and an instance box its class and identity, while its contents and the table
it uses may change; an existing table keeps its field names, while the values under
them may change; a declared class never changes. Every step of a run, and so every
run, ends in a machine that extends the one it started from, also when it stops with
a fault. -/
namespace ClassScript

namespace Scope

theorem lookup_filter_ne (f : Frame) {x y : String} (h : y ≠ x) :
    (f.filter (·.1 != x)).lookup y = f.lookup y := by
  induction f with
  | nil => rfl
  | cons e rest ih =>
    obtain ⟨k, w⟩ := e
    by_cases hk : k = x
    · subst hk
      have : (y == k) = false := by simpa using h
      simp [List.lookup_cons, this, ih]
    · by_cases hy : y = k
      · subst hy
        simp [hk]
      · have : (y == k) = false := by simpa using hy
        simp [hk, List.lookup_cons, this, ih]

theorem lookup?_define_self (scope : Scope) (x : String) (v : Value) :
    (scope.define x v).lookup? x = some v := by
  cases scope <;> simp [define, Frame.define, lookup?]

theorem lookup?_define_of_ne (scope : Scope) {x y : String} (v : Value) (h : y ≠ x) :
    (scope.define x v).lookup? y = scope.lookup? y := by
  have hyx : (y == x) = false := by simpa using h
  cases scope with
  | nil => simp [define, Frame.define, lookup?, List.lookup_cons, hyx]
  | cons f rest => simp [define, Frame.define, lookup?, List.lookup_cons, hyx, lookup_filter_ne f h]

end Scope

namespace Cell

/-- A box with its contents forgotten: its kind, and for an instance its class and
identity. -/
def shape : Cell → Cell
  | .int _ => .int 0
  | .real _ => .real ⟨0⟩
  | .bool _ => .bool false
  | .string _ => .string ""
  | .object c id _ => .object c id none

@[simp] theorem shape_object (c id : Nat) (t : Option Nat) :
    (Cell.object c id t).shape = .object c id none := rfl

theorem eq_object_of_shape {cell : Cell} {c id : Nat} (h : cell.shape = .object c id none) :
    ∃ t, cell = .object c id t := by
  cases cell <;> simp_all [shape]

end Cell

namespace Act

/-- The machine a run of `x` from `m` ends in, whether it succeeded or stopped with a
fault. -/
def final {α : Type} (x : Act α) (m : Machine) : Machine :=
  match x.run m with
  | .ok _ m' => m'
  | .error _ m' => m'

def value? {α : Type} (x : Act α) (m : Machine) : Option α :=
  match x.run m with
  | .ok a _ => some a
  | .error _ _ => none

theorem run_eq_ok {α : Type} {x : Act α} {m : Machine} {a : α} (h : x.value? m = some a) :
    x.run m = .ok a (x.final m) := by
  revert h
  unfold value? final
  cases x.run m with
  | ok b m' => exact fun h => by cases h; rfl
  | error f m' => exact fun h => by cases h

theorem final_of_ok {α : Type} {x : Act α} {m m' : Machine} {a : α} (h : x.run m = .ok a m') :
    x.final m = m' := by
  simp [final, h]

theorem final_bind {α β : Type} (x : Act α) (f : α → Act β) (m : Machine) :
    (x >>= f).final m = match x.run m with
      | .ok a m' => (f a).final m'
      | .error _ m' => m' := by
  simp only [final, EStateM.run_bind]
  cases x.run m <;> rfl

theorem run_within {α : Type} (ctx : Fault.Context) (x : Act α) (m : Machine) :
    (within ctx x).run m = match x.run m with
      | .ok a m' => .ok a m'
      | .error f m' => .error (f.within ctx) m' := by
  show EStateM.tryCatch x _ m = _
  simp only [EStateM.tryCatch, EStateM.run]
  cases x m <;> rfl

@[simp] theorem final_within {α : Type} (ctx : Fault.Context) (x : Act α) (m : Machine) :
    (within ctx x).final m = x.final m := by
  simp only [final, run_within]
  cases x.run m <;> rfl

theorem run_within_ok {α : Type} {ctx : Fault.Context} {x : Act α} {m m' : Machine} {a : α} :
    (within ctx x).run m = .ok a m' ↔ x.run m = .ok a m' := by
  rw [run_within]
  cases x.run m <;> simp

@[simp] theorem run_atLine {α : Type} (line : Nat) (x : Act α) (m : Machine) :
    (atLine line x).run m = match x.run m with
      | .ok a m' => .ok a m'
      | .error f m' => .error (f.within (.line line)) m' :=
  run_within _ x m

theorem run_atLine_ok {α : Type} {line : Nat} {x : Act α} {m m' : Machine} {a : α} :
    (atLine line x).run m = .ok a m' ↔ x.run m = .ok a m' :=
  run_within_ok

theorem run_pure_ok {α : Type} {a b : α} {m m' : Machine} (h : (pure a : Act α).run m = .ok b m') :
    a = b ∧ m = m' := by
  cases h
  exact ⟨rfl, rfl⟩

theorem run_get_ok {a m m' : Machine} (h : (get : Act Machine).run m = .ok a m') :
    m = a ∧ m = m' := by
  cases h
  exact ⟨rfl, rfl⟩

theorem run_fault_ne_ok {α : Type} (c : Fault.Cause) (m m' : Machine) (a : α) :
    (fault c : Act α).run m ≠ .ok a m' := by
  intro h
  cases h

theorem run_ofExcept_ok {α : Type} {e : Except Fault.Cause α} {m m' : Machine} {a : α}
    (h : (ofExcept e).run m = .ok a m') : e = .ok a ∧ m = m' := by
  cases e with
  | ok b =>
    cases h
    exact ⟨rfl, rfl⟩
  | error c => cases h

theorem run_bind_ok {α β : Type} {x : Act α} {f : α → Act β} {m m'' : Machine} {b : β}
    (h : (x >>= f).run m = .ok b m'') : ∃ a m', x.run m = .ok a m' ∧ (f a).run m' = .ok b m'' := by
  rw [EStateM.run_bind] at h
  cases hx : x.run m with
  | ok a m' => exact ⟨a, m', rfl, by rwa [hx] at h⟩
  | error e m' => rw [hx] at h; cases h

/-- A run of `x >>= f` that stops with a fault stopped in `x`, or in `f` after `x`
succeeded. -/
theorem run_bind_error {α β : Type} {x : Act α} {f : α → Act β} {m m'' : Machine} {e : Fault}
    (h : (x >>= f).run m = .error e m'') :
    x.run m = .error e m'' ∨ ∃ a m', x.run m = .ok a m' ∧ (f a).run m' = .error e m'' := by
  rw [EStateM.run_bind] at h
  cases hx : x.run m with
  | ok a m' => exact .inr ⟨a, m', rfl, by rwa [hx] at h⟩
  | error e' m' =>
    rw [hx] at h
    cases h
    exact .inl rfl

end Act

namespace Machine

/-- `m'` extends `m`: every box of `m` is a box of `m'` of the same shape, every table
of `m` a table of `m'` with the same field names, and every declared class of `m` the
same class in `m'`. -/
structure Extends (m m' : Machine) : Prop where
  cells : ∀ a c, m.cell? a = some c → ∃ c', m'.cell? a = some c' ∧ c'.shape = c.shape
  tables : m.heap.tables.size ≤ m'.heap.tables.size
  keys : ∀ t < m.heap.tables.size, (m'.table t).map Prod.fst = (m.table t).map Prod.fst
  classes : m.registry.Keeps m'.registry

namespace Extends

@[refl] theorem refl (m : Machine) : m.Extends m :=
  ⟨fun _ c h => ⟨c, h, rfl⟩, le_rfl, fun _ _ => rfl, fun _ _ h _ => h⟩

@[trans] theorem trans {m m' m'' : Machine} (h : m.Extends m') (h' : m'.Extends m'') :
    m.Extends m'' where
  cells a c hc := by
    obtain ⟨c', hc', same⟩ := h.cells a c hc
    obtain ⟨c'', hc'', same'⟩ := h'.cells a c' hc'
    exact ⟨c'', hc'', same'.trans same⟩
  tables := h.tables.trans h'.tables
  keys t ht := (h'.keys t (lt_of_lt_of_le ht h.tables)).trans (h.keys t ht)
  classes c k hk declared := h'.classes c k (h.classes c k hk declared) declared

variable {m m' : Machine} (h : m.Extends m')
include h

theorem cells_size : m.heap.cells.size ≤ m'.heap.cells.size := by
  rcases Nat.eq_zero_or_pos m.heap.cells.size with empty | nonempty
  · omega
  · have last : m.cell? (m.heap.cells.size - 1) = some m.heap.cells[m.heap.cells.size - 1] :=
      Array.getElem?_eq_getElem (by omega)
    obtain ⟨c', hc', -⟩ := h.cells _ _ last
    have := (Array.getElem?_eq_some_iff.mp hc').1
    omega

theorem object {a c id : Nat} {t : Option Nat} (hc : m.cell? a = some (.object c id t)) :
    ∃ t', m'.cell? a = some (.object c id t') := by
  obtain ⟨c', hc', same⟩ := h.cells a _ hc
  obtain ⟨t', rfl⟩ := Cell.eq_object_of_shape same
  exact ⟨t', hc'⟩

end Extends

end Machine

namespace Act

variable {α β : Type} {R : Machine → Machine → Prop}

/-- Every run of `x` ends in a machine that `R` relates to the one it started from,
also when it stops with a fault. For a reflexive and transitive `R` this passes through
every way of putting steps together. -/
def Respects (R : Machine → Machine → Prop) (x : Act α) : Prop := ∀ m : Machine, R m (x.final m)

theorem respects_pure [Std.Refl R] (a : α) : Respects R (pure a : Act α) := fun m => Std.Refl.refl m

theorem respects_get [Std.Refl R] : Respects R (get : Act Machine) := fun m => Std.Refl.refl m

theorem respects_throw [Std.Refl R] (f : Fault) : Respects R (throw f : Act α) :=
  fun m => Std.Refl.refl m

theorem respects_fault [Std.Refl R] (c : Fault.Cause) : Respects R (fault c : Act α) :=
  respects_throw _

theorem respects_ofExcept [Std.Refl R] (e : Except Fault.Cause α) : Respects R (ofExcept e) := by
  cases e with
  | ok a => exact respects_pure a
  | error c => exact respects_fault c

theorem Respects.bind [IsTrans Machine R] {x : Act α} {f : α → Act β} (hx : Respects R x)
    (hf : ∀ a, Respects R (f a)) : Respects R (x >>= f) := by
  intro m
  rw [final_bind]
  cases hr : x.run m with
  | ok a m' =>
    have first := hx m
    rw [final_of_ok hr] at first
    exact IsTrans.trans _ _ _ first (hf a m')
  | error e m' => simpa [final, hr] using hx m

theorem Respects.within {x : Act α} (ctx : Fault.Context) (hx : Respects R x) :
    Respects R (within ctx x) :=
  fun m => by rw [final_within]; exact hx m

theorem Respects.atLine {x : Act α} (line : Nat) (hx : Respects R x) :
    Respects R (atLine line x) :=
  hx.within (.line line)

theorem Respects.ite {c : Prop} [Decidable c] {x y : Act α} (hx : Respects R x)
    (hy : Respects R y) : Respects R (if c then x else y) := by
  split
  · exact hx
  · exact hy

theorem Respects.map [Std.Refl R] [IsTrans Machine R] {x : Act α} (f : α → β)
    (hx : Respects R x) : Respects R (f <$> x) := by
  rw [map_eq_pure_bind]
  exact hx.bind fun _ => respects_pure _

theorem respects_forM [Std.Refl R] [IsTrans Machine R] {γ : Type} (l : List γ)
    (f : γ → Act PUnit) (hf : ∀ a, Respects R (f a)) : Respects R (l.forM f) := by
  induction l with
  | nil => exact respects_pure _
  | cons a l ih => exact (hf a).bind fun _ => ih

theorem respects_mapM [Std.Refl R] [IsTrans Machine R] {γ δ : Type} (l : List γ)
    (f : γ → Act δ) (hf : ∀ a, Respects R (f a)) : Respects R (l.mapM f) := by
  induction l with
  | nil => exact respects_pure _
  | cons a l ih =>
    rw [List.mapM_cons]
    exact (hf a).bind fun _ => ih.bind fun _ => respects_pure _

theorem respects_forIn [Std.Refl R] [IsTrans Machine R] {γ β : Type} (l : List γ) (b : β)
    (f : γ → β → Act (ForInStep β)) (hf : ∀ a b, Respects R (f a b)) :
    Respects R (forIn l b f) := by
  induction l generalizing b with
  | nil => exact respects_pure _
  | cons a l ih =>
    rw [List.forIn_cons]
    refine (hf a b).bind ?_
    intro step
    cases step with
    | done b => exact respects_pure _
    | yield b => exact ih b

theorem Respects.of_ok {x : Act α} (hx : Respects R x) {m m' : Machine} {a : α}
    (h : x.run m = .ok a m') : R m m' := by
  have := hx m
  rwa [final_of_ok h] at this

theorem Respects.of_error {x : Act α} (hx : Respects R x) {m m' : Machine} {e : Fault}
    (h : x.run m = .error e m') : R m m' := by
  have := hx m
  rwa [show x.final m = m' by simp [final, h]] at this

theorem Respects.state_of_ok {x : Act α} (hx : Respects (· = ·) x) {m m' : Machine}
    {a : α} (h : x.run m = .ok a m') : m' = m := by
  have := hx m
  rw [final_of_ok h] at this
  exact this.symm

instance : Std.Refl Machine.Extends := ⟨Machine.Extends.refl⟩

instance : IsTrans Machine Machine.Extends := ⟨fun _ _ _ => Machine.Extends.trans⟩

/-- Every run of `x` ends in a machine that extends the one it started from. -/
abbrev Extending (x : Act α) : Prop := Respects Machine.Extends x

theorem extends_bind {x : Act α} {f : α → Act β} {m : Machine} (hx : m.Extends (x.final m))
    (hf : ∀ a m', x.run m = .ok a m' → m.Extends m' → m'.Extends ((f a).final m')) :
    m.Extends ((x >>= f).final m) := by
  rw [final_bind]
  cases hr : x.run m with
  | ok a m' =>
    rw [final_of_ok hr] at hx
    exact hx.trans (hf a m' hr hx)
  | error e m' => simpa [final, hr] using hx

/-! ### The store operations -/

theorem extending_alloc (c : Cell) : Extending (alloc c) := fun m => by
  refine ⟨fun a c' h => ⟨c', ?_, rfl⟩, le_rfl, fun _ _ => rfl, fun _ _ h _ => h⟩
  have : a < m.heap.cells.size := (Array.getElem?_eq_some_iff.mp h).1
  simpa [final, alloc, Machine.cell?, Array.getElem?_push, this.ne] using h

theorem extending_freshId : Extending freshId := fun _ =>
  ⟨fun _ c h => ⟨c, h, rfl⟩, le_rfl, fun _ _ => rfl, fun _ _ h _ => h⟩

theorem extending_newTable (t : Table) : Extending (newTable t) := fun m => by
  refine ⟨fun _ c h => ⟨c, h, rfl⟩, by simp [final, newTable], fun i hi => ?_, fun _ _ h _ => h⟩
  simp [final, newTable, Machine.table, Array.getElem?_push, hi.ne]

theorem extends_setCell (m : Machine) (a : Nat) (c : Cell)
    (same : ∀ c', m.cell? a = some c' → c'.shape = c.shape) :
    m.Extends ((setCell a c).final m) := by
  refine ⟨fun b cb hb => ?_, le_rfl, fun _ _ => rfl, fun _ _ h _ => h⟩
  by_cases hab : a = b
  · subst hab
    have : a < m.heap.cells.size := (Array.getElem?_eq_some_iff.mp hb).1
    exact ⟨c, by simp [final, setCell, Machine.cell?, this], (same cb hb).symm⟩
  · exact ⟨cb, by simpa [final, setCell, Machine.cell?, hab] using hb, rfl⟩

theorem extends_setCell_of_shape {m m' : Machine} {a : Nat} {old new : Cell}
    (hold : m.cell? a = some old) (ext : m.Extends m') (same : new.shape = old.shape) :
    m'.Extends ((setCell a new).final m') := by
  apply extends_setCell
  intro c' hc'
  obtain ⟨c'', hc'', shape''⟩ := ext.cells a old hold
  rw [hc'] at hc''
  cases hc''
  rw [shape'', same]

theorem extends_setTable (m : Machine) (i : Nat) (t : Table)
    (same : t.map Prod.fst = (m.table i).map Prod.fst) :
    m.Extends ((setTable i t).final m) := by
  refine ⟨fun _ c h => ⟨c, h, rfl⟩, by simp [final, setTable], fun j hj => ?_,
    fun _ _ h _ => h⟩
  by_cases hij : i = j
  · subst hij
    simpa [final, setTable, Machine.table, hj] using same
  · simp [final, setTable, Machine.table, hij]

theorem extending_consult (c : Nat) : Extending (consult c) := fun m =>
  ⟨fun _ c h => ⟨c, h, rfl⟩, le_rfl, fun _ _ => rfl,
    fun _ _ h _ => by simpa [final, consult, Registry.get?] using h⟩

theorem extending_emit (s : String) : Extending (emit s) := fun _ =>
  ⟨fun _ c h => ⟨c, h, rfl⟩, le_rfl, fun _ _ => rfl, fun _ _ h _ => h⟩

theorem extending_updateRegistry (f : Registry → Except Fault.Cause Registry)
    (keeps : ∀ r r', f r = .ok r' → ∀ d k, r.get? d = some k → k.declared = true →
      r'.get? d = some k) :
    Extending (updateRegistry f) := by
  intro m
  apply extends_bind (respects_get m)
  intro m₀ m₁ hget _
  cases hget
  cases hf : f m.registry with
  | error e => exact respects_fault e m
  | ok r' =>
    refine ⟨fun _ c h => ⟨c, h, rfl⟩, le_rfl, fun _ _ => rfl, fun d k hd declared => ?_⟩
    simpa [final, ofExcept] using keeps _ _ hf d k hd declared

theorem map_fst_replace (entries : Table) (name : String) (v : Value) :
    (entries.map fun e => if e.1 == name then (name, v) else e).map Prod.fst =
      entries.map Prod.fst := by
  rw [List.map_map]
  apply List.map_congr_left
  intro e _
  by_cases h : e.1 = name <;> simp [h]

/-! ### Reads

A step that only reads the machine respects every reflexive and transitive relation;
one that also looks fields up respects those that its lookups respect. -/

section Reads

variable [Std.Refl R] [IsTrans Machine R]

theorem respects_typeName (v : Value) : Respects R (typeName v) :=
  respects_get.bind fun _ => respects_pure _

theorem respects_cellOf (v : Value) : Respects R (cellOf v) := by
  cases v with
  | ref a => exact respects_get.bind fun _ => respects_pure _
  | null => exact respects_pure _
  | builtin f => exact respects_pure _

theorem respects_noConversion {α : Type} (v : Value) (target : String) :
    Respects R (noConversion v target : Act α) :=
  (respects_typeName v).bind fun _ => respects_fault _

theorem respects_asInt (v : Value) : Respects R (asInt v) := by
  refine (respects_cellOf v).bind ?_
  intro c
  split
  · exact respects_pure _
  · exact respects_pure _
  · exact respects_pure _
  · split
    · exact respects_pure _
    · exact respects_fault _
  · exact respects_noConversion v "int"

theorem respects_asReal (v : Value) : Respects R (asReal v) := by
  refine (respects_cellOf v).bind ?_
  intro c
  split
  · exact respects_pure _
  · exact respects_pure _
  · exact respects_pure _
  · split
    · exact respects_pure _
    · exact respects_fault _
  · exact respects_noConversion v "real"

theorem respects_asBool (v : Value) : Respects R (asBool v) := by
  refine (respects_cellOf v).bind ?_
  intro c
  split
  · exact respects_pure _
  · exact respects_pure _
  · exact respects_pure _
  · exact respects_pure _
  · exact respects_noConversion v "bool"

theorem respects_checkAssignable (target : Ty) (v : Value) :
    Respects R (checkAssignable target v) := by
  unfold checkAssignable
  split
  · refine respects_get.bind ?_
    intro m
    split
    · exact Respects.ite (respects_pure _) (respects_fault _)
    · exact respects_pure _
  · exact respects_pure _

theorem respects_instanceBox (v : Value) (field : Name) : Respects R (instanceBox v field) := by
  refine respects_get.bind ?_
  intro m
  split
  · exact respects_pure _
  · exact (respects_typeName v).bind fun _ => (respects_fault _).atLine _

variable (consults : ∀ c, Respects R (consult c))
include consults

theorem respects_text (v : Value) : Respects R (text v) :=
  respects_get.bind fun _ => (respects_forM _ _ consults).bind fun _ => respects_pure _

theorem respects_fieldType (c : Nat) (name : String) : Respects R (fieldType c name) :=
  (consults c).bind fun _ => respects_get.bind fun _ => respects_pure _

theorem respects_visible (c : Nat) (entries : Table) (name : String) :
    Respects R (visible c entries name) := by
  unfold visible
  split
  · exact (consults c).bind fun _ => respects_get.bind fun _ => respects_pure _
  · exact respects_pure _

theorem respects_getField (a : Nat) (name : String) : Respects R (getField a name) := by
  refine respects_get.bind ?_
  intro m
  split
  · exact respects_fault _
  · refine (respects_visible consults _ _ _).bind ?_
    intro visible
    split
    · split
      · exact respects_pure _
      · exact respects_fault _
    · exact respects_fault _
  · exact respects_fault _

end Reads

theorem object?_eq_some {m : Machine} {v : Value} {a c id : Nat} {t : Option Nat}
    (h : m.object? v = some (a, c, id, t)) : v = .ref a ∧ m.cell? a = some (.object c id t) := by
  cases v with
  | ref b =>
    simp only [Machine.object?] at h
    split at h
    · cases h
      rename_i hcell
      exact ⟨rfl, hcell⟩
    · cases h
  | null => cases h
  | builtin f => cases h

theorem instanceBox_ok {v : Value} {field : Name} {m m' : Machine} {a : Nat}
    (h : (instanceBox v field).run m = .ok a m') :
    m = m' ∧ ∃ c id t, m.object? v = some (a, c, id, t) := by
  simp only [instanceBox] at h
  obtain ⟨m₀, m₁, hget, h₁⟩ := run_bind_ok h
  obtain ⟨rfl, rfl⟩ := run_get_ok hget
  split at h₁
  · rename_i a' rest found
    obtain ⟨rfl, rfl⟩ := run_pure_ok h₁
    exact ⟨rfl, rest.1, rest.2.1, rest.2.2, found⟩
  · obtain ⟨n, m₂, -, h₂⟩ := run_bind_ok h₁
    exact absurd (run_atLine_ok.mp h₂) (run_fault_ne_ok _ _ _ _)

theorem extending_text (v : Value) : Extending (text v) := respects_text extending_consult v

/-- Storing into a box overwrites it with a cell of its own kind, or of its own class
and identity. -/
theorem extending_setValue (target v : Value) : Extending (setValue target v) := by
  intro m
  cases target with
  | null => exact respects_fault _ m
  | builtin f => exact respects_fault _ m
  | ref a =>
    apply extends_bind (respects_get m)
    intro m₀ m₁ hget _
    cases hget
    split
    · rename_i n hold
      exact extends_bind (respects_asInt v m) fun _ _ _ ext =>
        extends_setCell_of_shape hold ext rfl
    · rename_i r hold
      exact extends_bind (respects_asReal v m) fun _ _ _ ext =>
        extends_setCell_of_shape hold ext rfl
    · rename_i b hold
      exact extends_bind (respects_asBool v m) fun _ _ _ ext =>
        extends_setCell_of_shape hold ext rfl
    · rename_i s hold
      exact extends_bind (extending_text v m) fun _ _ _ ext =>
        extends_setCell_of_shape hold ext rfl
    · rename_i c id t hold
      apply extends_bind (respects_get m)
      intro m₂ m₃ hget _
      cases hget
      split
      · exact extends_setCell_of_shape hold (.refl m) rfl
      · exact extends_setCell_of_shape hold (.refl m) rfl
      · exact ((respects_typeName _).bind fun _ => respects_get.bind fun _ =>
          respects_fault _) m
    · exact respects_pure _ m

theorem extending_parseInto (target : Value) (s : String) : Extending (parseInto target s) := by
  intro m
  cases target with
  | null => exact respects_fault _ m
  | builtin f => exact respects_fault _ m
  | ref a =>
    apply extends_bind (respects_get m)
    intro m₀ m₁ hget _
    cases hget
    split
    · rename_i n hold
      split
      · exact extends_setCell_of_shape hold (.refl m) rfl
      · exact respects_fault _ m
    · rename_i r hold
      split
      · exact extends_setCell_of_shape hold (.refl m) rfl
      · exact respects_fault _ m
    · rename_i b hold
      split
      · exact extends_setCell_of_shape hold (.refl m) rfl
      · exact respects_fault _ m
    · rename_i s hold
      exact extends_setCell_of_shape hold (.refl m) rfl
    · exact (respects_get.bind fun _ => respects_fault _) m
    · exact respects_pure _ m

/-! ### Instances -/

theorem extending_newObject (c : Nat) : Extending (newObject c) :=
  extending_freshId.bind fun _ => extending_alloc _

theorem extending_newDefault (t : Ty) : Extending (newDefault t) := by
  cases t with
  | cls c => exact extending_newObject c
  | null => exact respects_pure _
  | function => exact respects_pure _
  | int => exact extending_alloc _
  | real => exact extending_alloc _
  | bool => exact extending_alloc _
  | string => exact extending_alloc _

theorem extending_initializeFields (a : Nat) : Extending (initializeFields a) := by
  intro m
  apply extends_bind (respects_get m)
  intro m₀ m₁ hget _
  cases hget
  split
  · rename_i c id t hold
    apply extends_bind (extending_consult c m)
    intro _ m₂ _ ext₂
    apply extends_bind (respects_get m₂)
    intro m₃ m₄ hget _
    cases hget
    dsimp only
    apply extends_bind
      (respects_mapM _ _ (fun (f : String × Ty) =>
        (extending_newDefault f.2).bind fun _ => respects_pure _) m₂)
    intro values m₅ _ ext₅
    apply extends_bind (extending_newTable values m₅)
    intro t' m₆ _ ext₆
    -- the box read at the start is still an instance of its class and identity
    exact extends_setCell_of_shape hold (ext₂.trans (ext₅.trans ext₆)) rfl
  · exact respects_pure _ m

theorem visible_heap (c : Nat) (entries : Table) (name : String) (m : Machine) :
    ((visible c entries name).final m).heap = m.heap := by
  unfold visible
  split <;> rfl

theorem extending_getField (a : Nat) (name : String) : Extending (getField a name) :=
  respects_getField extending_consult a name

theorem extending_setField (a : Nat) (name : String) (v : Value) :
    Extending (setField a name v) := by
  intro m
  apply extends_bind (respects_get m)
  intro m₀ m₁ hget _
  cases hget
  split
  · exact respects_fault _ m
  · rename_i c id t hold
    apply extends_bind (respects_visible extending_consult c (m.table t) name m)
    intro visible m₂ hvisible _
    have heap : m₂.heap = m.heap := by
      rw [← final_of_ok hvisible, visible_heap]
    split
    · apply extends_setTable
      rw [map_fst_replace, Machine.table, Machine.table, heap]
    · exact respects_fault _ m₂
  · exact respects_fault _ m

theorem extending_clone (v : Value) : Extending (clone v) := by
  intro m
  cases v with
  | null => exact respects_pure _ m
  | builtin f => exact respects_pure _ m
  | ref a =>
    apply extends_bind (respects_get m)
    intro m₀ m₁ hget _
    cases hget
    split
    · rename_i c id t hold
      apply extends_bind (extending_newObject c m)
      intro copy m₂ _ _
      -- the copy gets a table of its own only when the original has one
      dsimp only
      split
      · rename_i t b
        apply extends_bind (respects_get m₂)
        intro m₃ m₄ hget _
        cases hget
        apply extends_bind (extending_newTable _ m₂)
        intro nt m₅ _ _
        apply extends_bind (respects_get m₅)
        intro m₆ m₇ hget _
        cases hget
        split
        · rename_i c' id' t' hb
          exact extends_bind (extends_setCell_of_shape hb (.refl m₅) rfl) fun _ m₈ _ _ =>
            respects_pure _ m₈
        · exact respects_pure _ m₅
      · exact respects_pure _ m₂
    · exact extending_alloc _ m
    · exact respects_pure _ m

/-! ### Expressions

Steps that read the machine, look fields up and make scalar boxes respect every
reflexive and transitive relation that lookups and new scalar boxes respect. -/

section Scalars

variable [Std.Refl R] [IsTrans Machine R]
  (allocs : ∀ cell : Cell, (∀ c id t, cell ≠ .object c id t) → Respects R (alloc cell))
include allocs

theorem respects_unary (op : UnaryOp) (v : Value) : Respects R (unary op v) := by
  cases op with
  | neg =>
    refine (respects_cellOf v).bind ?_
    intro c
    split
    · exact allocs _ (by simp)
    · exact allocs _ (by simp)
    · exact (respects_typeName v).bind fun _ => respects_fault _
  | not => exact (respects_asBool v).bind fun _ => allocs _ (by simp)

omit [IsTrans Machine R] in
theorem respects_intArith (op : BinaryOp) (a b : Int64) : Respects R (intArith op a b) := by
  unfold intArith
  split
  · exact allocs _ (by simp)
  · exact allocs _ (by simp)
  · exact allocs _ (by simp)
  · exact Respects.ite (respects_fault _) (allocs _ (by simp))

omit [Std.Refl R] [IsTrans Machine R] in
theorem respects_realArith (op : BinaryOp) (a b : Real) : Respects R (realArith op a b) := by
  unfold realArith
  split <;> exact allocs _ (by simp)

theorem respects_binary (consults : ∀ c, Respects R (consult c)) (op : BinaryOp) (l r : Value) :
    Respects R (binary op l r) := by
  have real : Respects R (asReal l) ∧ Respects R (asReal r) :=
    ⟨respects_asReal l, respects_asReal r⟩
  unfold binary
  split
  · exact respects_get.bind fun _ => allocs _ (by simp)
  · exact respects_get.bind fun _ => allocs _ (by simp)
  · refine (respects_cellOf l).bind ?_
    intro lc
    refine (respects_cellOf r).bind ?_
    intro rc
    refine Respects.ite ((respects_text consults l).bind fun _ =>
      (respects_text consults r).bind fun _ => allocs _ (by simp))
      (Respects.ite ((respects_typeName l).bind fun _ => respects_fault _)
      (Respects.ite ((respects_typeName r).bind fun _ => respects_fault _) ?_))
    split
    · exact real.1.bind fun _ => real.2.bind fun _ => allocs _ (by simp)
    · exact real.1.bind fun _ => real.2.bind fun _ => allocs _ (by simp)
    · exact real.2.bind fun _ => real.1.bind fun _ => allocs _ (by simp)
    · exact real.2.bind fun _ => real.1.bind fun _ => allocs _ (by simp)
    · split
      · exact respects_intArith allocs _ _ _
      · exact real.1.bind fun _ => real.2.bind fun _ => respects_realArith allocs _ _ _

omit [IsTrans Machine R] in
theorem respects_literal (l : Literal) : Respects R (literal l) := by
  cases l with
  | null => exact respects_pure _
  | bool b => exact allocs _ (by simp)
  | int v => exact allocs _ (by simp)
  | real v => exact allocs _ (by simp)
  | string s => exact allocs _ (by simp)

end Scalars

theorem extending_unary (op : UnaryOp) (v : Value) : Extending (unary op v) :=
  respects_unary (fun c _ => extending_alloc c) op v

theorem extending_binary (op : BinaryOp) (l r : Value) : Extending (binary op l r) :=
  respects_binary (fun c _ => extending_alloc c) extending_consult op l r

theorem extending_fieldValue (a : Nat) (name : String) (v : Value) :
    Extending (fieldValue a name v) := by
  refine respects_get.bind ?_
  intro m
  refine (respects_fieldType extending_consult _ _).bind ?_
  intro ft
  split
  · exact respects_fault _
  · refine (respects_checkAssignable _ v).bind ?_
    intro _
    refine respects_get.bind ?_
    intro m'
    dsimp only
    split
    · exact Respects.ite (respects_pure _) (respects_fault _)
    · exact Respects.ite (extending_newDefault _) (respects_fault _)
    · exact (extending_newDefault _).bind fun box =>
        (extending_setValue box _).bind fun _ => respects_pure _

theorem extending_callBuiltin (b : Builtin) (args : List Value) :
    Extending (callBuiltin b args) := by
  unfold callBuiltin
  split
  · exact (extending_text _).bind fun _ => (extending_emit _).bind fun _ => respects_pure _
  · exact (extending_text _).bind fun _ => extending_alloc _
  · exact extending_clone _
  · exact respects_get.bind fun _ => extending_alloc _
  · exact (extending_text _).bind fun _ =>
      (extending_parseInto _ _).bind fun _ => respects_pure _
  · exact respects_pure _

theorem extending_literal (l : Literal) : Extending (literal l) :=
  respects_literal (fun c _ => extending_alloc c) l

/-! ### Whole runs -/

mutual

theorem extending_eval (scope : Scope) : ∀ e : Expr, Extending (eval scope e)
  | .literal l => by
    simp only [eval]
    exact extending_literal l
  | .grouping e => by
    simp only [eval]
    exact extending_eval scope e
  | .var name => by
    simp only [eval]
    split
    · exact respects_pure _
    · exact (respects_fault _).atLine _
  | .assign name rhs => by
    simp only [eval]
    refine (extending_eval scope rhs).bind ?_
    intro v
    split
    · exact (respects_fault _).atLine _
    · exact respects_get.bind fun _ => ((respects_checkAssignable _ _).atLine _).bind fun _ =>
        (((extending_setValue _ _).within _).atLine _).bind fun _ => respects_pure _
  | .unary op line e => by
    simp only [eval]
    exact (extending_eval scope e).bind fun v => (extending_unary op v).atLine line
  | .binary op line l r => by
    simp only [eval]
    exact (extending_eval scope l).bind fun lv => (extending_eval scope r).bind fun rv =>
      (extending_binary op lv rv).atLine line
  | .logical op line l r => by
    simp only [eval]
    refine (extending_eval scope l).bind ?_
    intro lv
    refine ((respects_asBool lv).atLine line).bind ?_
    intro truthy
    cases op with
    | or => exact Respects.ite (respects_pure _) (extending_eval scope r)
    | and => exact Respects.ite (extending_eval scope r) (respects_pure _)
  | .call callee line args => by
    simp only [eval]
    refine (extending_eval scope callee).bind ?_
    intro f
    refine (extending_evalAll scope args).bind ?_
    intro vs
    split
    · exact Respects.ite ((respects_fault _).atLine _)
        (((extending_callBuiltin _ _).within _).atLine _)
    · exact (respects_typeName _).bind fun _ => (respects_fault _).atLine _
  | .new cls => by
    simp only [eval]
    refine respects_get.bind ?_
    intro m
    refine ((respects_ofExcept _).atLine _).bind ?_
    intro c
    refine (extending_newObject c).bind ?_
    intro obj
    split
    · exact (extending_initializeFields _).bind fun _ => respects_pure _
    · exact respects_pure _
  | .get obj field => by
    simp only [eval]
    exact (extending_eval scope obj).bind fun v => (respects_instanceBox v field).bind fun a =>
      (extending_getField a field.text).atLine _
  | .set obj field rhs => by
    simp only [eval]
    exact (extending_eval scope obj).bind fun o => (respects_instanceBox o field).bind fun a =>
      (extending_eval scope rhs).bind fun v => ((extending_fieldValue a field.text v).atLine _).bind
        fun stored => ((extending_setField a field.text stored).atLine _).bind fun _ =>
          respects_pure _

theorem extending_evalAll (scope : Scope) : ∀ es : List Expr, Extending (evalAll scope es)
  | [] => by
    simp only [evalAll]
    exact respects_pure _
  | e :: es => by
    simp only [evalAll]
    exact (extending_eval scope e).bind fun _ => (extending_evalAll scope es).bind fun _ =>
      respects_pure _

end

/-! ### Statements

Statements only sequence, branch and loop over evaluations and declarations, so a relation
respected by each of these is respected by every run of statements. -/

section Statements

variable [Std.Refl R] [IsTrans Machine R]

theorem respects_condition (evals : ∀ scope e, Respects R (eval scope e)) (keyword : String)
    (scope : Scope) (c : Expr) : Respects R (condition keyword scope c) :=
  (evals scope c).bind fun v => (respects_asBool v).within _

/-- A variable declaration respects what evaluation, making a default and storing a value
respect. -/
theorem respects_declareVar (evals : ∀ scope e, Respects R (eval scope e))
    (defaults : ∀ t, Respects R (newDefault t)) (stores : ∀ box v, Respects R (setValue box v))
    (scope : Scope) (type name : Name) (init : Option Expr) :
    Respects R (declareVar scope type name init) := by
  refine (respects_get.bind fun _ => (respects_ofExcept _).atLine _).bind fun t => ?_
  refine (defaults t).bind fun box => ?_
  dsimp only
  split
  · exact (evals scope _).bind fun v => ((((respects_checkAssignable t v).bind
      fun _ => stores box v).within _).atLine _).bind fun _ => respects_pure _
  · exact respects_pure _

/-- A relation respected by what statements are made of. -/
structure Respects.Parts (R : Machine → Machine → Prop) : Prop where
  evals : ∀ scope e, Respects R (eval scope e)
  declaresVar : ∀ scope type name init, Respects R (declareVar scope type name init)
  declaresClass : ∀ name parent fields, Respects R (declareClass name parent fields)

mutual

/-- A relation respected by what statements are made of is respected by every statement:
by recursion on the budget, a loop's next pass having one step less. -/
theorem respects_exec (parts : Respects.Parts R) :
    ∀ (n : Nat) (stmt : Stmt) (scope : Scope), Respects R (exec n stmt scope)
  | 0, _, _ => by
    simp only [exec]
    exact respects_fault _
  | n + 1, stmt, scope => by
    cases stmt with
    | expr e =>
      simp only [exec]
      exact (parts.evals scope e).bind fun _ => respects_pure _
    | block body =>
      simp only [exec]
      exact (respects_execAll parts n body _).bind fun _ => respects_pure _
    | ifElse c t e =>
      simp only [exec]
      exact (respects_condition parts.evals _ scope c).bind fun _ =>
        Respects.ite (respects_exec parts n t scope) (respects_exec parts n e scope)
    | whileLoop c body =>
      simp only [exec]
      exact (respects_condition parts.evals _ scope c).bind fun _ =>
        Respects.ite ((respects_exec parts n body scope).bind fun scope' =>
          respects_exec parts n (.whileLoop c body) scope') (respects_pure _)
    | var type name init =>
      simp only [exec]
      exact parts.declaresVar scope type name init
    | classDecl name parent fields =>
      simp only [exec]
      exact (parts.declaresClass name parent fields).bind fun _ => respects_pure _

theorem respects_execAll (parts : Respects.Parts R) :
    ∀ (n : Nat) (stmts : List Stmt) (scope : Scope), Respects R (execAll n stmts scope)
  | _, [], scope => by
    simp only [execAll]
    exact respects_pure _
  | 0, _ :: _, _ => by
    simp only [execAll]
    exact respects_fault _
  | n + 1, s :: rest, scope => by
    simp only [execAll]
    exact (respects_exec parts n s scope).bind fun scope' => respects_execAll parts n rest scope'

end

end Statements

theorem extending_declareClass (name : Name) (parent : Option Name) (fields : List FieldDecl) :
    Extending (declareClass name parent fields) := by
  unfold declareClass
  split
  on_goal 1 => refine respects_get.bind fun _ =>
    Respects.bind (((respects_ofExcept _).atLine _).map _) fun super => ?_
  on_goal 2 => refine (respects_pure _).bind fun super => ?_
  -- the class is made, filled and declared the same way with a parent or without
  all_goals
    dsimp only
    refine Respects.bind ?_ ?_
    · intro m
      refine ⟨fun _ c h => ⟨c, h, rfl⟩, le_rfl, fun _ _ => rfl, fun d k hd _ => ?_⟩
      simpa [final] using Registry.get?_newClass name.text super hd
    · intro c
      refine Respects.bind ?_ ?_
      · apply respects_forIn
        intro f _
        apply Respects.ite
        · exact (respects_pure _).bind fun ft => ((extending_updateRegistry _
            fun r r' h _ _ hd declared => Registry.get?_addField h hd declared).atLine _).bind
              fun _ => respects_pure _
        · exact respects_get.bind fun _ => ((respects_ofExcept _).atLine _).bind fun ft =>
            ((extending_updateRegistry _ fun r r' h _ _ hd declared =>
              Registry.get?_addField h hd declared).atLine _).bind fun _ => respects_pure _
      · intro _
        exact ((extending_updateRegistry _ fun r r' h _ _ hd declared =>
          Registry.get?_declare h hd declared).atLine _).bind fun _ => extending_consult c

theorem extending_exec (n : Nat) (stmt : Stmt) (scope : Scope) : Extending (exec n stmt scope) :=
  respects_exec ⟨extending_eval,
    respects_declareVar extending_eval extending_newDefault extending_setValue,
    extending_declareClass⟩ n stmt scope

/-! ### Store operations as whole runs -/

@[simp] theorem final_setCell (a : Nat) (c : Cell) (m : Machine) :
    (setCell a c).final m = { m with heap := { m.heap with cells := m.heap.cells.set! a c } } :=
  rfl

@[simp] theorem final_setTable (i : Nat) (t : Table) (m : Machine) :
    (setTable i t).final m = { m with heap := { m.heap with tables := m.heap.tables.set! i t } } :=
  rfl

@[simp] theorem final_alloc (c : Cell) (m : Machine) :
    (alloc c).final m = { m with heap := { m.heap with cells := m.heap.cells.push c } } := rfl

@[simp] theorem final_newTable (t : Table) (m : Machine) :
    (newTable t).final m = { m with heap := { m.heap with tables := m.heap.tables.push t } } := rfl

end Act

end ClassScript
