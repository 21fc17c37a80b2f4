import Mathlib
import ClassScript.Proofs.Frame

/-! Well-typed machines. Every field table was made for some class `C`, by initialising an
instance of `C` or by copying such a table; its values fit the type of their name in some
ancestor of `C`, though not always in `C` itself, since a class may give an inherited field
a type of its own. -/
namespace ClassScript

/-- The type a cell gives the box holding it. -/
def Cell.ty : Cell → Ty
  | .int _ => .int
  | .real _ => .real
  | .bool _ => .bool
  | .string _ => .string
  | .object c _ _ => .cls c

theorem Cell.ty_of_shape {c c' : Cell} (h : c'.shape = c.shape) : c'.ty = c.ty := by
  cases c <;> cases c' <;> simp_all [Cell.shape, Cell.ty]

namespace Machine

theorem tyOf_ref {m : Machine} {a : Nat} {c : Cell} (h : m.cell? a = some c) :
    m.tyOf (.ref a) = c.ty := by
  cases c <;> simp [tyOf, h, Cell.ty]

/-- A value fits a type when it is a box of that scalar type, or an instance box of a
class descending from that class. -/
def Fits (m : Machine) (v : Value) (t : Ty) : Prop := m.registry.conforms (m.tyOf v) t = true

/-- The entries form a table for class `C`: they hold the field names of `C`, each value
fitting the type some ancestor of `C` gives its name. -/
structure TableFor (m : Machine) (C : Nat) (entries : Table) : Prop where
  declared : m.registry.IsDeclared C
  keys : entries.map Prod.fst = (m.registry.fieldTypes C).map Prod.fst
  values : ∀ e ∈ entries, ∃ E T, m.registry.isSubclassOf C E = true ∧
    m.registry.fieldType? E e.1 = some T ∧ m.Fits e.2 T

/-- Table `t` was made for class `C`, and every instance box using it is of an ancestor
of `C`. -/
structure TableOf (m : Machine) (t C : Nat) : Prop where
  holds : m.TableFor C (m.table t)
  users : ∀ a c id, m.cell? a = some (.object c id (some t)) → m.registry.isSubclassOf C c = true

/-- A well-typed machine: its registry is well-formed, every instance box is of a declared
class and uses an existing table or none, and every table was made for some class. -/
structure WellTyped (m : Machine) : Prop where
  registry : m.registry.Sound
  classes : ∀ a c id t, m.cell? a = some (.object c id t) → m.registry.IsDeclared c
  tables : ∀ a c id t, m.cell? a = some (.object c id (some t)) → t < m.heap.tables.size
  owners : ∀ t < m.heap.tables.size, ∃ C, m.TableOf t C

section Fitting

variable {m m' : Machine} {v : Value} {t : Ty}

theorem Fits.cell (fits : m.Fits v t) : ∃ a c, v = .ref a ∧ m.cell? a = some c := by
  cases v with
  | null => simp [Fits, tyOf, Registry.conforms] at fits
  | builtin f => simp [Fits, tyOf, Registry.conforms] at fits
  | ref a =>
    cases hc : m.cell? a with
    | none => simp [Fits, tyOf, hc, Registry.conforms] at fits
    | some c => exact ⟨a, c, rfl, hc⟩

theorem Extends.tyOf_ref (ext : m.Extends m') {a : Nat} (ha : a < m.heap.cells.size) :
    m'.tyOf (.ref a) = m.tyOf (.ref a) := by
  obtain ⟨c, hc⟩ : ∃ c, m.cell? a = some c := ⟨_, Array.getElem?_eq_getElem ha⟩
  obtain ⟨c', hc', same⟩ := ext.cells a c hc
  rw [Machine.tyOf_ref hc, Machine.tyOf_ref hc', Cell.ty_of_shape same]

theorem Extends.tyOf_of_fits (ext : m.Extends m') (fits : m.Fits v t) :
    ∃ a, v = .ref a ∧ m'.tyOf v = m.tyOf v := by
  obtain ⟨a, c, rfl, hc⟩ := fits.cell
  exact ⟨a, rfl, ext.tyOf_ref (Array.getElem?_eq_some_iff.mp hc).1⟩

theorem WellTyped.tyOk_tyOf (wt : m.WellTyped) (fits : m.Fits v t) :
    m.registry.TyOk (m.tyOf v) := by
  obtain ⟨a, c, rfl, hc⟩ := fits.cell
  rw [tyOf_ref hc]
  cases c with
  | object d id t => exact wt.classes a d id t hc
  | _ => trivial

theorem WellTyped.fits_of_extends (wt : m.WellTyped) (ext : m.Extends m')
    (fits : m.Fits v t) : m'.Fits v t := by
  obtain ⟨a, rfl, same⟩ := ext.tyOf_of_fits fits
  unfold Fits at *
  rw [same, ext.classes.conforms wt.registry (wt.tyOk_tyOf fits)]
  exact fits

end Fitting

section Tables

variable {m m' : Machine} {C : Nat} {entries : Table}

theorem TableFor.mono (wt : m.WellTyped) (h : m.TableFor C entries) (ext : m.Extends m') :
    m'.TableFor C entries where
  declared := ext.classes.isDeclared h.declared
  keys := by
    rw [ext.classes.fieldTypes wt.registry h.declared]
    exact h.keys
  values e he := by
    obtain ⟨E, T, sub, hT, fits⟩ := h.values e he
    have hE : m.registry.IsDeclared E := wt.registry.isDeclared_of_isSubclassOf h.declared sub
    refine ⟨E, T, ?_, ?_, wt.fits_of_extends ext fits⟩
    · rw [ext.classes.isSubclassOf wt.registry h.declared]
      exact sub
    · rw [ext.classes.fieldType? wt.registry hE]
      exact hT

/-- Storing a value under a name, checked against the type an ancestor of `C` gives the
name, keeps a table for `C`. -/
theorem TableFor.replace (h : m.TableFor C entries) {D : Nat} {name : String} {T : Ty}
    {v : Value} (sub : m.registry.isSubclassOf C D = true)
    (hT : m.registry.fieldType? D name = some T) (fits : m.Fits v T) :
    m.TableFor C (entries.map fun e => if e.1 == name then (name, v) else e) where
  declared := h.declared
  keys := by rw [Act.map_fst_replace]; exact h.keys
  values e he := by
    obtain ⟨e₀, he₀, rfl⟩ := List.mem_map.mp he
    by_cases hn : e₀.1 = name
    · simp only [hn, beq_self_eq_true, if_true]
      exact ⟨D, T, sub, hT, fits⟩
    · simpa [hn] using h.values e₀ he₀

theorem TableOf.mono {t : Nat} (wt : m.WellTyped) (ht : m.TableOf t C) (ext : m.Extends m')
    (same : m'.table t = m.table t)
    (users : ∀ a c id, m'.cell? a = some (.object c id (some t)) →
      m.cell? a = some (.object c id (some t)) ∨ m'.registry.isSubclassOf C c = true) :
    m'.TableOf t C where
  holds := same ▸ ht.holds.mono wt ext
  users a c id hc := by
    rcases users a c id hc with old | sub
    · rw [ext.classes.isSubclassOf wt.registry ht.holds.declared]
      exact ht.users a c id old
    · exact sub

/-- A step that only adds boxes and tables, each well typed, and changes the registry
keeping it well-formed and its declared classes, keeps the machine well typed. -/
theorem WellTyped.grow (wt : m.WellTyped) (ext : m.Extends m') (sound : m'.registry.Sound)
    (oldCells : ∀ a, a < m.heap.cells.size → m'.cell? a = m.cell? a)
    (newCells : ∀ a c id t, m.heap.cells.size ≤ a → m'.cell? a = some (.object c id t) →
      t = none ∧ m'.registry.IsDeclared c)
    (oldTables : ∀ t, t < m.heap.tables.size → m'.table t = m.table t)
    (newTables : ∀ t, m.heap.tables.size ≤ t → t < m'.heap.tables.size → ∃ C, m'.TableOf t C) :
    m'.WellTyped where
  registry := sound
  classes a c id t h := by
    by_cases old : a < m.heap.cells.size
    · rw [oldCells a old] at h
      exact ext.classes.isDeclared (wt.classes a c id t h)
    · exact (newCells a c id t (Nat.le_of_not_lt old) h).2
  tables a c id t h := by
    by_cases old : a < m.heap.cells.size
    · rw [oldCells a old] at h
      exact lt_of_lt_of_le (wt.tables a c id t h) ext.tables
    · cases (newCells a c id _ (Nat.le_of_not_lt old) h).1
  owners t ht := by
    by_cases old : t < m.heap.tables.size
    · obtain ⟨C, owner⟩ := wt.owners t old
      refine ⟨C, owner.mono wt ext (oldTables t old) fun a c id hc => .inl ?_⟩
      by_cases oldBox : a < m.heap.cells.size
      · rwa [oldCells a oldBox] at hc
      · cases (newCells a c id _ (Nat.le_of_not_lt oldBox) hc).1
    · exact newTables t (Nat.le_of_not_lt old) ht

theorem TableFor.names (h : m.TableFor C entries) {D : Nat} (sub : m.registry.isSubclassOf C D = true)
    {n : String} (hn : n ∈ (m.registry.fieldTypes D).map Prod.fst) : n ∈ entries.map Prod.fst := by
  have hasD : m.registry.hasField D n = true := by
    rwa [Registry.hasField, Registry.fieldType?, lookup_isSome_iff_mem_keys]
  have hasC := Registry.hasField_of_isSubclassOf sub hasD
  rw [Registry.hasField, Registry.fieldType?, lookup_isSome_iff_mem_keys] at hasC
  rwa [h.keys]

/-- In a table for a descendant of `D`, the value under a field name of `D` fits the type
`D` gives it, when every ancestor and descendant of `D` having the field gives it that
type. -/
theorem TableFor.fits_of_uniform (h : m.TableFor C entries) {D : Nat}
    (sub : m.registry.isSubclassOf C D = true) {n : String} {T : Ty} {v : Value}
    (hv : entries.lookup n = some v)
    (uniform : ∀ E T', (m.registry.isSubclassOf E D = true ∨ m.registry.isSubclassOf D E = true) →
      m.registry.fieldType? E n = some T' → T' = T) :
    m.Fits v T := by
  obtain ⟨E, T', subE, hT', fits⟩ := h.values (n, v) (mem_of_lookup_eq_some hv)
  -- `D` and `E` are both ancestors of the table's class, so one descends from the other
  have related := (Registry.isSubclassOf_total sub subE).symm
  rwa [← uniform E T' related hT']

end Tables

/-- A box of type `t` may take `v`: an instance stored into an instance box is of a class
descending from the box's class. -/
def Admits (m : Machine) (t : Ty) (v : Value) : Prop :=
  ∀ want, t = .cls want → ∀ o, m.object? v = some o → m.registry.isSubclassOf o.2.1 want = true

section Steps

variable {m : Machine}

/-- Overwriting a box with a cell of its shape keeps the machine well typed, when the
table the new cell uses, if any, was made for a descendant of its class. -/
theorem WellTyped.setCell (wt : m.WellTyped) {a : Nat} {old new : Cell}
    (hold : m.cell? a = some old) (same : new.shape = old.shape)
    (table : ∀ c id t, new = .object c id (some t) →
      t < m.heap.tables.size ∧ ∃ C, m.TableOf t C ∧ m.registry.isSubclassOf C c = true) :
    ((Act.setCell a new).final m).WellTyped := by
  have ha : a < m.heap.cells.size := (Array.getElem?_eq_some_iff.mp hold).1
  have ext : m.Extends ((Act.setCell a new).final m) :=
    Act.extends_setCell m a new fun c' h => by
      rw [hold] at h
      cases h
      exact same.symm
  -- the overwritten box is the only one that changes
  have cell' : ∀ b, ((Act.setCell a new).final m).cell? b =
      if b = a then some new else m.cell? b := by
    intro b
    by_cases hb : b = a
    · subst hb
      simp [Machine.cell?, ha]
    · simp [Machine.cell?, hb, Ne.symm hb]
  refine ⟨wt.registry, fun b c id t h => ?_, fun b c id t h => ?_, fun t ht => ?_⟩
  · rw [cell'] at h
    split at h
    · cases h
      have shape : old.shape = .object c id none := same.symm
      obtain ⟨t', rfl⟩ := Cell.eq_object_of_shape shape
      exact wt.classes a c id t' hold
    · exact wt.classes b c id t h
  · rw [cell'] at h
    split at h
    · exact (table c id t (Option.some_injective _ h)).1
    · exact wt.tables b c id t h
  · by_cases hnew : ∃ c id, new = .object c id (some t)
    · obtain ⟨c, id, rfl⟩ := hnew
      obtain ⟨-, C, owner, sub⟩ := table c id t rfl
      refine ⟨C, owner.mono wt ext rfl fun b c' id' hc => ?_⟩
      rw [cell'] at hc
      split at hc
      · cases hc
        exact .inr sub
      · exact .inl hc
    · obtain ⟨C, owner⟩ := wt.owners t ht
      refine ⟨C, owner.mono wt ext rfl fun b c' id' hc => ?_⟩
      rw [cell'] at hc
      split at hc
      · exact absurd ⟨c', id', (Option.some_injective _ hc)⟩ hnew
      · exact .inl hc

/-- Replacing the contents of a table made for `C` by other contents for `C` keeps the
machine well typed. -/
theorem WellTyped.setTable (wt : m.WellTyped) {t C : Nat} {entries : Table}
    (ht : t < m.heap.tables.size) (owner : m.TableOf t C) (holds : m.TableFor C entries) :
    ((Act.setTable t entries).final m).WellTyped := by
  have ext : m.Extends ((Act.setTable t entries).final m) :=
    Act.extends_setTable m t entries (holds.keys.trans owner.holds.keys.symm)
  have table' : ∀ t', ((Act.setTable t entries).final m).table t' =
      if t' = t then entries else m.table t' := by
    intro t'
    by_cases h : t' = t
    · subst h
      simp [Machine.table, ht]
    · simp [Machine.table, h, Ne.symm h]
  refine ⟨wt.registry, wt.classes, fun b c id t' h => by simpa using wt.tables b c id t' h,
    fun t' ht' => ?_⟩
  by_cases h : t' = t
  · subst h
    refine ⟨C, ⟨?_, owner.users⟩⟩
    rw [table', if_pos rfl]
    exact holds.mono wt ext
  · obtain ⟨C', owner'⟩ := wt.owners t' (by simpa using ht')
    refine ⟨C', owner'.mono wt ext ?_ fun b c id hc => .inl hc⟩
    rw [table', if_neg h]

theorem WellTyped.of_store {m' : Machine} (wt : m.WellTyped) (ext : m.Extends m')
    (sound : m'.registry.Sound) (cells : m'.heap.cells = m.heap.cells)
    (tables : m'.heap.tables = m.heap.tables) : m'.WellTyped := by
  have none_beyond : ∀ a, m.heap.cells.size ≤ a → m'.cell? a = none := fun a ha => by
    simp [Machine.cell?, cells, ha]
  refine wt.grow ext sound (fun a _ => by simp [Machine.cell?, cells]) ?_
    (fun t _ => by simp [Machine.table, tables]) ?_
  · intro a c id t ha h
    rw [none_beyond a ha] at h
    cases h
  · intro t ht ht'
    rw [tables] at ht'
    exact absurd ht' (Nat.not_lt_of_le ht)

def KeepsTyping (m m' : Machine) : Prop := m.WellTyped → m'.WellTyped

instance : Std.Refl KeepsTyping := ⟨fun _ h => h⟩

instance : IsTrans Machine KeepsTyping := ⟨fun _ _ _ h₁ h₂ wt => h₂ (h₁ wt)⟩

theorem WellTyped.setCell_of_extends {m₀ m : Machine} (wt : m.WellTyped) {a : Nat}
    {old new : Cell} (hold : m₀.cell? a = some old) (ext : m₀.Extends m)
    (same : new.shape = old.shape)
    (table : ∀ c id t, new = .object c id (some t) →
      t < m.heap.tables.size ∧ ∃ C, m.TableOf t C ∧ m.registry.isSubclassOf C c = true) :
    ((Act.setCell a new).final m).WellTyped := by
  obtain ⟨c', hc', shape⟩ := ext.cells a old hold
  exact wt.setCell hc' (same.trans shape.symm) table

end Steps

end Machine

namespace Act

variable {α β : Type} {m m' : Machine}

theorem wellTyped_bind {x : Act α} {f : α → Act β} {m : Machine} (hx : (x.final m).WellTyped)
    (hf : ∀ a m', x.run m = .ok a m' → m'.WellTyped → ((f a).final m').WellTyped) :
    ((x >>= f).final m).WellTyped := by
  rw [final_bind]
  cases hr : x.run m with
  | ok a m' =>
    rw [final_of_ok hr] at hx
    exact hf a m' hr hx
  | error e m' => simpa [final, hr] using hx

/-- Every run of `x` from a well-typed machine ends in a well-typed machine, also when it
stops with a fault. -/
abbrev Typed (x : Act α) : Prop := Respects Machine.KeepsTyping x

theorem typed_consult (c : Nat) : Typed (consult c) := fun m wt =>
  wt.of_store (extending_consult c m)
    (wt.registry.congr (Registry.consult_classes _ _) (Registry.consult_named _ _)) rfl rfl

theorem typed_emit (s : String) : Typed (emit s) := fun m wt =>
  wt.of_store (extending_emit s m) wt.registry rfl rfl

theorem typed_freshId : Typed freshId := fun m wt =>
  wt.of_store (extending_freshId m) wt.registry rfl rfl

theorem final_updateRegistry (f : Registry → Except Fault.Cause Registry) (m : Machine) :
    (updateRegistry f).final m = match f m.registry with
      | .ok r => { m with registry := r }
      | .error _ => m := by
  unfold updateRegistry final
  simp only [EStateM.run_bind, EStateM.run_get]
  cases f m.registry <;> rfl

/-- A registry update that keeps the registry well-formed and its declared classes keeps
the machine well typed. -/
theorem wellTyped_updateRegistry {f : Registry → Except Fault.Cause Registry}
    (wt : m.WellTyped) (h : ∀ r', f m.registry = .ok r' → m.registry.Keeps r' ∧ r'.Sound) :
    ((updateRegistry f).final m).WellTyped := by
  rw [final_updateRegistry]
  cases hf : f m.registry with
  | error e => exact wt
  | ok r' =>
    obtain ⟨keeps, sound⟩ := h r' hf
    exact wt.of_store ⟨fun _ c h => ⟨c, h, rfl⟩, le_rfl, fun _ _ => rfl, keeps⟩ sound rfl rfl

theorem wellTyped_alloc {cell : Cell} (wt : m.WellTyped)
    (ok : ∀ c id t, cell = .object c id t → t = none ∧ m.registry.IsDeclared c) :
    ((alloc cell).final m).WellTyped := by
  refine wt.grow (extending_alloc cell m) wt.registry ?_ ?_ (fun _ _ => rfl) ?_
  · intro a ha
    simp [Machine.cell?, Array.getElem?_push, ha.ne]
  · intro a c id t ha h
    simp only [final_alloc, Machine.cell?, Array.getElem?_push] at h
    split at h
    · exact ok c id t (Option.some_injective _ h)
    · simp [Array.getElem?_eq_none ha] at h
  · intro t ht ht'
    exact absurd ht' (Nat.not_lt_of_le ht)

theorem typed_alloc (cell : Cell) (scalar : ∀ c id t, cell ≠ .object c id t) :
    Typed (alloc cell) :=
  fun _ wt => wellTyped_alloc wt fun c id t h => absurd h (scalar c id t)

theorem tableOf_newTable {C : Nat} {entries : Table} (wt : m.WellTyped)
    (holds : m.TableFor C entries) : ((newTable entries).final m).TableOf m.heap.tables.size C := by
  refine ⟨by simpa [Machine.table] using holds.mono wt (extending_newTable entries m), ?_⟩
  intro a c id hc
  exact absurd (wt.tables a c id _ hc) (lt_irrefl _)

theorem wellTyped_newTable {C : Nat} {entries : Table} (wt : m.WellTyped)
    (holds : m.TableFor C entries) : ((newTable entries).final m).WellTyped := by
  refine wt.grow (extending_newTable entries m) wt.registry (fun _ _ => rfl) ?_ ?_ ?_
  · intro a c id t ha h
    simp [Machine.cell?, Array.getElem?_eq_none ha] at h
  · intro t ht
    simp [Machine.table, Array.getElem?_push, ht.ne]
  · intro t ht ht'
    have : t = m.heap.tables.size := by simp at ht'; omega
    subst this
    exact ⟨C, tableOf_newTable wt holds⟩

theorem wellTyped_newObject {c : Nat} (wt : m.WellTyped) (h : m.registry.IsDeclared c) :
    ((newObject c).final m).WellTyped := by
  refine wellTyped_bind (typed_freshId m wt) fun id m' run wt' => wellTyped_alloc wt' ?_
  have ext : m.Extends m' := final_of_ok run ▸ extending_freshId m
  rintro c id' t ⟨⟩
  exact ⟨rfl, ext.classes.isDeclared h⟩

theorem wellTyped_newDefault {t : Ty} (wt : m.WellTyped) (h : m.registry.TyOk t) :
    ((newDefault t).final m).WellTyped := by
  cases t with
  | cls c => exact wellTyped_newObject wt h
  | null => exact wt
  | function => exact wt
  | int => exact typed_alloc _ (by simp) m wt
  | real => exact typed_alloc _ (by simp) m wt
  | bool => exact typed_alloc _ (by simp) m wt
  | string => exact typed_alloc _ (by simp) m wt

theorem newDefault_tyOf {t : Ty} {v : Value} (h : m.registry.TyOk t)
    (run : (newDefault t).run m = .ok v m') : v = .ref m.heap.cells.size ∧ m'.tyOf v = t := by
  cases t <;> simp [newDefault, newObject, alloc, freshId, Registry.TyOk] at run h <;>
    obtain ⟨rfl, rfl⟩ := run <;> simp [Machine.tyOf, Machine.cell?]

theorem newDefault_fits {t : Ty} {v : Value} (h : m.registry.TyOk t)
    (run : (newDefault t).run m = .ok v m') : m'.Fits v t := by
  have ext : m.Extends m' := final_of_ok run ▸ extending_newDefault t m
  unfold Machine.Fits
  rw [(newDefault_tyOf h run).2]
  exact Registry.conforms_self (ext.classes.tyOk h)

theorem checkAssignable_ok {t : Ty} {v : Value} {u : Unit}
    (h : (checkAssignable t v).run m = .ok u m') : m' = m ∧ m.Admits t v := by
  obtain rfl := (respects_checkAssignable (R := (· = ·)) t v).state_of_ok h
  refine ⟨rfl, fun want ht o ho => ?_⟩
  subst ht
  obtain ⟨b, got, id, t'⟩ := o
  simp only [checkAssignable] at h
  obtain ⟨m₀, m₁, hget, h₁⟩ := run_bind_ok h
  obtain ⟨rfl, rfl⟩ := run_get_ok hget
  rw [ho] at h₁
  dsimp only at h₁
  split at h₁
  · assumption
  · exact absurd h₁ (run_fault_ne_ok _ _ _ _)

/-- Storing into a box keeps the machine well typed when the box may take the value: a
scalar box is overwritten by a scalar of its kind, and an instance box takes the table
of an instance of a descendant of its class, made for a descendant of that. -/
theorem wellTyped_setValue {target v : Value} (wt : m.WellTyped)
    (adm : m.Admits (m.tyOf target) v) : ((setValue target v).final m).WellTyped := by
  cases target with
  | null => exact wt
  | builtin f => exact wt
  | ref a =>
    refine wellTyped_bind wt fun m₀ m₁ hget _ => ?_
    obtain ⟨rfl, rfl⟩ := run_get_ok hget
    split
    · rename_i n hold
      exact wellTyped_bind (respects_asInt (R := Machine.KeepsTyping) v m wt) fun _ _ run wt' =>
        wt'.setCell_of_extends hold ((respects_asInt v).of_ok run) rfl (by simp)
    · rename_i r hold
      exact wellTyped_bind (respects_asReal (R := Machine.KeepsTyping) v m wt) fun _ _ run wt' =>
        wt'.setCell_of_extends hold ((respects_asReal v).of_ok run) rfl (by simp)
    · rename_i b hold
      exact wellTyped_bind (respects_asBool (R := Machine.KeepsTyping) v m wt) fun _ _ run wt' =>
        wt'.setCell_of_extends hold ((respects_asBool v).of_ok run) rfl (by simp)
    · rename_i s hold
      exact wellTyped_bind (respects_text typed_consult v m wt) fun _ _ run wt' =>
        wt'.setCell_of_extends hold ((extending_text v).of_ok run) rfl (by simp)
    · rename_i c id t hold
      refine wellTyped_bind wt fun m₂ m₃ hget _ => ?_
      obtain ⟨rfl, rfl⟩ := run_get_ok hget
      split
      · rename_i b got id' t' found
        refine wt.setCell hold rfl fun c₁ id₁ ti h => ?_
        cases h
        obtain ⟨-, hb⟩ := object?_eq_some found
        obtain ⟨C, owner⟩ := wt.owners ti (wt.tables b got id' _ hb)
        -- the stored instance's class descends from the box's, and its table's class from that
        have up : m.registry.isSubclassOf got c = true :=
          adm c (by rw [Machine.tyOf_ref hold]; rfl) _ found
        exact ⟨wt.tables b got id' _ hb, C, owner,
          Registry.isSubclassOf_trans (owner.users b got id' hb) up⟩
      · exact wt.setCell hold rfl (by simp)
      · exact ((respects_typeName (R := Machine.KeepsTyping) _).bind fun _ =>
          respects_get.bind fun _ => respects_fault _) m wt
    · exact wt

theorem typed_parseInto (target : Value) (s : String) : Typed (parseInto target s) := by
  intro m wt
  cases target with
  | null => exact wt
  | builtin f => exact wt
  | ref a =>
    refine wellTyped_bind wt fun m₀ m₁ hget _ => ?_
    obtain ⟨rfl, rfl⟩ := run_get_ok hget
    split
    · rename_i n hold
      split
      · exact wt.setCell hold rfl (by simp)
      · exact wt
    · rename_i r hold
      split
      · exact wt.setCell hold rfl (by simp)
      · exact wt
    · rename_i b hold
      split
      · exact wt.setCell hold rfl (by simp)
      · exact wt
    · rename_i s hold
      exact wt.setCell hold rfl (by simp)
    · exact (respects_get (R := Machine.KeepsTyping) |>.bind fun _ => respects_fault _) m wt
    · exact wt

/-! ### Instances -/

theorem wellTyped_defaults (fields : List (String × Ty)) {m : Machine} (wt : m.WellTyped)
    (ok : ∀ f ∈ fields, m.registry.TyOk f.2) :
    ((fields.mapM fun (f : String × Ty) => do return (f.1, ← newDefault f.2)).final m).WellTyped := by
  induction fields generalizing m with
  | nil => exact wt
  | cons f rest ih =>
    rw [List.mapM_cons]
    refine wellTyped_bind (wellTyped_bind (wellTyped_newDefault wt (ok f (by simp)))
      fun _ _ _ wt₁ => wt₁) fun e m₁ run₁ wt₁ => ?_
    have ext₁ : m.Extends m₁ :=
      ((extending_newDefault f.2).bind fun _ => respects_pure _).of_ok run₁
    exact wellTyped_bind (ih wt₁ fun g hg => ext₁.classes.tyOk (ok g (by simp [hg])))
      fun _ _ _ wt₂ => wt₂

theorem defaults_fit (fields : List (String × Ty)) {m m' : Machine} {values : Table}
    (wt : m.WellTyped) (ok : ∀ f ∈ fields, m.registry.TyOk f.2)
    (run : (fields.mapM fun (f : String × Ty) => do return (f.1, ← newDefault f.2)).run m =
      .ok values m') :
    values.map Prod.fst = fields.map Prod.fst ∧
      ∀ e ∈ values, ∃ T, (e.1, T) ∈ fields ∧ m'.Fits e.2 T := by
  induction fields generalizing m values with
  | nil =>
    obtain ⟨rfl, rfl⟩ := run_pure_ok run
    simp
  | cons f rest ih =>
    rw [List.mapM_cons] at run
    obtain ⟨e, m₁, run₁, run'⟩ := run_bind_ok run
    obtain ⟨v, m₀, hv, hpure⟩ := run_bind_ok run₁
    obtain ⟨rfl, rfl⟩ := run_pure_ok hpure
    obtain ⟨vs, m₂, run₂, hpure₂⟩ := run_bind_ok run'
    obtain ⟨rfl, hm⟩ := run_pure_ok hpure₂
    subst hm
    have fits₁ : m₀.Fits v f.2 := newDefault_fits (ok f (by simp)) hv
    have wt₁ : m₀.WellTyped := final_of_ok hv ▸ wellTyped_newDefault wt (ok f (by simp))
    have ext₁ : m.Extends m₀ := (extending_newDefault f.2).of_ok hv
    have ext₂ : m₀.Extends m₂ := (respects_mapM _ _ fun (g : String × Ty) =>
      (extending_newDefault g.2).bind fun _ => respects_pure _).of_ok run₂
    obtain ⟨keys, fits⟩ := ih wt₁ (fun g hg => ext₁.classes.tyOk (ok g (by simp [hg]))) run₂
    refine ⟨by simp [keys], ?_⟩
    rintro e (_ | ⟨_, he⟩)
    · exact ⟨f.2, by simp, wt₁.fits_of_extends ext₂ fits₁⟩
    · obtain ⟨T, hT, fit⟩ := fits e he
      exact ⟨T, by simp [hT], fit⟩

/-- Initialising an instance gives it a new table made for its own class. -/
theorem typed_initializeFields (a : Nat) : Typed (initializeFields a) := by
  intro m wt
  refine wellTyped_bind wt fun m₀ m₁ hget _ => ?_
  obtain ⟨rfl, rfl⟩ := run_get_ok hget
  split
  · rename_i c id t hold
    refine wellTyped_bind (typed_consult c m wt) fun _ m₂ run₂ wt₂ => ?_
    have ext₂ : m.Extends m₂ := (extending_consult c).of_ok run₂
    have declared : m₂.registry.IsDeclared c := ext₂.classes.isDeclared (wt.classes a c id t hold)
    refine wellTyped_bind wt₂ fun m₃ m₄ hget _ => ?_
    obtain ⟨rfl, rfl⟩ := run_get_ok hget
    dsimp only
    have ok : ∀ f ∈ m₂.registry.fieldTypes c, m₂.registry.TyOk f.2 :=
      fun f hf => wt₂.registry.fieldTypes_tyOk declared hf
    refine wellTyped_bind (wellTyped_defaults _ wt₂ ok) fun values m₅ run₅ wt₅ => ?_
    have ext₅ : m₂.Extends m₅ := (respects_mapM _ _ fun (g : String × Ty) =>
      (extending_newDefault g.2).bind fun _ => respects_pure _).of_ok run₅
    obtain ⟨keys, fits⟩ := defaults_fit _ wt₂ ok run₅
    -- the defaults are a table for the class itself
    have holds : m₅.TableFor c values := by
      refine ⟨ext₅.classes.isDeclared declared, ?_, fun e he => ?_⟩
      · rw [keys, ext₅.classes.fieldTypes wt₂.registry declared]
      · obtain ⟨T, hT, fit⟩ := fits e he
        refine ⟨c, T, Registry.isSubclassOf_refl c, ?_, fit⟩
        rw [ext₅.classes.fieldType? wt₂.registry declared]
        exact Registry.fieldType?_eq_some_iff.mpr hT
    refine wellTyped_bind (wellTyped_newTable wt₅ holds) fun nt m₆ run₆ wt₆ => ?_
    have owner := tableOf_newTable wt₅ holds
    have ext₆ : m₅.Extends m₆ := (extending_newTable values).of_ok run₆
    cases run₆
    refine wt₆.setCell_of_extends hold (ext₂.trans (ext₅.trans ext₆)) rfl ?_
    rintro c₁ id₁ ti ⟨⟩
    exact ⟨by simp, c, owner, Registry.isSubclassOf_refl c⟩
  · exact wt

theorem newObject_run (c : Nat) (m : Machine) :
    (newObject c).run m = .ok (.ref m.heap.cells.size) { m with heap := { m.heap with
      cells := m.heap.cells.push (.object c m.heap.nextId none), nextId := m.heap.nextId + 1 } } :=
  rfl

/-- A new instance is a new box, holding an instance of its class with no table; every
other box and every table stay as they were. -/
theorem newObject_ok {c : Nat} {v : Value} (run : (newObject c).run m = .ok v m') :
    v = .ref m.heap.cells.size ∧
      m'.cell? m.heap.cells.size = some (.object c m.heap.nextId none) ∧
      (∀ b < m.heap.cells.size, m'.cell? b = m.cell? b) ∧ m'.heap.tables = m.heap.tables := by
  rw [newObject_run] at run
  cases run
  refine ⟨rfl, by simp [Machine.cell?], fun b hb => ?_, rfl⟩
  simp [Machine.cell?, Array.getElem?_push, hb.ne]

/-- A copy of an instance gets a new table holding the values of the original's table,
which is a table for the same class as the original's. -/
theorem typed_clone (v : Value) : Typed (clone v) := by
  intro m wt
  cases v with
  | null => exact wt
  | builtin f => exact wt
  | ref a =>
    refine wellTyped_bind wt fun m₀ m₁ hget _ => ?_
    obtain ⟨rfl, rfl⟩ := run_get_ok hget
    split
    · rename_i c id t hold
      refine wellTyped_bind (wellTyped_newObject wt (wt.classes a c id t hold))
        fun copy m₂ run₂ wt₂ => ?_
      obtain ⟨rfl, hnew, hold₂, -⟩ := newObject_ok run₂
      -- the original box is untouched by making the copy
      rw [← hold₂ a (Array.getElem?_eq_some_iff.mp hold).1] at hold
      dsimp only
      split
      · rename_i t' b hcopy
        cases hcopy
        refine wellTyped_bind wt₂ fun m₃ m₄ hget _ => ?_
        obtain ⟨rfl, rfl⟩ := run_get_ok hget
        obtain ⟨C, owner⟩ := wt₂.owners t' (wt₂.tables a c id _ hold)
        have sub : m₂.registry.isSubclassOf C c = true := owner.users a c id hold
        refine wellTyped_bind (wellTyped_newTable wt₂ owner.holds) fun nt m₅ run₅ wt₅ => ?_
        have owner₅ := tableOf_newTable wt₂ owner.holds
        cases run₅
        refine wellTyped_bind wt₅ fun m₆ m₇ hget _ => ?_
        obtain ⟨rfl, rfl⟩ := run_get_ok hget
        split
        · rename_i c' id' t'' hb
          -- the copy's box still holds the new instance of the original's class
          have hc' : c' = c := by
            simp only [Machine.cell?] at hb
            rw [Machine.cell?] at hnew
            rw [hnew] at hb
            cases hb
            rfl
          subst hc'
          refine wellTyped_bind (wt₅.setCell hb rfl ?_) fun _ _ _ wt₈ => wt₈
          rintro c₁ id₁ ti ⟨⟩
          exact ⟨by simp, C, owner₅, sub⟩
        · exact wt₅
      · exact wt₂
    · rename_i cell scalar _
      exact typed_alloc _ scalar m wt
    · exact wt

theorem fieldType_ok {c : Nat} {name : String} {ft : Option Ty}
    (h : (fieldType c name).run m = .ok ft m') : ft = m'.registry.fieldType? c name := by
  simp only [fieldType] at h
  obtain ⟨u, m₀, -, h₁⟩ := run_bind_ok h
  obtain ⟨m₂, m₃, hget, h₂⟩ := run_bind_ok h₁
  obtain ⟨rfl, rfl⟩ := run_get_ok hget
  obtain ⟨rfl, rfl⟩ := run_pure_ok h₂
  rfl

theorem newDefault_admits {t : Ty} {box v : Value} (run : (newDefault t).run m = .ok box m')
    (hv : m.object? v = none) : m'.Admits t v := by
  intro want ht o ho
  subst ht
  rw [newDefault, newObject_run] at run
  cases run
  cases v with
  | ref b =>
    by_cases hb : b = m.heap.cells.size
    · subst hb
      simp only [Machine.object?, Machine.cell?, Array.getElem?_push_size, Option.some.injEq] at ho
      rw [← ho]
      exact Registry.isSubclassOf_refl want
    · have same : m.object? (.ref b) = some o := by
        simpa [Machine.object?, Machine.cell?, Array.getElem?_push, hb] using ho
      rw [hv] at same
      cases same
  | null => cases ho
  | builtin f => cases ho

/-- Writing a field keeps the machine well typed when the value fits the type the
instance's class gives the field. -/
theorem wellTyped_setField {a : Nat} {name : String} {v : Value} (wt : m.WellTyped)
    (fits : ∀ c id t, m.cell? a = some (.object c id t) →
      ∃ T, m.registry.fieldType? c name = some T ∧ m.Fits v T) :
    ((setField a name v).final m).WellTyped := by
  refine wellTyped_bind wt fun m₀ m₁ hget _ => ?_
  obtain ⟨rfl, rfl⟩ := run_get_ok hget
  split
  · exact wt
  · rename_i c id t hold
    refine wellTyped_bind (respects_visible typed_consult c (m.table t) name m wt)
      fun shown m₂ run₂ wt₂ => ?_
    have ext₂ : m.Extends m₂ := (respects_visible extending_consult c (m.table t) name).of_ok run₂
    have heap : m₂.heap = m.heap := by rw [← final_of_ok run₂, visible_heap]
    split
    · have hold₂ : m₂.cell? a = some (.object c id (some t)) := by
        rw [Machine.cell?, heap]
        exact hold
      obtain ⟨C, owner⟩ := wt₂.owners t (wt₂.tables a c id _ hold₂)
      obtain ⟨T, hT, fit⟩ := fits c id _ hold
      have hT₂ : m₂.registry.fieldType? c name = some T := by
        rw [ext₂.classes.fieldType? wt.registry (wt.classes a c id _ hold)]
        exact hT
      have same : m₂.table t = m.table t := by rw [Machine.table, heap, Machine.table]
      refine wt₂.setTable (wt₂.tables a c id _ hold₂) owner ?_
      rw [← same]
      exact owner.holds.replace (owner.users a c id hold₂) hT₂ (wt.fits_of_extends ext₂ fit)
    · exact wt₂
  · exact wt

/-- The value stored into a field of an instance box fits the type the instance's class
gives the field. -/
theorem fieldValue_fits {a c id : Nat} {t : Option Nat} {name : String} {v stored : Value}
    (wt : m.WellTyped) (hold : m.cell? a = some (.object c id t))
    (run : (fieldValue a name v).run m = .ok stored m') :
    ∃ T, m'.registry.fieldType? c name = some T ∧ m'.Fits stored T := by
  simp only [fieldValue] at run
  obtain ⟨m₀, m₁, hget, run₁⟩ := run_bind_ok run
  obtain ⟨rfl, rfl⟩ := run_get_ok hget
  simp only [hold] at run₁
  obtain ⟨ft?, m₂, run₂, run₃⟩ := run_bind_ok run₁
  have ext₂ : m.Extends m₂ := (respects_fieldType extending_consult c name).of_ok run₂
  have wt₂ : m₂.WellTyped := final_of_ok run₂ ▸ respects_fieldType typed_consult c name m wt
  have declared₂ : m₂.registry.IsDeclared c := ext₂.classes.isDeclared (wt.classes a c id t hold)
  rw [fieldType_ok run₂] at run₃
  split at run₃
  · exact absurd run₃ (run_fault_ne_ok _ _ _ _)
  · rename_i ft hft
    have tyOk : m₂.registry.TyOk ft :=
      wt₂.registry.fieldTypes_tyOk declared₂ (Registry.fieldType?_eq_some_iff.mp hft)
    obtain ⟨u, m₃, run₄, run₅⟩ := run_bind_ok run₃
    obtain ⟨hm₃, adm⟩ := checkAssignable_ok run₄
    subst m₃
    obtain ⟨m₄, m₅, hget, run₆⟩ := run_bind_ok run₅
    obtain ⟨hm₄, hm₅⟩ := run_get_ok hget
    subst m₄ m₅
    -- the field's type is what the registry still says once the value is made
    suffices m₂.Extends m' ∧ m'.Fits stored ft by
      refine ⟨ft, ?_, this.2⟩
      rw [this.1.classes.fieldType? wt₂.registry declared₂]
      exact hft
    -- an instance is stored as itself, and only into a field typed by a class
    split at run₆
    · rename_i o found
      split at run₆
      · rename_i want
        rw [if_pos rfl] at run₆
        obtain ⟨rfl, rfl⟩ := run_pure_ok run₆
        obtain ⟨b, got, id', t'⟩ := o
        obtain ⟨rfl, hb⟩ := object?_eq_some found
        refine ⟨.refl _, ?_⟩
        unfold Machine.Fits
        rw [Machine.tyOf_ref hb]
        exact adm want rfl _ found
      · rw [if_neg (by simp)] at run₆
        exact absurd run₆ (run_fault_ne_ok _ _ _ _)
    · split at run₆
      · rw [if_pos rfl] at run₆
        exact ⟨(extending_newDefault _).of_ok run₆, newDefault_fits tyOk run₆⟩
      · rw [if_neg (by simp)] at run₆
        exact absurd run₆ (run_fault_ne_ok _ _ _ _)
    · obtain ⟨box, m₆, run₇, run₈⟩ := run_bind_ok run₆
      obtain ⟨u, m₇, run₉, run₁₀⟩ := run_bind_ok run₈
      obtain ⟨rfl, rfl⟩ := run_pure_ok run₁₀
      have ext₆ : m₂.Extends m₆ := (extending_newDefault ft).of_ok run₇
      have ext₇ : m₆.Extends m₇ := (extending_setValue box _).of_ok run₉
      have wt₆ : m₆.WellTyped := final_of_ok run₇ ▸ wellTyped_newDefault wt₂ tyOk
      exact ⟨ext₆.trans ext₇, wt₆.fits_of_extends ext₇ (newDefault_fits tyOk run₇)⟩

theorem wellTyped_fieldValue {a c id : Nat} {t : Option Nat} {name : String} {v : Value}
    (wt : m.WellTyped) (hold : m.cell? a = some (.object c id t)) :
    ((fieldValue a name v).final m).WellTyped := by
  refine wellTyped_bind wt fun m₀ m₁ hget _ => ?_
  obtain ⟨rfl, rfl⟩ := run_get_ok hget
  simp only [hold]
  refine wellTyped_bind (respects_fieldType typed_consult c name m wt) fun ft? m₂ run₂ wt₂ => ?_
  have ext₂ : m.Extends m₂ := (respects_fieldType extending_consult c name).of_ok run₂
  have declared₂ : m₂.registry.IsDeclared c := ext₂.classes.isDeclared (wt.classes a c id t hold)
  rw [fieldType_ok run₂]
  split
  · exact wt₂
  · rename_i ft hft
    have tyOk : m₂.registry.TyOk ft :=
      wt₂.registry.fieldTypes_tyOk declared₂ (Registry.fieldType?_eq_some_iff.mp hft)
    refine wellTyped_bind (respects_checkAssignable (R := Machine.KeepsTyping) ft v m₂ wt₂)
      fun _ m₃ run₃ _ => ?_
    obtain ⟨rfl, adm⟩ := checkAssignable_ok run₃
    refine wellTyped_bind wt₂ fun m₄ m₅ hget _ => ?_
    obtain ⟨rfl, rfl⟩ := run_get_ok hget
    split
    · split
      · exact wt₂
      · exact wt₂
    · split
      · exact wellTyped_newDefault wt₂ tyOk
      · exact wt₂
    · rename_i _ hnone
      refine wellTyped_bind (wellTyped_newDefault wt₂ tyOk) fun box m₆ run₆ wt₆ => ?_
      refine wellTyped_bind (wellTyped_setValue wt₆ ?_) fun _ _ _ wt₇ => wt₇
      rw [(newDefault_tyOf tyOk run₆).2]
      exact newDefault_admits run₆ hnone

end Act

end ClassScript
