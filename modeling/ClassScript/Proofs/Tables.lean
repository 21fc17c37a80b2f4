import ClassScript.Proofs.Aliasing
import ClassScript.Proofs.Typing
import ClassScript.Object.Workspace

/-! Field tables under the operations of the object model. A table is made by initialising
an instance or by cloning one, and its names never change after that; a field write changes
one entry of the one table the instance uses, and a write that fails changes nothing. -/
namespace ClassScript

def Ty.zeroCell : Ty → Option Cell
  | .int => some (.int 0)
  | .real => some (.real ⟨0⟩)
  | .bool => some (.bool false)
  | .string => some (.string "")
  | _ => none

namespace Machine

/-- `v` is a default of type `ty` made after `m`, as `m'` shows it: the null literal
for a type with no boxes; else a box that `m` does not have, holding the zero of a
scalar type, or an instance of the class in the null state under an identity `m` has
not given out. -/
def FreshDefault (m m' : Machine) : Ty → Value → Prop
  | .null, v | .function, v => v = .null
  | .cls c, v => ∃ b id, m.heap.cells.size ≤ b ∧ m.heap.nextId ≤ id ∧ v = .ref b ∧
      m'.cell? b = some (.object c id none)
  | ty, v => ∃ b, m.heap.cells.size ≤ b ∧ v = .ref b ∧ m'.cell? b = ty.zeroCell

variable {m₀ m m' : Machine} {ty : Ty} {v : Value}

theorem FreshDefault.of_before (h : m.FreshDefault m' ty v)
    (cells : m₀.heap.cells.size ≤ m.heap.cells.size) (ids : m₀.heap.nextId ≤ m.heap.nextId) :
    m₀.FreshDefault m' ty v := by
  cases ty with
  | cls c =>
    obtain ⟨b, id, hb, hid, rfl, hcell⟩ := h
    exact ⟨b, id, by omega, by omega, rfl, hcell⟩
  | null | function => exact h
  | _ =>
    obtain ⟨b, hb, rfl, hcell⟩ := h
    exact ⟨b, by omega, rfl, hcell⟩

theorem FreshDefault.of_after {m'' : Machine} (h : m.FreshDefault m' ty v)
    (keep : ∀ b, m.heap.cells.size ≤ b → b < m'.heap.cells.size → m''.cell? b = m'.cell? b) :
    m.FreshDefault m'' ty v := by
  have kept : ∀ {b c}, m.heap.cells.size ≤ b → m'.cell? b = some c → m''.cell? b = some c :=
    fun hb hc => by rw [keep _ hb (Array.getElem?_eq_some_iff.mp hc).1, hc]
  cases ty with
  | cls c =>
    obtain ⟨b, id, hb, hid, rfl, hcell⟩ := h
    exact ⟨b, id, hb, hid, rfl, kept hb hcell⟩
  | null | function => exact h
  | _ =>
    obtain ⟨b, hb, rfl, hcell⟩ := h
    exact ⟨b, hb, rfl, kept hb hcell⟩

end Machine

namespace Act

variable {m m' : Machine}

/-- Making a default: the null literal for a type with no boxes, else the next box of the
store, holding a fresh default; the registry, the tables and every box there was stay
as they were. -/
theorem newDefault_fresh (ty : Ty) (m : Machine) :
    ∃ v m', (newDefault ty).run m = .ok v m' ∧ m.FreshDefault m' ty v ∧
      (v = .null ∧ m'.heap.cells.size = m.heap.cells.size ∨
        v = .ref m.heap.cells.size ∧ m'.heap.cells.size = m.heap.cells.size + 1) ∧
      m'.registry = m.registry ∧ m'.heap.tables = m.heap.tables ∧
      m.heap.nextId ≤ m'.heap.nextId ∧ ∀ b < m.heap.cells.size, m'.cell? b = m.cell? b := by
  cases ty <;>
    simp [newDefault, newObject_run, alloc, Machine.FreshDefault, Ty.zeroCell, Machine.cell?] <;>
    intro b hb <;> simp [Array.getElem?_push, hb.ne]

/-- The defaults made for a list of fields: one entry per field, under its name, each a
fresh default of its type and no two the same box; the registry, the tables and every
box there was stay as they were. -/
theorem defaults_fresh (fields : List (String × Ty)) (m : Machine) :
    ∃ values m',
      (fields.mapM fun (f : String × Ty) => do return (f.1, ← newDefault f.2)).run m =
        .ok values m' ∧
      values.map Prod.fst = fields.map Prod.fst ∧
      List.Forall₂ (fun f e => m.FreshDefault m' f.2 e.2) fields values ∧
      (values.map Prod.snd).Pairwise (fun v w => v = w → v = .null) ∧
      (∀ w ∈ values.map Prod.snd, w = .null ∨ ∃ b, m.heap.cells.size ≤ b ∧ w = .ref b) ∧
      m'.registry = m.registry ∧ m'.heap.tables = m.heap.tables ∧
      m.heap.cells.size ≤ m'.heap.cells.size ∧ m.heap.nextId ≤ m'.heap.nextId ∧
      ∀ b < m.heap.cells.size, m'.cell? b = m.cell? b := by
  induction fields generalizing m with
  | nil =>
    exact ⟨[], m, rfl, rfl, .nil, .nil, by simp, rfl, rfl, le_rfl, le_rfl, fun _ _ => rfl⟩
  | cons f rest ih =>
    obtain ⟨v, m₁, run₁, fresh₁, next₁, reg₁, tables₁, ids₁, keep₁⟩ := newDefault_fresh f.2 m
    obtain ⟨values, m', run', keys, fresh', distinct', above', reg', tables', cells', ids', keep'⟩ :=
      ih m₁
    have cells₁ : m.heap.cells.size ≤ m₁.heap.cells.size := by omega
    refine ⟨(f.1, v) :: values, m', ?_, by simp [keys], ?_, ?_, ?_, reg'.trans reg₁,
      tables'.trans tables₁, cells₁.trans cells', ids₁.trans ids', fun b hb => ?_⟩
    · simp only [List.mapM_cons, EStateM.run_bind, run₁, run', EStateM.run_pure]
    · exact .cons (fresh₁.of_after fun b _ hb => keep' b hb)
        (fresh'.imp fun _ _ h => h.of_before cells₁ ids₁)
    · -- the first default is the box `m` gives next, and the later ones come after it
      refine List.pairwise_cons.mpr ⟨fun w hw same => ?_, distinct'⟩
      subst same
      rcases next₁ with ⟨rfl, -⟩ | ⟨rfl, size₁⟩
      · rfl
      · rcases above' _ hw with null | ⟨b, hb, same⟩
        · cases null
        · cases same
          omega
    · intro w hw
      rcases List.mem_cons.mp hw with rfl | later
      · rcases next₁ with ⟨rfl, -⟩ | ⟨rfl, -⟩
        · exact .inl rfl
        · exact .inr ⟨_, le_rfl, rfl⟩
      · rcases above' w later with null | ⟨b, hb, rfl⟩
        · exact .inl null
        · exact .inr ⟨b, by omega, rfl⟩
    · rw [keep' b (by omega), keep₁ b hb]

@[simp] theorem fieldTypes_consult (r : Registry) (c d : Nat) :
    (r.consult c).fieldTypes d = r.fieldTypes d := by
  simp [Registry.fieldTypes, Registry.chainFields_congr (Registry.consult_classes r c)]

/-- Initialising the fields of an instance gives it a new table, with one entry for each
field its class has at that moment, under the field's name and holding a fresh default
of its type, no two the same box. The instance keeps its class and identity; no table
that exists changes, and no box there was but the instance's. -/
theorem initializeFields_spec {a c id : Nat} {t : Option Nat} {m : Machine}
    (hcell : m.cell? a = some (.object c id t)) :
    ∃ m', (initializeFields a).run m = .ok () m' ∧
      m'.cell? a = some (.object c id (some m.heap.tables.size)) ∧
      (m'.table m.heap.tables.size).map Prod.fst = (m.registry.fieldTypes c).map Prod.fst ∧
      List.Forall₂ (fun f e => m.FreshDefault m' f.2 e.2) (m.registry.fieldTypes c)
        (m'.table m.heap.tables.size) ∧
      ((m'.table m.heap.tables.size).map Prod.snd).Pairwise (fun v w => v = w → v = .null) ∧
      (∀ u < m.heap.tables.size, m'.table u = m.table u) ∧
      ∀ b < m.heap.cells.size, b ≠ a → m'.cell? b = m.cell? b := by
  obtain ⟨values, m₂, run₂, keys, fresh, distinct, -, -, tables₂, cells₂, -, keep₂⟩ :=
    defaults_fresh ((m.registry.consult c).fieldTypes c) { m with registry := m.registry.consult c }
  simp only [fieldTypes_consult] at keys fresh
  have keep : ∀ b < m.heap.cells.size, m₂.cell? b = m.cell? b := keep₂
  replace tables₂ : m₂.heap.tables = m.heap.tables := tables₂
  replace cells₂ : m.heap.cells.size ≤ m₂.heap.cells.size := cells₂
  replace fresh := fresh.imp fun _ _ h => (h.of_before le_rfl le_rfl : m.FreshDefault _ _ _)
  have ha : a < m.heap.cells.size := (Array.getElem?_eq_some_iff.mp hcell).1
  have size₂ : m₂.heap.tables.size = m.heap.tables.size := by rw [tables₂]
  -- the new table goes at the end of the tables, and the instance box is rewritten in place
  let m₃ : Machine := { m₂ with heap := { m₂.heap with
    tables := m₂.heap.tables.push values
    cells := m₂.heap.cells.set! a (.object c id (some m.heap.tables.size)) } }
  have old : ∀ b < m.heap.cells.size, b ≠ a → m₃.cell? b = m.cell? b := fun b hb hba => by
    rw [← keep b hb]
    simp [m₃, Machine.cell?, Ne.symm hba]
  have table₃ : ∀ u, m₃.table u = if u = m.heap.tables.size then values else m₂.table u := by
    intro u
    simp only [m₃, Machine.table, Array.getElem?_push, size₂]
    split <;> simp_all
  refine ⟨m₃, ?_, ?_, ?_, ?_, ?_, fun u hu => ?_, old⟩
  · simp only [initializeFields, EStateM.run_bind, EStateM.run_get, hcell, consult,
      EStateM.run_modify, run₂, newTable, EStateM.run_modifyGet, setCell, size₂]
    rfl
  · simp [m₃, Machine.cell?, show a < m₂.heap.cells.size by omega]
  · simp [table₃, keys]
  · rw [table₃, if_pos rfl]
    refine (fresh.imp fun _ _ h => h.of_after fun b hb _ => ?_)
    simp only [m₃, Machine.cell?, Array.set!, Array.getElem?_setIfInBounds]
    rw [if_neg (by omega)]
  · simpa [table₃] using distinct
  · rw [table₃, if_neg hu.ne, Machine.table, Machine.table, tables₂]

/-- Cloning an instance makes a new instance of its class, in the next box and under the
next identity. When the original has a table, the copy gets a new table holding the
very same values under the same names; a copy of an instance in the null state is in
the null state and gets none. No table and no box there was changes. -/
theorem clone_spec {a c id : Nat} {t : Option Nat} {m : Machine}
    (hcell : m.cell? a = some (.object c id t)) :
    ∃ m', (clone (.ref a)).run m = .ok (.ref m.heap.cells.size) m' ∧
      m'.cell? m.heap.cells.size =
        some (.object c m.heap.nextId (t.map fun _ => m.heap.tables.size)) ∧
      (∀ u, t = some u → m'.table m.heap.tables.size = m.table u) ∧
      (t = none → m'.heap.tables = m.heap.tables) ∧
      (∀ u < m.heap.tables.size, m'.table u = m.table u) ∧
      ∀ b < m.heap.cells.size, m'.cell? b = m.cell? b := by
  have pushed : ∀ (cell : Cell), ∀ b < m.heap.cells.size,
      (m.heap.cells.push cell)[b]? = m.heap.cells[b]? := fun cell b hb => by
    simp [Array.getElem?_push, hb.ne]
  cases t with
  | none =>
    refine ⟨{ m with heap := { m.heap with
      cells := m.heap.cells.push (.object c m.heap.nextId none), nextId := m.heap.nextId + 1 } },
      ?_, ?_, fun _ hu => (by cases hu), fun _ => rfl, fun _ _ => rfl, fun b hb => ?_⟩
    · simp only [clone, EStateM.run_bind, EStateM.run_get, hcell, newObject_run, EStateM.run_pure]
    · simp [Machine.cell?]
    · simp only [Machine.cell?]
      exact pushed _ b hb
  | some u =>
    -- the copy is made in the null state, then set to use a copy of the table
    let cells := (m.heap.cells.push (.object c m.heap.nextId none)).set! m.heap.cells.size
      (.object c m.heap.nextId (some m.heap.tables.size))
    have kept : ∀ b < m.heap.cells.size, cells[b]? = m.heap.cells[b]? := fun b hb => by
      simp [cells, hb.ne', pushed _ b hb]
    refine ⟨{ m with heap := ⟨cells, m.heap.tables.push (m.table u), m.heap.nextId + 1⟩ }, ?_, ?_,
      fun u' hu => ?_, fun h => (by cases h), fun u' hu' => ?_, fun b hb => kept b hb⟩
    · have found : m.heap.cells[a]? = some (.object c id (some u)) := hcell
      simp only [clone, EStateM.run_bind, EStateM.run_get, Machine.cell?, found, newObject_run,
          newTable, EStateM.run_modifyGet, Array.getElem?_push_size, setCell,
          EStateM.run_modify, EStateM.run_pure]
      rfl
    · simp [cells, Machine.cell?]
    · cases hu
      simp [Machine.table]
    · simp [Machine.table, Array.getElem?_push, hu'.ne]

/-- A lookup through an instance of class `c` finds a name only when the table holds it
and `c` has the field. -/
theorem visible_ok_true_hasField {c : Nat} {entries : Table} {name : String} {m m' : Machine}
    (h : (visible c entries name).run m = .ok true m') :
    (entries.lookup name).isSome ∧ m.registry.hasField c name = true := by
  refine ⟨visible_ok_true h, ?_⟩
  unfold visible at h
  split at h
  · obtain ⟨u, m₁, hconsult, h₁⟩ := run_bind_ok h
    obtain ⟨m₂, m₃, hget, h₂⟩ := run_bind_ok h₁
    obtain ⟨rfl, rfl⟩ := run_get_ok hget
    obtain ⟨has, -⟩ := run_pure_ok h₂
    -- looking the class up only counts it in the field cache
    cases hconsult
    simpa [Registry.hasField, Registry.fieldType?] using has.symm
  · cases h

/-- Writing a field that succeeds: the instance has a table holding the name, its class
has the field, and the value under the name is replaced in that table and nowhere else. -/
theorem setField_spec {a : Nat} {name : String} {v : Value} {m m' : Machine} {u : Unit}
    (h : (setField a name v).run m = .ok u m') :
    ∃ c id t, m.cell? a = some (.object c id (some t)) ∧ ((m.table t).lookup name).isSome ∧
      m.registry.hasField c name = true ∧
      m'.heap = { m.heap with
        tables := m.heap.tables.set! t <|
          (m.table t).map fun e => if e.1 == name then (name, v) else e } := by
  simp only [setField] at h
  obtain ⟨m₀, m₁, hget, h₁⟩ := run_bind_ok h
  obtain ⟨rfl, rfl⟩ := run_get_ok hget
  split at h₁
  · exact absurd h₁ (run_fault_ne_ok _ _ _ _)
  · rename_i c id t hcell
    obtain ⟨visible, m₂, hvisible, h₂⟩ := run_bind_ok h₁
    have heap₂ := SameHeap.of_ok (respects_visible sameHeap_consult _ _ _) hvisible
    split at h₂
    · rename_i yes
      subst yes
      obtain ⟨held, has⟩ := visible_ok_true_hasField hvisible
      cases h₂
      exact ⟨c, id, t, hcell, held, has, by simp [heap₂]⟩
    · exact absurd h₂ (run_fault_ne_ok _ _ _ _)
  · exact absurd h₁ (run_fault_ne_ok _ _ _ _)

theorem lookup_replace_of_ne (entries : Table) {name n : String} (v : Value) (h : n ≠ name) :
    (entries.map fun e => if e.1 == name then (name, v) else e).lookup n = entries.lookup n := by
  induction entries with
  | nil => rfl
  | cons e rest ih =>
    obtain ⟨k, w⟩ := e
    by_cases hk : k = name
    · subst hk
      have hn : (n == k) = false := by simpa using h
      simp only [List.map_cons, beq_self_eq_true, if_true, List.lookup_cons, hn]
      exact ih
    · have hk' : (k == name) = false := by simpa using hk
      simp only [List.map_cons, hk', Bool.false_eq_true, if_false, List.lookup_cons]
      cases n == k
      · exact ih
      · rfl

/-- A write that succeeds changes one entry of the one table the instance uses: the name
now gives the value written, every other name what it gave, and the names stay. It is
seen through every instance on that table, and through no other box. -/
theorem setField_ok_spec {a : Nat} {name : String} {v : Value} {m m' : Machine} {u : Unit}
    (h : (setField a name v).run m = .ok u m') :
    ∃ c id t, m.cell? a = some (.object c id (some t)) ∧ m.registry.hasField c name = true ∧
      (m'.table t).lookup name = some v ∧
      (∀ n, n ≠ name → (m'.table t).lookup n = (m.table t).lookup n) ∧
      (m'.table t).map Prod.fst = (m.table t).map Prod.fst ∧
      (∀ t', t' ≠ t → m'.table t' = m.table t') ∧
      (∀ b c' id', m.cell? b = some (.object c' id' (some t)) →
        m'.view (.ref b) = some (id', some (m'.table t))) ∧
      ∀ b, (∀ c' id', m.cell? b ≠ some (.object c' id' (some t))) →
        m'.view (.ref b) = m.view (.ref b) := by
  obtain ⟨c, id, t, hcell, held, has, heap⟩ := setField_spec h
  have bound : t < m.heap.tables.size := by
    by_contra outside
    simp [Machine.table, Array.getElem?_eq_none (Nat.le_of_not_lt outside)] at held
  have obj : ∀ b, m'.object? (.ref b) = m.object? (.ref b) := fun b => by
    simp [Machine.object?, Machine.cell?, heap]
  have table : ∀ u, m'.table u =
      if u = t then (m.table t).map (fun e => if e.1 == name then (name, v) else e)
      else m.table u := fun u => by
    by_cases hu : u = t
    · subst hu
      simp [Machine.table, heap, bound]
    · simp [Machine.table, heap, Ne.symm hu, hu]
  have written : m'.table t = (m.table t).map fun e => if e.1 == name then (name, v) else e := by
    rw [table, if_pos rfl]
  refine ⟨c, id, t, hcell, has, by rw [written]; exact lookup_replace _ _ _ held,
    fun n hn => by rw [written]; exact lookup_replace_of_ne _ _ hn,
    by rw [written]; exact map_fst_replace _ _ _, fun t' ht' => by rw [table, if_neg ht'],
    fun b c' id' hb => ?_, fun b other => ?_⟩
  · simp only [Machine.view, obj]
    simp [Machine.object?, hb]
  · simp only [Machine.view, obj]
    cases hb : m.cell? b with
    | none => simp [Machine.object?, hb]
    | some cell =>
      cases cell with
      | object c' id' t' =>
        cases t' with
        | none => simp [Machine.object?, hb]
        | some t' =>
          have : t' ≠ t := fun same => other c' id' (same ▸ hb)
          simp [Machine.object?, hb, table, this]
      | _ => simp [Machine.object?, hb]

/-- Writing a field that fails changes no box and no table. -/
theorem setField_error_heap {a : Nat} {name : String} {v : Value} {m m' : Machine} {e : Fault}
    (h : (setField a name v).run m = .error e m') : m'.heap = m.heap := by
  simp only [setField] at h
  rcases run_bind_error h with h | ⟨m₀, m₁, hget, h₁⟩
  · cases h
  · obtain ⟨rfl, rfl⟩ := run_get_ok hget
    split at h₁
    · cases h₁
      rfl
    · rcases run_bind_error h₁ with hv | ⟨visible, m₂, hv, h₂⟩
      · exact (respects_visible sameHeap_consult _ _ _).of_error hv
      · -- the write itself cannot fail, so the lookup refused the name
        have heap₂ := SameHeap.of_ok (respects_visible sameHeap_consult _ _ _) hv
        split at h₂
        · cases h₂
        · cases h₂
          exact heap₂
    · cases h₁
      rfl

/-- Storing into an instance box changes no table and no other box, and the box keeps its
class and identity, whether the store succeeds or fails; when it succeeds the box uses
the table of the stored instance, or none for `null`. -/
theorem setValue_object_spec {a c id : Nat} {t : Option Nat} {m : Machine}
    (hcell : m.cell? a = some (.object c id t)) (v : Value) :
    m.ChangesOnly a ((setValue (.ref a) v).final m) ∧
      (∃ t', ((setValue (.ref a) v).final m).cell? a = some (.object c id t')) ∧
      ∀ u m', (setValue (.ref a) v).run m = .ok u m' →
        m'.cell? a = some (.object c id ((m.object? v).bind fun (_, _, _, t) => t)) :=
  ⟨changesOnly_setValue a v m, (extending_setValue (.ref a) v m).object hcell,
    fun _ _ h => setValue_object_ok hcell h⟩

theorem extending_fieldNames (a : Nat) : Extending (fieldNames a) := by
  refine respects_get.bind fun m => ?_
  split
  · refine respects_get.bind fun _ => ?_
    dsimp only
    split
    · exact (extending_consult _).bind fun _ => respects_get.bind fun _ => respects_pure _
    · exact respects_get.bind fun _ => respects_pure _
  · exact respects_pure _

end Act

/-! ### Workspaces

A workspace runs the operations of the object model one after another; each operation
ends, whether it succeeds or fails, in a machine that extends the one it started from. -/

namespace Work

variable {α β : Type} {R : Machine → Machine → Prop}

def final (x : Work α) (w : Workspace) : Workspace :=
  match x.run w with
  | .ok _ w' => w'
  | .error _ w' => w'

def Respects (R : Machine → Machine → Prop) (x : Work α) : Prop :=
  ∀ w, R w.machine (x.final w).machine

theorem respects_pure [Std.Refl R] (a : α) : Respects R (pure a : Work α) :=
  fun w => Std.Refl.refl w.machine

theorem respects_get [Std.Refl R] : Respects R (get : Work Workspace) :=
  fun w => Std.Refl.refl w.machine

theorem respects_throw [Std.Refl R] (e : WorkError) : Respects R (throw e : Work α) :=
  fun w => Std.Refl.refl w.machine

theorem respects_modifyGet [Std.Refl R] (f : Workspace → α × Workspace)
    (h : ∀ w, R w.machine (f w).2.machine) : Respects R (modifyGet f : Work α) := h

theorem respects_modify [Std.Refl R] (f : Workspace → Workspace)
    (h : ∀ w, (f w).machine = w.machine) : Respects R (modify f : Work Unit) :=
  fun w => by
    show R w.machine (f w).machine
    rw [h]
    exact Std.Refl.refl _

theorem Respects.bind [IsTrans Machine R] {x : Work α} {f : α → Work β} (hx : Respects R x)
    (hf : ∀ a, Respects R (f a)) : Respects R (x >>= f) := by
  intro w
  have first := hx w
  simp only [final, EStateM.run_bind] at first ⊢
  cases hr : x.run w with
  | ok a w' =>
    rw [hr] at first
    exact IsTrans.trans _ _ _ first (hf a w')
  | error e w' =>
    rw [hr] at first
    exact first

theorem Respects.map [Std.Refl R] [IsTrans Machine R] {x : Work α} (f : α → β)
    (hx : Respects R x) : Respects R (f <$> x) := by
  rw [map_eq_pure_bind]
  exact hx.bind fun _ => respects_pure _

theorem Respects.ite {c : Prop} [Decidable c] {x y : Work α} (hx : Respects R x)
    (hy : Respects R y) : Respects R (if c then x else y) := by
  split
  · exact hx
  · exact hy

theorem run_act (x : Act α) (w : Workspace) :
    (act x).run w = match x.run w.machine with
      | .ok a m => .ok a { w with machine := m }
      | .error f m => .error (.fault f) { w with machine := m } := rfl

theorem respects_act {x : Act α} (hx : Act.Respects R x) : Respects R (act x) := by
  intro w
  have first := hx w.machine
  simp only [final, run_act]
  cases hr : x.run w.machine with
  | ok a m => simpa [Act.final, hr] using first
  | error f m => simpa [Act.final, hr] using first

theorem respects_forIn [Std.Refl R] [IsTrans Machine R] {γ : Type} (l : List γ) (b : β)
    (f : γ → β → Work (ForInStep β)) (hf : ∀ a b, Respects R (f a b)) :
    Respects R (forIn l b f) := by
  induction l generalizing b with
  | nil => exact respects_pure _
  | cons a l ih =>
    rw [List.forIn_cons]
    refine (hf a b).bind ?_
    intro step
    cases step with
    | done b => exact respects_pure _
    | yield b => exact ih b

section Reads

variable [Std.Refl R] [IsTrans Machine R]

theorem respects_slot (name : String) : Respects R (slot name) := by
  refine respects_get.bind fun w => ?_
  split
  · exact respects_pure _
  · exact respects_throw _

omit [IsTrans Machine R] in
theorem respects_store (name : String) (v : Value) : Respects R (store name v) :=
  respects_modify _ fun _ => rfl

theorem respects_instanceAt (name : String) : Respects R (instanceAt name) := by
  refine respects_get.bind fun w => (respects_slot name).bind fun v => ?_
  split
  · exact respects_pure _
  · exact respects_throw _

theorem respects_classNamed (name : String) : Respects R (classNamed name) := by
  refine respects_get.bind fun w => ?_
  split
  · exact respects_pure _
  · exact respects_throw _

theorem respects_registry : Respects R registry :=
  respects_get.bind fun _ => respects_pure _

theorem respects_parentNamed (name : String) : Respects R (parentNamed name) := by
  refine respects_get.bind fun w => ?_
  split
  · exact respects_pure _
  · exact respects_get.bind fun _ => respects_act (Act.respects_ofExcept _)

theorem respects_resolve (self : Option Nat) (name : String) : Respects R (resolve self name) := by
  refine respects_get.bind fun w => ?_
  split
  · exact respects_pure _
  · exact respects_pure _
  · split
    · exact respects_pure _
    · split
      · exact respects_pure _
      · exact respects_act (Act.respects_fault _)

end Reads

/-! Every operation of a workspace extends its machine. -/

theorem extending_value (spec : ValueSpec) : Respects Machine.Extends (value spec) := by
  cases spec with
  | null => exact respects_pure _
  | slot n => exact respects_slot n
  | _ => exact respects_act (Act.extending_alloc _)

theorem extending_describe (v : Value) : Respects Machine.Extends (describe v) :=
  respects_get.bind fun _ => (respects_act (Act.extending_text v)).bind fun _ => respects_pure _

theorem extending_addField (c : Nat) (name : String) (ty : Ty) :
    Respects Machine.Extends (act (Act.updateRegistry (·.addField c name ty))) :=
  respects_act (Act.extending_updateRegistry _ fun _ _ h _ _ hd declared =>
    Registry.get?_addField h hd declared)

theorem extending_declare (c : Nat) :
    Respects Machine.Extends (act (Act.updateRegistry (·.declare c))) :=
  respects_act (Act.extending_updateRegistry _ fun _ _ h _ _ hd declared =>
    Registry.get?_declare h hd declared)

theorem extending_makeClass (name : String) (parent : Option String)
    (fields : List (String × String)) (declare : Bool) :
    Respects Machine.Extends (makeClass name parent fields declare) := by
  unfold makeClass
  dsimp only
  cases parent
  on_goal 1 => refine (respects_pure _).bind fun p => ?_
  on_goal 2 => refine ((respects_parentNamed _).map _).bind fun p => ?_
  -- the class is made, filled and declared the same way with a parent or without
  all_goals
    refine (respects_modifyGet _ fun w => ?_).bind fun c => ?_
    · -- making the class adds it to the registry and changes nothing else
      refine ⟨fun _ cell h => ⟨cell, h, rfl⟩, le_rfl, fun _ _ => rfl, fun d k hd _ => ?_⟩
      exact Registry.get?_newClass name p hd
    · refine (respects_forIn _ _ _ fun f _ => ?_).bind fun _ => ?_
      · exact (respects_resolve _ _).bind fun ty =>
          (extending_addField c f.1 ty).bind fun _ => respects_pure _
      · split
        · exact extending_declare c
        · exact respects_pure _

theorem extending_perform (cmd : Command) : Respects Machine.Extends (perform cmd) := by
  cases cmd with
  | makeClass name parent fields declare =>
    exact (extending_makeClass name parent fields declare).bind fun _ => respects_pure _
  | declare cls =>
    exact (respects_classNamed cls).bind fun c => (extending_declare c).bind fun _ =>
      respects_pure _
  | addField cls field type =>
    exact (respects_classNamed cls).bind fun c => (respects_resolve _ type).bind fun ty =>
      (extending_addField c field ty).bind fun _ => respects_pure _
  | lookup name =>
    exact respects_registry.bind fun r => (respects_act (Act.respects_ofExcept _)).bind fun _ =>
      respects_pure _
  | fieldTypes cls =>
    exact (respects_classNamed cls).bind fun c => (respects_act (Act.extending_consult c)).bind
      fun _ => respects_registry.bind fun _ => respects_pure _
  | subclass cls ancestor =>
    exact (respects_classNamed cls).bind fun _ => (respects_classNamed ancestor).bind fun _ =>
      respects_registry.bind fun _ => respects_pure _
  | cached => exact respects_registry.bind fun _ => respects_pure _
  | new name cls =>
    refine (respects_classNamed cls).bind fun c => (respects_act (Act.extending_newObject c)).bind
      fun v => (respects_store name v).bind fun _ => respects_get.bind fun w => ?_
    split
    · exact respects_pure _
    · exact respects_pure _
  | default name type =>
    exact (respects_resolve none type).bind fun ty => (respects_act (Act.extending_newDefault ty)).bind
      fun v => (respects_store name v).bind fun _ => extending_describe v
  | bind name spec =>
    exact (extending_value spec).bind fun v => (respects_store name v).bind fun _ =>
      extending_describe v
  | initFields name =>
    exact (respects_instanceAt name).bind fun o =>
      (respects_act (Act.extending_initializeFields o.1)).bind fun _ =>
        (respects_act (Act.extending_text _)).bind fun _ => respects_pure _
  | get name field into =>
    refine (respects_instanceAt name).bind fun o =>
      (respects_act (Act.extending_getField o.1 field)).bind fun v => ?_
    dsimp only
    split
    · exact (respects_store _ v).bind fun _ => extending_describe v
    · exact extending_describe v
  | set name field spec =>
    exact (respects_instanceAt name).bind fun o => (extending_value spec).bind fun v =>
      (respects_act (Act.extending_setField o.1 field v)).bind fun _ => respects_pure _
  | assign name spec =>
    exact (respects_slot name).bind fun target => (extending_value spec).bind fun v =>
      (respects_act (Act.extending_setValue target v)).bind fun _ => extending_describe target
  | clone name into =>
    refine (respects_slot name).bind fun v₀ => (respects_act (Act.extending_clone v₀)).bind
      fun v => ?_
    dsimp only
    split
    · exact (respects_store _ v).bind fun _ => extending_describe v
    · exact extending_describe v
  | equals name spec =>
    exact (respects_slot name).bind fun _ => (extending_value spec).bind fun _ =>
      respects_get.bind fun _ => respects_pure _
  | same name spec =>
    exact (respects_slot name).bind fun _ => (extending_value spec).bind fun _ => respects_pure _
  | hash name =>
    exact (respects_slot name).bind fun _ => respects_get.bind fun _ => respects_pure _
  | text name =>
    exact (respects_slot name).bind fun v => (respects_act (Act.extending_text v)).bind fun _ =>
      respects_pure _
  | read name target =>
    refine (respects_slot name).bind fun v => ?_
    cases target with
    | bool => exact (respects_act (Act.respects_asBool v)).bind fun _ => respects_pure _
    | int => exact (respects_act (Act.respects_asInt v)).bind fun _ => respects_pure _
    | real => exact (respects_act (Act.respects_asReal v)).bind fun _ => respects_pure _
  | parse name source =>
    exact (respects_slot name).bind fun target =>
      (respects_act (Act.extending_parseInto target source)).bind fun _ => extending_describe target
  | fieldNames name =>
    exact (respects_instanceAt name).bind fun o =>
      (respects_act (Act.extending_fieldNames o.1)).bind fun _ => respects_pure _
  | hasField name field =>
    exact (respects_instanceAt name).bind fun o => (respects_act (Act.extending_consult _)).bind
      fun _ => respects_registry.bind fun _ => respects_pure _
  | fieldType name field =>
    exact (respects_instanceAt name).bind fun o =>
      (respects_act (Act.respects_fieldType Act.extending_consult _ field)).bind fun _ =>
        respects_registry.bind fun _ => respects_pure _
  | isNull name => exact (respects_instanceAt name).bind fun _ => respects_pure _
  | identity name =>
    exact (respects_instanceAt name).bind fun _ => respects_get.bind fun _ => respects_pure _

end Work

namespace Workspace

theorem step_final (w : Workspace) (cmd : Command) : (w.step cmd).2 = (Work.perform cmd).final w := by
  unfold step Work.final
  split <;> rename_i h <;> simp [h]

/-- Every run of operations on a workspace, failed ones included, ends in a machine that
extends the one it started from. -/
theorem extends_steps (w : Workspace) (cmds : List Command) :
    w.machine.Extends (cmds.foldl (fun w cmd => (w.step cmd).2) w).machine := by
  induction cmds generalizing w with
  | nil => exact .refl _
  | cons cmd rest ih =>
    have first : w.machine.Extends (w.step cmd).2.machine := by
      rw [step_final]
      exact Work.extending_perform cmd w
    exact first.trans (ih _)

end Workspace

/-- The field tables of the object model: a table keeps its names along every run; it is
made by initialising an instance, with fresh defaults, or by cloning, with the very same
values; a field write changes one entry of one table, and one that fails changes nothing. -/
theorem table_discipline :
    (∀ (w : Workspace) (cmds : List Command), ∀ t < w.machine.heap.tables.size,
      ((cmds.foldl (fun w cmd => (w.step cmd).2) w).machine.table t).map Prod.fst =
        (w.machine.table t).map Prod.fst) ∧
    (∀ (m : Machine) (a c id : Nat) (t : Option Nat), m.cell? a = some (.object c id t) →
      ∃ m', (Act.initializeFields a).run m = .ok () m' ∧
        m'.cell? a = some (.object c id (some m.heap.tables.size)) ∧
        (m'.table m.heap.tables.size).map Prod.fst = (m.registry.fieldTypes c).map Prod.fst ∧
        List.Forall₂ (fun f e => m.FreshDefault m' f.2 e.2) (m.registry.fieldTypes c)
          (m'.table m.heap.tables.size) ∧
        ((m'.table m.heap.tables.size).map Prod.snd).Pairwise (fun v w => v = w → v = .null) ∧
        (∀ u < m.heap.tables.size, m'.table u = m.table u) ∧
        ∀ b < m.heap.cells.size, b ≠ a → m'.cell? b = m.cell? b) ∧
    (∀ (m : Machine) (a c id : Nat) (t : Option Nat), m.cell? a = some (.object c id t) →
      ∃ m', (Act.clone (.ref a)).run m = .ok (.ref m.heap.cells.size) m' ∧
        m'.cell? m.heap.cells.size =
          some (.object c m.heap.nextId (t.map fun _ => m.heap.tables.size)) ∧
        (∀ u, t = some u → m'.table m.heap.tables.size = m.table u) ∧
        (t = none → m'.heap.tables = m.heap.tables) ∧
        (∀ u < m.heap.tables.size, m'.table u = m.table u) ∧
        ∀ b < m.heap.cells.size, m'.cell? b = m.cell? b) ∧
    (∀ (m m' : Machine) (a : Nat) (name : String) (v : Value) (u : Unit),
      (Act.setField a name v).run m = .ok u m' →
      ∃ c id t, m.cell? a = some (.object c id (some t)) ∧ m.registry.hasField c name = true ∧
        (m'.table t).lookup name = some v ∧
        (∀ n, n ≠ name → (m'.table t).lookup n = (m.table t).lookup n) ∧
        (m'.table t).map Prod.fst = (m.table t).map Prod.fst ∧
        (∀ t', t' ≠ t → m'.table t' = m.table t') ∧
        (∀ b c' id', m.cell? b = some (.object c' id' (some t)) →
          m'.view (.ref b) = some (id', some (m'.table t))) ∧
        ∀ b, (∀ c' id', m.cell? b ≠ some (.object c' id' (some t))) →
          m'.view (.ref b) = m.view (.ref b)) ∧
    (∀ (m m' : Machine) (a : Nat) (name : String) (v : Value) (e : Fault),
      (Act.setField a name v).run m = .error e m' → m'.heap = m.heap) ∧
    (∀ (m : Machine) (a c id : Nat) (t : Option Nat), m.cell? a = some (.object c id t) →
      ∀ v, m.ChangesOnly a ((Act.setValue (.ref a) v).final m) ∧
        (∃ t', ((Act.setValue (.ref a) v).final m).cell? a = some (.object c id t')) ∧
        ∀ u m', (Act.setValue (.ref a) v).run m = .ok u m' →
          m'.cell? a = some (.object c id ((m.object? v).bind fun (_, _, _, t) => t))) ∧
    (∀ (m : Machine) (a : Nat) (name : String), ((Act.getField a name).final m).heap = m.heap) ∧
    ∀ (m : Machine) (v : Value), ((Act.text v).final m).heap = m.heap :=
  ⟨fun w cmds t ht => ((Workspace.extends_steps w cmds).keys t ht),
    fun _ _ _ _ _ hcell => Act.initializeFields_spec hcell,
    fun _ _ _ _ _ hcell => Act.clone_spec hcell,
    fun _ _ _ _ _ _ h => Act.setField_ok_spec h,
    fun _ _ _ _ _ _ h => Act.setField_error_heap h,
    fun _ _ _ _ _ hcell v => Act.setValue_object_spec hcell v,
    fun m a name => Act.respects_getField Act.sameHeap_consult a name m,
    fun m v => Act.respects_text Act.sameHeap_consult v m⟩

end ClassScript
