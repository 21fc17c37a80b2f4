import ClassScript.Proofs.Tables

/-! Identities handed out by making instances. Every new instance takes the next
identity, and nothing else takes one; a default of a class type is a new instance, so
initialising an instance takes one identity per field of class type. Main statement:
`new_takes_identities`, evaluating `new C` takes `1 + k` identities, where `k` counts the
fields of `C`, inherited ones included, whose type is a class, and the new instance holds
the first of them. -/
namespace ClassScript

def Ty.isClass : Ty → Bool
  | .cls _ => true
  | _ => false

namespace Act

variable {m m' : Machine}

theorem newDefault_nextId {t : Ty} {v : Value} (run : (newDefault t).run m = .ok v m') :
    m'.heap.nextId = m.heap.nextId + if t.isClass then 1 else 0 := by
  cases t <;> cases run <;> simp [Ty.isClass]

theorem defaults_nextId (fields : List (String × Ty)) {values : List (String × Value)}
    (run : (fields.mapM fun (f : String × Ty) => do return (f.1, ← newDefault f.2)).run m =
      .ok values m') :
    m'.heap.nextId = m.heap.nextId + fields.countP (·.2.isClass) := by
  induction fields generalizing m values with
  | nil =>
    cases run
    rfl
  | cons f rest ih =>
    rw [List.mapM_cons] at run
    obtain ⟨e, m₁, run₁, run₂⟩ := run_bind_ok run
    obtain ⟨v, m₀, made, returned⟩ := run_bind_ok run₁
    obtain ⟨-, rfl⟩ := run_pure_ok returned
    obtain ⟨rest', m₂, runRest, done⟩ := run_bind_ok run₂
    obtain ⟨-, rfl⟩ := run_pure_ok done
    rw [ih runRest, newDefault_nextId made, List.countP_cons]
    omega

/-- Initialising the fields of an instance takes one identity per field of its class
whose type is a class. -/
theorem initializeFields_nextId {a c id : Nat} {t : Option Nat}
    (hcell : m.cell? a = some (.object c id t)) (run : (initializeFields a).run m = .ok () m') :
    m'.heap.nextId = m.heap.nextId + (m.registry.fieldTypes c).countP (·.2.isClass) := by
  obtain ⟨values, m₂, run₂, -⟩ :=
    defaults_fresh ((m.registry.consult c).fieldTypes c) { m with registry := m.registry.consult c }
  have ids := defaults_nextId _ run₂
  simp only [initializeFields, EStateM.run_bind, EStateM.run_get, hcell, consult,
    EStateM.run_modify, run₂, newTable, EStateM.run_modifyGet, setCell] at run
  cases run
  simpa using ids

/-- Evaluating `new C` for a declared class `C` makes an instance of `C` with a new table in
the next box, under the next identity, and moves the identity counter past one identity
for it and one for each field of `C` whose type is a class. -/
theorem new_takes_identities (scope : Scope) (cls : Name) {c : Nat}
    (declared : m.registry.lookupClass cls.text = .ok c) :
    ∃ m', (eval scope (.new cls)).run m = .ok (.ref m.heap.cells.size) m' ∧
      m'.cell? m.heap.cells.size = some (.object c m.heap.nextId (some m.heap.tables.size)) ∧
      m'.heap.nextId = m.heap.nextId + 1 + (m.registry.fieldTypes c).countP (·.2.isClass) := by
  -- the instance is made in the null state, then given its table
  let m₁ : Machine := { m with heap := { m.heap with
    cells := m.heap.cells.push (.object c m.heap.nextId none), nextId := m.heap.nextId + 1 } }
  have made : m₁.cell? m.heap.cells.size = some (.object c m.heap.nextId none) := by
    simp [m₁, Machine.cell?]
  obtain ⟨m', init, cell', -⟩ := initializeFields_spec made
  refine ⟨m', ?_, cell', ?_⟩
  · simp only [eval, EStateM.run_bind, EStateM.run_get, declared, ofExcept, run_atLine,
      EStateM.run_pure, newObject_run]
    rw [init]
  · rw [initializeFields_nextId made init]

/-- A class inheriting two fields of its own class type, one of which it shadows by an
integer field: a new instance takes two identities. -/
theorem new_leaf_takes_two_identities :
    let m : Machine := { Machine.empty 0 with registry := { Registry.empty 0 with
      classes := #[⟨"Base", none, [("link", .cls 0), ("other", .cls 0)], true⟩,
        ⟨"Leaf", some 0, [("other", .int)], true⟩]
      named := (Registry.empty 0).named ++ [("Base", .cls 0), ("Leaf", .cls 1)] } }
    m.registry.lookupClass "Leaf" = .ok 1 ∧
      ∃ m', (eval [] (.new ⟨"Leaf", 1⟩)).run m = .ok (.ref 0) m' ∧
        m'.cell? 0 = some (.object 1 1 (some 0)) ∧ m'.heap.nextId = 3 := by
  intro m
  have declared : m.registry.lookupClass "Leaf" = .ok 1 := by decide
  obtain ⟨m', run, cell, ids⟩ := new_takes_identities [] ⟨"Leaf", 1⟩ declared
  have one : (m.registry.fieldTypes 1).countP (·.2.isClass) = 1 := by cbv
  exact ⟨declared, m', run, cell, by rw [ids, one]; rfl⟩

end Act

end ClassScript
