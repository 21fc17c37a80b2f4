import Mathlib
import ClassScript.Object.Render

/-! Rendering a value walks the store from it, and one walk expands each identity at most
once, for every store, however its tables share boxes and close cycles. The walk carries
one level of fuel per box of the store and never runs out: each level begins a new identity
of an instance with a table. -/
namespace ClassScript

inductive Shape where
  | atom (text : String)
  | token (id : Nat) (text : String)
  | expand (id : Nat) (fields : List (String × Shape))

/-- One instance met by a walk: expanded, or written as its token. -/
inductive Visit where
  | expand (id : Nat)
  | token (id : Nat)

namespace Visit

def expanded : List Visit → List Nat
  | [] => []
  | .expand id :: rest => id :: expanded rest
  | .token _ :: rest => expanded rest

@[simp] theorem expanded_append (vs ws : List Visit) :
    expanded (vs ++ ws) = expanded vs ++ expanded ws := by
  induction vs with
  | nil => rfl
  | cons v vs ih => cases v <;> simp [expanded, ih]

/-- Read from the identities `seen` whose expansion has begun, every expansion is of an
identity not yet begun and every token of one already begun. -/
def Fresh : List Nat → List Visit → Prop
  | _, [] => True
  | seen, .expand id :: rest => id ∉ seen ∧ Fresh (id :: seen) rest
  | seen, .token id :: rest => id ∈ seen ∧ Fresh seen rest

theorem fresh_append (seen : List Nat) (vs ws : List Visit) :
    Fresh seen (vs ++ ws) ↔ Fresh seen vs ∧ Fresh ((expanded vs).reverse ++ seen) ws := by
  induction vs generalizing seen with
  | nil => simp [Fresh, expanded]
  | cons v vs ih =>
    cases v with
    | expand id => simp [Fresh, expanded, ih, and_assoc]
    | token id => simp [Fresh, expanded, ih, and_assoc]

/-- Fresh visits expand each identity once, and none begun before them. -/
theorem Fresh.expanded_nodup {seen : List Nat} {vs : List Visit} (fresh : Fresh seen vs) :
    (expanded vs).Nodup ∧ ∀ id ∈ expanded vs, id ∉ seen := by
  induction vs generalizing seen with
  | nil => simp [expanded]
  | cons v vs ih =>
    cases v with
    | expand id =>
      obtain ⟨notBegun, rest⟩ := fresh
      obtain ⟨nodup, apart⟩ := ih rest
      refine ⟨List.nodup_cons.mpr ⟨fun again => apart id again (by simp), nodup⟩, ?_⟩
      intro other member
      rcases List.mem_cons.mp member with rfl | later
      · exact notBegun
      · exact fun old => apart other later (List.mem_cons_of_mem _ old)
    | token id => exact ih fresh.2

end Visit

namespace Shape

mutual

def text : Shape → String
  | .atom s => s
  | .token _ s => s
  | .expand _ fs =>
    "\x7b " ++ ", ".intercalate (fieldTexts fs) ++ (if fs.isEmpty then "\x7d" else " \x7d")

def fieldTexts : List (String × Shape) → List String
  | [] => []
  | (n, s) :: rest => (n ++ ": " ++ s.text) :: fieldTexts rest

end

mutual

def visits : Shape → List Visit
  | .atom _ => []
  | .token id _ => [.token id]
  | .expand id fs => .expand id :: fieldVisits fs

def fieldVisits : List (String × Shape) → List Visit
  | [] => []
  | (_, s) :: rest => s.visits ++ fieldVisits rest

end

mutual

/-- A shape describes a value when a plain text stands for no instance with a table, a
token for an instance with a table, and an expansion for an instance with a table whose
fields are the entries of that table its class has, in byte order of their names. An
instance in the null state is written `null`. -/
def Describes (m : Machine) : Shape → Value → Prop
  | .atom s, v => ∀ a c id t, v = .ref a → m.cell? a = some (.object c id t) →
      t = none ∧ s = "null"
  | .token id s, v => ∃ a c t, v = .ref a ∧ m.cell? a = some (.object c id (some t)) ∧
      s = m.identity c id
  | .expand id fs, v => ∃ a c t, v = .ref a ∧ m.cell? a = some (.object c id (some t)) ∧
      ∃ es : Table, es.Perm ((m.table t).filter fun e => m.registry.hasField c e.1) ∧
        es.Pairwise (fun e f => e.1 ≤ f.1) ∧ FieldsDescribe m fs es

def FieldsDescribe (m : Machine) : List (String × Shape) → Table → Prop
  | [], [] => True
  | (n, s) :: fs, (n', v) :: es => n = n' ∧ s.Describes m v ∧ FieldsDescribe m fs es
  | _, _ => False

end

theorem fieldTexts_isEmpty (fs : List (String × Shape)) :
    (fieldTexts fs).isEmpty = fs.isEmpty := by
  cases fs <;> rfl

end Shape

namespace Machine

variable {m : Machine}

def liveIds (m : Machine) : Finset Nat :=
  (m.heap.cells.toList.filterMap fun
    | .object _ id (some _) => some id
    | _ => none).toFinset

def unseen (m : Machine) (seen : List Nat) : Nat := (m.liveIds \ seen.toFinset).card

theorem mem_liveIds {a c id t : Nat} (cell : m.cell? a = some (.object c id (some t))) :
    id ∈ m.liveIds := by
  simp only [liveIds, List.mem_toFinset, List.mem_filterMap]
  refine ⟨.object c id (some t), ?_, rfl⟩
  simp only [cell?, Array.getElem?_eq_some_iff] at cell
  obtain ⟨bound, at_a⟩ := cell
  rw [← at_a]
  exact Array.getElem_mem_toList bound

theorem unseen_nil_le : m.unseen [] ≤ m.heap.cells.size := by
  simp only [unseen, List.toFinset_nil, Finset.sdiff_empty, liveIds]
  calc _ ≤ (m.heap.cells.toList.filterMap _).length := List.toFinset_card_le _
    _ ≤ m.heap.cells.toList.length := List.length_filterMap_le _ _
    _ = m.heap.cells.size := Array.length_toList

theorem unseen_append_le (new seen : List Nat) : m.unseen (new ++ seen) ≤ m.unseen seen := by
  apply Finset.card_le_card
  apply Finset.sdiff_subset_sdiff le_rfl
  intro x
  simp +contextual

theorem unseen_cons {id : Nat} {seen : List Nat} (live : id ∈ m.liveIds) (fresh : id ∉ seen) :
    m.unseen (id :: seen) + 1 = m.unseen seen := by
  have split : m.liveIds \ seen.toFinset = insert id (m.liveIds \ (id :: seen).toFinset) := by
    ext x
    by_cases same : x = id
    · subst same; simp [live, fresh]
    · simp [same]
  rw [unseen, unseen, split, Finset.card_insert_of_notMem (by simp)]

/-- What a walk with enough fuel does to a value: it writes a shape that describes the
value, whose visits are fresh after the identities begun before, and it adds the
identities it expands to the trail. -/
def WalkSpec (m : Machine) (fuel : Nat) (v : Value) (t : Trail) : Prop :=
  ∃ S : Shape, (m.renderWith fuel v t).1 = S.text ∧ S.Describes m v ∧
    Visit.Fresh t.seen S.visits ∧
    (m.renderWith fuel v t).2.seen = (Visit.expanded S.visits).reverse ++ t.seen

def fieldStep (m : Machine) (fuel : Nat) (acc : List String × Trail) (e : String × Value) :
    List String × Trail :=
  (acc.1 ++ [e.1 ++ ": " ++ (m.renderWith fuel e.2 acc.2).1], (m.renderWith fuel e.2 acc.2).2)

/-- An instance with a table whose expansion has not begun is expanded: its identity
joins the trail and its visible fields are walked in order. -/
theorem renderWith_expand {fuel a c id ti : Nat} {t : Trail}
    (cell : m.cell? a = some (.object c id (some ti))) (begun : id ∉ t.seen) :
    m.renderWith (fuel + 1) (.ref a) t =
      let r := (m.visibleFields c (m.table ti)).foldl (m.fieldStep fuel)
        ([], ⟨id :: t.seen, if (m.table ti).isEmpty then t.consulted else c :: t.consulted⟩)
      ("\x7b " ++ ", ".intercalate r.1 ++ (if r.1.isEmpty then "\x7d" else " \x7d"), r.2) := by
  simp only [renderWith, cell, if_neg begun]
  rfl

theorem foldFields_spec (fuel : Nat)
    (walk : ∀ v t, m.unseen t.seen < fuel → m.WalkSpec fuel v t) :
    ∀ (es : Table) (parts : List String) (t : Trail), m.unseen t.seen < fuel →
      ∃ fs, (es.foldl (m.fieldStep fuel) (parts, t)).1 = parts ++ Shape.fieldTexts fs ∧
        Shape.FieldsDescribe m fs es ∧ Visit.Fresh t.seen (Shape.fieldVisits fs) ∧
        (es.foldl (m.fieldStep fuel) (parts, t)).2.seen =
          (Visit.expanded (Shape.fieldVisits fs)).reverse ++ t.seen := by
  intro es
  induction es with
  | nil =>
    intro parts t _
    exact ⟨[], by simp [Shape.fieldTexts], trivial, trivial,
      by simp [Shape.fieldVisits, Visit.expanded]⟩
  | cons e rest ih =>
    intro parts t budget
    obtain ⟨name, v⟩ := e
    obtain ⟨S, text, describes, fresh, trail⟩ := walk v t budget
    have budget' : m.unseen (m.renderWith fuel v t).2.seen < fuel := by
      rw [trail]
      exact lt_of_le_of_lt (unseen_append_le _ _) budget
    obtain ⟨fs, texts, describesRest, freshRest, trailRest⟩ :=
      ih (parts ++ [name ++ ": " ++ (m.renderWith fuel v t).1]) _ budget'
    refine ⟨(name, S) :: fs, ?_, ⟨rfl, describes, describesRest⟩, ?_, ?_⟩
    · simp only [List.foldl_cons, fieldStep]
      rw [texts, text]
      simp [Shape.fieldTexts]
    · rw [Shape.fieldVisits, Visit.fresh_append]
      exact ⟨fresh, trail ▸ freshRest⟩
    · simp only [List.foldl_cons, fieldStep]
      rw [trailRest, trail]
      simp [Shape.fieldVisits]

theorem walkSpec_atom {fuel : Nat} {v : Value} {t : Trail} (s : String)
    (written : m.renderWith fuel v t = (s, t))
    (inert : ∀ a c id tb, v = .ref a → m.cell? a = some (.object c id tb) →
      tb = none ∧ s = "null") : m.WalkSpec fuel v t :=
  ⟨.atom s, by rw [written]; rfl, inert, trivial, by rw [written]; rfl⟩

/-- Every walk whose fuel exceeds the identities it has not begun meets the spec. The
induction is on the fuel; inside one expansion `foldFields_spec` walks the fields. -/
theorem walkSpec_of_unseen_lt (fuel : Nat) :
    ∀ v t, m.unseen t.seen < fuel → m.WalkSpec fuel v t := by
  induction fuel with
  | zero => intro v t budget; omega
  | succ fuel ih =>
    intro v t budget
    cases v with
    | null => exact walkSpec_atom "null" (by simp [renderWith]) (by simp)
    | builtin f => exact walkSpec_atom ("<fn " ++ f.name ++ ">") (by simp [renderWith]) (by simp)
    | ref a =>
      have other {content : Cell} (cell : m.cell? a = some content)
          (notObject : ∀ c id tb, content ≠ .object c id tb) (s : String) :
          ∀ a' c id tb, Value.ref a = .ref a' → m.cell? a' = some (.object c id tb) →
            tb = none ∧ s = "null" := by
        rintro _ c id tb ⟨⟩ object
        exact absurd (Option.some.inj (cell.symm.trans object)) (notObject c id tb)
      cases cell : m.cell? a with
      | none =>
        refine walkSpec_atom "null" (by simp [renderWith, cell]) ?_
        rintro _ _ _ _ ⟨⟩ object
        simp [cell] at object
      | some content =>
        cases content with
        | int n =>
          exact walkSpec_atom (toString n.toInt) (by simp [renderWith, cell])
            (other cell (by simp) _)
        | real r =>
          exact walkSpec_atom r.text (by simp [renderWith, cell]) (other cell (by simp) _)
        | bool b =>
          exact walkSpec_atom (toString b) (by simp [renderWith, cell]) (other cell (by simp) _)
        | string str =>
          exact walkSpec_atom str (by simp [renderWith, cell]) (other cell (by simp) _)
        | object c id table =>
          cases table with
          | none =>
            refine walkSpec_atom "null" (by simp [renderWith, cell]) ?_
            rintro _ _ _ _ ⟨⟩ object
            simp_all
          | some ti =>
            by_cases begun : id ∈ t.seen
            · refine ⟨.token id (m.identity c id), ?_, ⟨a, c, ti, rfl, cell, rfl⟩,
                ⟨begun, trivial⟩, ?_⟩
              · simp [renderWith, cell, begun, Shape.text]
              · simp [renderWith, cell, begun, Shape.visits, Visit.expanded]
            · have budget' : m.unseen (id :: t.seen) < fuel := by
                have := unseen_cons (mem_liveIds cell) begun
                omega
              obtain ⟨fs, texts, describes, fresh, trail⟩ :=
                foldFields_spec fuel ih (m.visibleFields c (m.table ti)) []
                  ⟨id :: t.seen, if (m.table ti).isEmpty then t.consulted else c :: t.consulted⟩
                  budget'
              refine ⟨.expand id fs, ?_, ⟨a, c, ti, rfl, cell, _, ?_, ?_, describes⟩,
                ⟨begun, fresh⟩, ?_⟩
              · rw [renderWith_expand cell begun]
                simp only
                rw [texts, List.nil_append]
                simp [Shape.text, Shape.fieldTexts_isEmpty]
              · exact List.mergeSort_perm _ _
              · have sorted := @List.pairwise_mergeSort _
                  (fun (e f : String × Value) => decide (e.1 ≤ f.1))
                  (fun _ _ _ h₁ h₂ => by simp only [decide_eq_true_eq] at *; exact le_trans h₁ h₂)
                  (fun e f => by simpa using le_total e.1 f.1)
                  ((m.table ti).filter fun e => m.registry.hasField c e.1)
                simpa [visibleFields] using sorted
              · rw [renderWith_expand cell begun]
                simp only
                rw [trail]
                simp [Shape.visits, Visit.expanded]

/-- Rendering any value of any store writes a shape that describes it, expands every
identity at most once, and writes an instance as its token exactly when the expansion of
its identity has begun earlier in the walk. -/
theorem render_expands_each_once (m : Machine) (v : Value) :
    ∃ S : Shape, (m.render v).1 = S.text ∧ S.Describes m v ∧ Visit.Fresh [] S.visits ∧
      (Visit.expanded S.visits).Nodup := by
  obtain ⟨S, text, describes, fresh, -⟩ :=
    walkSpec_of_unseen_lt (m.heap.cells.size + 1) v ⟨[], []⟩ (Nat.lt_succ_of_le unseen_nil_le)
  exact ⟨S, text, describes, fresh, fresh.expanded_nodup.1⟩

end Machine

end ClassScript
