import Mathlib
import ClassScript.Object.Class

/-! The theory of the class registry. A class's fields form a map: each name once, the
parent's names first and its own replacing or adding. A subclass has every field name
of the classes it descends from, and descent is reflexive and transitive. A well-formed
registry types every field by a scalar type or a declared class, and only by its own
class while that is not yet declared; what a declared class is never changes, and its
fields and its ancestors then stay as they are whatever else the registry gains. -/
namespace ClassScript


section Keys

variable {α β : Type} [BEq α] [LawfulBEq α] {l : List (α × β)} {n : α} {b : β}

theorem lookup_eq_some_of_mem (nodup : (l.map Prod.fst).Nodup) (h : (n, b) ∈ l) :
    l.lookup n = some b := by
  induction l with
  | nil => cases h
  | cons e rest ih =>
    obtain ⟨k, w⟩ := e
    simp only [List.map_cons, List.nodup_cons] at nodup
    rcases List.mem_cons.mp h with same | later
    · cases same
      simp
    · have hk : n ≠ k := fun hk => nodup.1 (hk ▸ List.mem_map_of_mem (f := Prod.fst) later)
      have : (n == k) = false := by simpa using hk
      simp [List.lookup_cons, this, ih nodup.2 later]

theorem mem_of_lookup_eq_some (h : l.lookup n = some b) : (n, b) ∈ l := by
  obtain ⟨l₁, l₂, rfl, -⟩ := List.lookup_eq_some_iff.mp h
  simp

theorem lookup_eq_some_iff_mem (nodup : (l.map Prod.fst).Nodup) :
    l.lookup n = some b ↔ (n, b) ∈ l :=
  ⟨mem_of_lookup_eq_some, lookup_eq_some_of_mem nodup⟩

theorem lookup_isSome_iff_mem_keys : (l.lookup n).isSome ↔ n ∈ l.map Prod.fst := by
  rw [List.lookup_isSome_iff, List.mem_map]
  constructor
  · rintro ⟨p, hp, h⟩
    exact ⟨p, hp, (beq_iff_eq.mp h).symm⟩
  · rintro ⟨p, hp, h⟩
    exact ⟨p, hp, beq_iff_eq.mpr h.symm⟩

end Keys
namespace Registry

section Updates

@[simp] theorem consult_classes (r : Registry) (c : Nat) : (r.consult c).classes = r.classes := by
  unfold consult
  split
  · split <;> rfl
  · rfl

@[simp] theorem consult_named (r : Registry) (c : Nat) : (r.consult c).named = r.named := by
  unfold consult
  split
  · split <;> rfl
  · rfl

variable {r r' : Registry} {d : Nat} {k : ClassDecl}

theorem get?_addField {c : Nat} {name : String} {ty : Ty} (h : r.addField c name ty = .ok r')
    (hd : r.get? d = some k) (declared : k.declared = true) : r'.get? d = some k := by
  unfold addField at h
  split at h
  · cases h
    exact hd
  · rename_i k' hk'
    split at h
    · cases h
    · split at h
      · cases h
      · cases h
        by_cases hcd : c = d
        · subst hcd
          rw [hk'] at hd
          cases hd
          simp_all
        · simpa [get?, hcd] using hd

/-- What a successful declaration does: nothing to a class that does not exist, and
otherwise marks the class declared and names it, when its name is new and its parent,
if any, is declared. -/
theorem declare_eq_ok {c : Nat} (h : r.declare c = .ok r') :
    (r.get? c = none ∧ r' = r) ∨
    ∃ k, r.get? c = some k ∧ (r.named.lookup k.name).isSome = false ∧
      (∀ p, k.parent = some p → ∃ kp, r.get? p = some kp ∧ kp.declared = true) ∧
      r' = { r with classes := r.classes.set! c { k with declared := true }
                    named := r.named ++ [(k.name, .cls c)] } := by
  unfold declare at h
  split at h
  · rename_i hc
    cases h
    exact .inl ⟨hc, rfl⟩
  · rename_i k hk
    split at h
    · cases h
    · rename_i fresh
      refine .inr ⟨k, hk, Bool.eq_false_iff.mpr fresh, ?_⟩
      cases hp : k.parent with
      | none =>
        simp only [hp] at h
        cases h
        refine ⟨fun q hq => ?_, rfl⟩
        cases hq
      | some p =>
        simp only [hp] at h
        split at h
        · cases h
        · rename_i parentOk
          cases h
          refine ⟨fun q hq => ?_, rfl⟩
          cases hq
          cases hkp : r.get? p with
          | none => simp [hkp] at parentOk
          | some kp => exact ⟨kp, rfl, by simpa [hkp] using parentOk⟩

theorem get?_declare {c : Nat} (h : r.declare c = .ok r') (hd : r.get? d = some k)
    (declared : k.declared = true) : r'.get? d = some k := by
  rcases declare_eq_ok h with ⟨-, rfl⟩ | ⟨k', hk', -, -, rfl⟩
  · exact hd
  · by_cases hcd : c = d
    · subst hcd
      rw [hk'] at hd
      cases hd
      have hc : c < r.classes.size := (Array.getElem?_eq_some_iff.mp hk').1
      cases k
      simp_all [get?]
    · simpa [get?, hcd] using hd

theorem get?_newClass (name : String) (parent : Option Nat) (hd : r.get? d = some k) :
    (r.newClass name parent).2.get? d = some k := by
  have hc : d < r.classes.size := (Array.getElem?_eq_some_iff.mp hd).1
  simpa [newClass, get?, Array.getElem?_push, hc.ne] using hd

end Updates

variable (r : Registry)

theorem chainFields_eq (c : Nat) :
    r.chainFields c = (((r.get? c).map (·.fields)).getD []).foldl
      (fun acc f => override acc f.1 f.2)
      (match r.parentOf c with
        | some p => r.chainFields p
        | none => []) := by
  rw [chainFields]
  split <;> rename_i h <;> simp [h]

theorem isSubclassOf_eq (c d : Nat) :
    r.isSubclassOf c d = if c = d then true else match r.parentOf c with
      | some p => r.isSubclassOf p d
      | none => false := by
  rw [isSubclassOf]
  split
  · rfl
  · split <;> rename_i h <;> simp [h]

variable {r}

theorem lt_of_parentOf {c p : Nat} (h : r.parentOf c = some p) : p < c := by
  unfold parentOf at h
  split at h
  · split at h
    · cases h
      assumption
    · cases h
  · cases h

theorem parent_of_parentOf {c p : Nat} (h : r.parentOf c = some p) :
    ∃ k, r.get? c = some k ∧ k.parent = some p := by
  unfold parentOf at h
  split at h
  · rename_i q hq
    split at h
    · cases h
      cases hk : r.get? c with
      | none => simp [hk] at hq
      | some k => exact ⟨k, rfl, by simpa [hk] using hq⟩
    · cases h
  · cases h

/-! ### Subclasses -/

theorem isSubclassOf_refl (c : Nat) : r.isSubclassOf c c = true := by
  rw [isSubclassOf_eq]
  simp

theorem isSubclassOf_of_parentOf {c p d : Nat} (h : r.parentOf c = some p)
    (hp : r.isSubclassOf p d = true) : r.isSubclassOf c d = true := by
  rw [isSubclassOf_eq, h]
  split <;> simp [hp]

theorem isSubclassOf_trans {c d e : Nat} (h₁ : r.isSubclassOf c d = true)
    (h₂ : r.isSubclassOf d e = true) : r.isSubclassOf c e = true := by
  induction c using Nat.strong_induction_on with
  | _ c ih =>
    rw [isSubclassOf_eq] at h₁
    by_cases hcd : c = d
    · subst hcd
      exact h₂
    · rw [if_neg hcd] at h₁
      cases hp : r.parentOf c with
      | none => simp [hp] at h₁
      | some p =>
        simp only [hp] at h₁
        exact isSubclassOf_of_parentOf hp (ih p (lt_of_parentOf hp) h₁)

/-- The ancestors of a class form a chain: of two of them, one descends from the other. -/
theorem isSubclassOf_total {c d e : Nat} (h₁ : r.isSubclassOf c d = true)
    (h₂ : r.isSubclassOf c e = true) : r.isSubclassOf d e = true ∨ r.isSubclassOf e d = true := by
  induction c using Nat.strong_induction_on with
  | _ c ih =>
    by_cases hcd : c = d
    · subst hcd
      exact .inl h₂
    by_cases hce : c = e
    · subst hce
      exact .inr h₁
    rw [isSubclassOf_eq, if_neg hcd] at h₁
    rw [isSubclassOf_eq, if_neg hce] at h₂
    cases hp : r.parentOf c with
    | none => simp [hp] at h₁
    | some p =>
      simp only [hp] at h₁ h₂
      exact ih p (lt_of_parentOf hp) h₁ h₂

theorem keys_override (fs : List (String × Ty)) (name : String) (ty : Ty) :
    (override fs name ty).map Prod.fst =
      if fs.any (·.1 == name) then fs.map Prod.fst else fs.map Prod.fst ++ [name] := by
  unfold override
  split
  · simp only [List.map_map]
    apply List.map_congr_left
    intro f _
    by_cases h : f.1 = name <;> simp [h]
  · simp

theorem keys_subset_override (fs : List (String × Ty)) (name : String) (ty : Ty) :
    fs.map Prod.fst ⊆ (override fs name ty).map Prod.fst := by
  rw [keys_override]
  split
  · exact List.Subset.refl _
  · exact List.subset_append_left _ _

theorem keys_override_nodup {fs : List (String × Ty)} (name : String) (ty : Ty)
    (nodup : (fs.map Prod.fst).Nodup) : ((override fs name ty).map Prod.fst).Nodup := by
  rw [keys_override]
  split
  · exact nodup
  · rename_i absent
    refine List.nodup_append.mpr ⟨nodup, List.nodup_singleton _, ?_⟩
    intro a ha b hb
    simp only [List.mem_singleton] at hb
    subst hb
    rintro rfl
    obtain ⟨f, hf, rfl⟩ := List.mem_map.mp ha
    exact absent (List.any_eq_true.mpr ⟨f, hf, by simp⟩)

theorem keys_foldl_override_nodup (own : List (String × Ty)) {fs : List (String × Ty)}
    (nodup : (fs.map Prod.fst).Nodup) :
    ((own.foldl (fun acc f => override acc f.1 f.2) fs).map Prod.fst).Nodup := by
  induction own generalizing fs with
  | nil => exact nodup
  | cons f rest ih => exact ih (keys_override_nodup f.1 f.2 nodup)

theorem keys_subset_foldl_override (own : List (String × Ty)) (fs : List (String × Ty)) :
    fs.map Prod.fst ⊆ (own.foldl (fun acc f => override acc f.1 f.2) fs).map Prod.fst := by
  induction own generalizing fs with
  | nil => exact List.Subset.refl _
  | cons f rest ih => exact List.Subset.trans (keys_subset_override fs f.1 f.2) (ih _)

theorem chainFields_keys_nodup (c : Nat) : ((r.chainFields c).map Prod.fst).Nodup := by
  induction c using Nat.strong_induction_on with
  | _ c ih =>
    rw [chainFields_eq]
    apply keys_foldl_override_nodup
    split
    · rename_i p hp
      exact ih p (lt_of_parentOf hp)
    · exact List.nodup_nil

theorem fieldTypes_keys_nodup (c : Nat) : ((r.fieldTypes c).map Prod.fst).Nodup :=
  ((List.mergeSort_perm _ _).map Prod.fst).nodup_iff.mpr (chainFields_keys_nodup c)

theorem fieldType?_eq_some_iff {c : Nat} {name : String} {ty : Ty} :
    r.fieldType? c name = some ty ↔ (name, ty) ∈ r.fieldTypes c :=
  lookup_eq_some_iff_mem (fieldTypes_keys_nodup c)

theorem mem_fieldTypes_keys {c : Nat} {name : String} :
    name ∈ (r.fieldTypes c).map Prod.fst ↔ name ∈ (r.chainFields c).map Prod.fst :=
  ((List.mergeSort_perm _ _).map Prod.fst).mem_iff

/-- A subclass has every field name of the classes it descends from. -/
theorem chainFields_keys_subset {c d : Nat} (h : r.isSubclassOf c d = true) :
    (r.chainFields d).map Prod.fst ⊆ (r.chainFields c).map Prod.fst := by
  induction c using Nat.strong_induction_on with
  | _ c ih =>
    rw [isSubclassOf_eq] at h
    by_cases hcd : c = d
    · subst hcd
      exact List.Subset.refl _
    · rw [if_neg hcd] at h
      cases hp : r.parentOf c with
      | none => simp [hp] at h
      | some p =>
        simp only [hp] at h
        have inherited := ih p (lt_of_parentOf hp) h
        rw [chainFields_eq r c, hp]
        exact List.Subset.trans inherited (keys_subset_foldl_override _ _)

theorem hasField_of_isSubclassOf {c d : Nat} {name : String} (h : r.isSubclassOf c d = true)
    (has : r.hasField d name = true) : r.hasField c name = true := by
  unfold hasField fieldType? at *
  rw [lookup_isSome_iff_mem_keys, mem_fieldTypes_keys] at *
  exact chainFields_keys_subset h has
/-! ### Declared classes and the types boxes have -/

def IsDeclared (r : Registry) (c : Nat) : Prop := ∃ k, r.get? c = some k ∧ k.declared = true

/-- A type a box can have: a scalar type or a declared class. -/
def TyOk (r : Registry) : Ty → Prop
  | .int | .real | .bool | .string => True
  | .cls c => r.IsDeclared c
  | .null | .function => False

/-- Whether a box of type `s` may stand where type `t` is expected: the same scalar type,
or a class descending from `t`'s. -/
def conforms (r : Registry) : Ty → Ty → Bool
  | .int, .int | .real, .real | .bool, .bool | .string, .string => true
  | .cls d, .cls k => r.isSubclassOf d k
  | _, _ => false

theorem conforms_self {t : Ty} (h : r.TyOk t) : r.conforms t t = true := by
  cases t <;> simp_all [TyOk, Registry.conforms, isSubclassOf_refl]

/-- The registry's well-formedness: every named type is a type a box can have, a class's
own fields are typed by such a type or by the class itself, and a declared class's
parent is declared. -/
structure Sound (r : Registry) : Prop where
  named : ∀ n t, (n, t) ∈ r.named → r.TyOk t
  fields : ∀ c k, r.get? c = some k → ∀ f ∈ k.fields, f.2 = .cls c ∨ r.TyOk f.2
  parent : ∀ c k, r.get? c = some k → k.declared = true → ∀ p, k.parent = some p → r.IsDeclared p

def Keeps (r r' : Registry) : Prop :=
  ∀ c k, r.get? c = some k → k.declared = true → r'.get? c = some k

variable {r' : Registry}

theorem Keeps.isDeclared (keeps : r.Keeps r') {c : Nat} (h : r.IsDeclared c) : r'.IsDeclared c := by
  obtain ⟨k, hk, declared⟩ := h
  exact ⟨k, keeps c k hk declared, declared⟩

theorem Keeps.tyOk (keeps : r.Keeps r') {t : Ty} (h : r.TyOk t) : r'.TyOk t := by
  cases t with
  | cls c => exact keeps.isDeclared h
  | _ => exact h

theorem Keeps.parentOf (keeps : r.Keeps r') {c : Nat} (h : r.IsDeclared c) :
    r'.parentOf c = r.parentOf c := by
  obtain ⟨k, hk, declared⟩ := h
  simp [Registry.parentOf, hk, keeps c k hk declared]

/-- Every declared class has its parent declared. A well-formed registry is sealed, and
the fields of a declared class rest on nothing more. -/
def Sealed (r : Registry) : Prop :=
  ∀ c k, r.get? c = some k → k.declared = true → ∀ p, k.parent = some p → r.IsDeclared p

theorem Sealed.parentOf_declared (sealed : r.Sealed) {c p : Nat} (h : r.IsDeclared c)
    (hp : r.parentOf c = some p) : r.IsDeclared p := by
  obtain ⟨k, hk, declared⟩ := h
  obtain ⟨k', hk', parent⟩ := parent_of_parentOf hp
  rw [hk] at hk'
  cases hk'
  exact sealed c k hk declared p parent

theorem Sound.parentOf_declared (sound : r.Sound) {c p : Nat} (h : r.IsDeclared c)
    (hp : r.parentOf c = some p) : r.IsDeclared p :=
  Sealed.parentOf_declared sound.parent h hp

theorem Keeps.chainFields_of_sealed (sealed : r.Sealed) (keeps : r.Keeps r') {c : Nat}
    (h : r.IsDeclared c) : r'.chainFields c = r.chainFields c := by
  induction c using Nat.strong_induction_on with
  | _ c ih =>
    obtain ⟨k, hk, declared⟩ := h
    rw [chainFields_eq r' c, chainFields_eq r c, keeps c k hk declared, hk,
      keeps.parentOf ⟨k, hk, declared⟩]
    split
    · rename_i p hp
      rw [ih p (lt_of_parentOf hp) (sealed.parentOf_declared ⟨k, hk, declared⟩ hp)]
    · rfl

theorem Keeps.chainFields (sound : r.Sound) (keeps : r.Keeps r') {c : Nat} (h : r.IsDeclared c) :
    r'.chainFields c = r.chainFields c :=
  keeps.chainFields_of_sealed sound.parent h

theorem Keeps.fieldTypes_of_sealed (sealed : r.Sealed) (keeps : r.Keeps r') {c : Nat}
    (h : r.IsDeclared c) : r'.fieldTypes c = r.fieldTypes c := by
  simp [Registry.fieldTypes, keeps.chainFields_of_sealed sealed h]

theorem Keeps.fieldTypes (sound : r.Sound) (keeps : r.Keeps r') {c : Nat} (h : r.IsDeclared c) :
    r'.fieldTypes c = r.fieldTypes c :=
  keeps.fieldTypes_of_sealed sound.parent h

theorem Keeps.fieldType? (sound : r.Sound) (keeps : r.Keeps r') {c : Nat} (h : r.IsDeclared c)
    (name : String) : r'.fieldType? c name = r.fieldType? c name := by
  simp [Registry.fieldType?, keeps.fieldTypes sound h]

theorem Keeps.isSubclassOf (sound : r.Sound) (keeps : r.Keeps r') {c : Nat} (h : r.IsDeclared c)
    (d : Nat) : r'.isSubclassOf c d = r.isSubclassOf c d := by
  induction c using Nat.strong_induction_on with
  | _ c ih =>
    rw [isSubclassOf_eq r' c, isSubclassOf_eq r c, keeps.parentOf h]
    split
    · rfl
    · split
      · rename_i p hp
        exact ih p (lt_of_parentOf hp) (sound.parentOf_declared h hp)
      · rfl

theorem Keeps.conforms (sound : r.Sound) (keeps : r.Keeps r') {s : Ty} (h : r.TyOk s) (t : Ty) :
    r'.conforms s t = r.conforms s t := by
  cases s <;> cases t <;> simp only [Registry.conforms]
  exact keeps.isSubclassOf sound h _

theorem Sound.isDeclared_of_isSubclassOf (sound : r.Sound) {c d : Nat} (h : r.IsDeclared c)
    (sub : r.isSubclassOf c d = true) : r.IsDeclared d := by
  induction c using Nat.strong_induction_on with
  | _ c ih =>
    rw [isSubclassOf_eq] at sub
    by_cases hcd : c = d
    · exact hcd ▸ h
    · rw [if_neg hcd] at sub
      cases hp : r.parentOf c with
      | none => simp [hp] at sub
      | some p =>
        simp only [hp] at sub
        exact ih p (lt_of_parentOf hp) (sound.parentOf_declared h hp) sub

theorem tyOk_of_override {P : Ty → Prop} {fs : List (String × Ty)} {name : String} {ty : Ty}
    (hfs : ∀ f ∈ fs, P f.2) (hty : P ty) : ∀ f ∈ override fs name ty, P f.2 := by
  unfold override
  split
  · intro f hf
    obtain ⟨g, hg, rfl⟩ := List.mem_map.mp hf
    split
    · exact hty
    · exact hfs g hg
  · intro f hf
    rcases List.mem_append.mp hf with old | new
    · exact hfs f old
    · simp only [List.mem_singleton] at new
      exact new ▸ hty

theorem tyOk_of_foldl_override {P : Ty → Prop} (own : List (String × Ty))
    {fs : List (String × Ty)} (hown : ∀ f ∈ own, P f.2) (hfs : ∀ f ∈ fs, P f.2) :
    ∀ f ∈ own.foldl (fun acc f => override acc f.1 f.2) fs, P f.2 := by
  induction own generalizing fs with
  | nil => exact hfs
  | cons g rest ih =>
    exact ih (fun f hf => hown f (List.mem_cons_of_mem g hf))
      (tyOk_of_override hfs (hown g List.mem_cons_self))

theorem Sound.chainFields_tyOk (sound : r.Sound) {c : Nat} (h : r.IsDeclared c) :
    ∀ f ∈ r.chainFields c, r.TyOk f.2 := by
  induction c using Nat.strong_induction_on with
  | _ c ih =>
    obtain ⟨k, hk, declared⟩ := h
    rw [chainFields_eq, hk]
    have own : ∀ f ∈ k.fields, r.TyOk f.2 := fun f hf => by
      rcases sound.fields c k hk f hf with self | ok
      · rw [self]
        exact ⟨k, hk, declared⟩
      · exact ok
    have inherited : ∀ f ∈ (match r.parentOf c with
        | some p => r.chainFields p
        | none => []), r.TyOk f.2 := by
      split
      · rename_i p hp
        exact ih p (lt_of_parentOf hp) (sound.parentOf_declared ⟨k, hk, declared⟩ hp)
      · intro f hf
        cases hf
    exact tyOk_of_foldl_override k.fields own inherited

theorem Sound.fieldTypes_tyOk (sound : r.Sound) {c : Nat} (h : r.IsDeclared c) {f : String × Ty}
    (hf : f ∈ r.fieldTypes c) : r.TyOk f.2 :=
  sound.chainFields_tyOk h f ((List.mergeSort_perm _ _).mem_iff.mp hf)
/-! ### What the registry operations keep -/

theorem chainFields_congr (h : r'.classes = r.classes) (c : Nat) :
    r'.chainFields c = r.chainFields c := by
  have hget : ∀ d, r'.get? d = r.get? d := fun d => by simp [Registry.get?, h]
  have hparent : ∀ d, r'.parentOf d = r.parentOf d := fun d => by simp [Registry.parentOf, hget]
  induction c using Nat.strong_induction_on with
  | _ c ih =>
    rw [chainFields_eq r' c, chainFields_eq r c, hget, hparent]
    split
    · rename_i p hp
      rw [ih p (lt_of_parentOf hp)]
    · rfl

theorem Sound.congr (sound : r.Sound) (h : r'.classes = r.classes) (hn : r'.named = r.named) :
    r'.Sound := by
  have hget : ∀ d, r'.get? d = r.get? d := fun d => by simp [Registry.get?, h]
  have hdecl : ∀ d, r'.IsDeclared d ↔ r.IsDeclared d := fun d => by simp [IsDeclared, hget]
  have hok : ∀ t, r'.TyOk t ↔ r.TyOk t := fun t => by cases t <;> simp [TyOk, hdecl]
  refine ⟨fun n t ht => (hok t).mpr (sound.named n t (hn ▸ ht)), fun c k hk f hf => ?_,
    fun c k hk declared p hp => (hdecl p).mpr (sound.parent c k (hget c ▸ hk) declared p hp)⟩
  exact (sound.fields c k (hget c ▸ hk) f hf).imp id (hok _).mpr

theorem Sound.lookup_tyOk (sound : r.Sound) {name : String} {t : Ty} (h : r.lookup name = .ok t) :
    r.TyOk t := by
  unfold lookup at h
  cases found : r.named.lookup name with
  | none => simp [found] at h
  | some t' =>
    simp only [found, Except.ok.injEq] at h
    subst h
    exact sound.named name t' (mem_of_lookup_eq_some found)

theorem Sound.lookupClass_declared (sound : r.Sound) {name : String} {c : Nat}
    (h : r.lookupClass name = .ok c) : r.IsDeclared c := by
  unfold lookupClass at h
  split at h
  · rename_i found
    cases h
    exact sound.lookup_tyOk found
  · cases h
  · cases h

theorem keeps_newClass (name : String) (parent : Option Nat) : r.Keeps (r.newClass name parent).2 :=
  fun _ _ hd _ => get?_newClass name parent hd

theorem Sealed.newClass (sealed : r.Sealed) (name : String) (parent : Option Nat) :
    (r.newClass name parent).2.Sealed := by
  intro d k hd declared p hp
  simp only [Registry.newClass, Registry.get?, Array.getElem?_push] at hd
  split at hd
  · -- the new class is not declared
    cases hd
    cases declared
  · exact (keeps_newClass name parent).isDeclared (sealed d k hd declared p hp)

theorem Sound.newClass (sound : r.Sound) (name : String) (parent : Option Nat) :
    (r.newClass name parent).2.Sound := by
  have keeps := keeps_newClass (r := r) name parent
  have fresh : ∀ d k, (r.newClass name parent).2.get? d = some k →
      r.get? d = some k ∨ k = ⟨name, parent, [], false⟩ := by
    intro d k hd
    simp only [Registry.newClass, Registry.get?, Array.getElem?_push] at hd
    split at hd
    · cases hd
      exact .inr rfl
    · exact .inl hd
  refine ⟨fun n t ht => keeps.tyOk (sound.named n t ht), fun d k hd f hf => ?_,
    Sealed.newClass sound.parent name parent⟩
  rcases fresh d k hd with old | rfl
  · exact (sound.fields d k old f hf).imp id keeps.tyOk
  · cases hf

theorem keeps_addField {c : Nat} {name : String} {ty : Ty} (h : r.addField c name ty = .ok r') :
    r.Keeps r' :=
  fun _ _ hd declared => get?_addField h hd declared

theorem Sealed.addField (sealed : r.Sealed) {c : Nat} {name : String} {ty : Ty}
    (h : r.addField c name ty = .ok r') : r'.Sealed := by
  have keeps := keeps_addField h
  intro d k hd declared p hp
  unfold Registry.addField at h
  split at h
  · cases h
    exact sealed d k hd declared p hp
  · rename_i k₀ hk₀
    split at h
    · cases h
    · rename_i undeclared
      split at h
      · cases h
      · cases h
        have hc : c < r.classes.size := (Array.getElem?_eq_some_iff.mp hk₀).1
        by_cases hcd : c = d
        · subst hcd
          simp only [Registry.get?, Array.set!, Array.getElem?_setIfInBounds_self_of_lt hc,
            Option.some.injEq] at hd
          subst hd
          exact absurd declared undeclared
        · exact keeps.isDeclared (sealed d k (by simpa [Registry.get?, hcd] using hd) declared p hp)

/-- Adding a field typed by the class itself or by a type a box can have keeps the
registry well-formed. -/
theorem Sound.addField (sound : r.Sound) {c : Nat} {name : String} {ty : Ty}
    (good : ty = .cls c ∨ r.TyOk ty) (h : r.addField c name ty = .ok r') : r'.Sound := by
  have keeps := keeps_addField h
  have sealed := Sealed.addField sound.parent h
  unfold Registry.addField at h
  split at h
  · cases h
    exact sound
  · rename_i k hk
    split at h
    · cases h
    · split at h
      · cases h
      · set k' : ClassDecl := { k with fields := k.fields ++ [(name, ty)] } with hk'
        have hr' : r' = { r with classes := r.classes.set! c k' } := by
          cases h
          rfl
        have hc : c < r.classes.size := (Array.getElem?_eq_some_iff.mp hk).1
        have get' : ∀ d, r'.get? d = if c = d then some k' else r.get? d := by
          intro d
          rw [hr']
          by_cases hcd : c = d
          · subst hcd
            simp [Registry.get?, hc]
          · simp [Registry.get?, hcd]
        refine ⟨fun n t ht => keeps.tyOk (sound.named n t (by rwa [hr'] at ht)),
          fun d k' hd f hf => ?_, sealed⟩
        rw [get'] at hd
        split at hd
        · rename_i hcd
          subst hcd
          cases hd
          rcases List.mem_append.mp hf with old | new
          · exact (sound.fields c k hk f old).imp id keeps.tyOk
          · simp only [List.mem_singleton] at new
            subst new
            exact good.imp id keeps.tyOk
        · exact (sound.fields d k' hd f hf).imp id keeps.tyOk

theorem keeps_declare {c : Nat} (h : r.declare c = .ok r') : r.Keeps r' :=
  fun _ _ hd declared => get?_declare h hd declared

theorem Sealed.declare (sealed : r.Sealed) {c : Nat} (h : r.declare c = .ok r') : r'.Sealed := by
  have keeps := keeps_declare h
  rcases declare_eq_ok h with ⟨-, rfl⟩ | ⟨k, hk, -, parentOk, rfl⟩
  · exact sealed
  · intro d k' hd declared p hp
    have hc : c < r.classes.size := (Array.getElem?_eq_some_iff.mp hk).1
    by_cases hcd : c = d
    · subst hcd
      simp only [Registry.get?, Array.set!, Array.getElem?_setIfInBounds_self_of_lt hc,
        Option.some.injEq] at hd
      subst hd
      obtain ⟨kp, hkp, pdeclared⟩ := parentOk p hp
      exact keeps.isDeclared ⟨kp, hkp, pdeclared⟩
    · exact keeps.isDeclared (sealed d k' (by simpa [Registry.get?, hcd] using hd) declared p hp)

/-- Declaring a class keeps the registry well-formed: its parent was checked declared, and
its fields typed by itself now name a declared class. -/
theorem Sound.declare (sound : r.Sound) {c : Nat} (h : r.declare c = .ok r') : r'.Sound := by
  have keeps := keeps_declare h
  have sealed := Sealed.declare sound.parent h
  rcases declare_eq_ok h with ⟨-, rfl⟩ | ⟨k, hk, -, parentOk, rfl⟩
  · exact sound
  · have hc : c < r.classes.size := (Array.getElem?_eq_some_iff.mp hk).1
    set r₁ : Registry := { r with classes := r.classes.set! c ({ k with declared := true })
                                  named := r.named ++ [(k.name, .cls c)] } with hr₁
    have nowDeclared : r₁.IsDeclared c :=
      ⟨{ k with declared := true }, by simp [r₁, Registry.get?, hc], rfl⟩
    have get' : ∀ d k', r₁.get? d = some k' →
        (c = d ∧ k' = { k with declared := true }) ∨ (c ≠ d ∧ r.get? d = some k') := by
      intro d k' hd
      by_cases hcd : c = d
      · subst hcd
        simp only [r₁, Registry.get?, Array.set!, Array.getElem?_setIfInBounds_self_of_lt hc] at hd
        exact .inl ⟨rfl, (Option.some.inj hd).symm⟩
      · exact .inr ⟨hcd, by simpa [r₁, Registry.get?, hcd] using hd⟩
    refine ⟨fun n t ht => ?_, fun d k' hd f hf => ?_, sealed⟩
    · rcases List.mem_append.mp ht with old | new
      · exact keeps.tyOk (sound.named n t old)
      · simp only [List.mem_singleton, Prod.mk.injEq] at new
        rw [new.2]
        exact nowDeclared
    · rcases get' d k' hd with ⟨rfl, rfl⟩ | ⟨-, old⟩
      · exact (sound.fields c k hk f hf).imp id keeps.tyOk
      · exact (sound.fields d k' old f hf).imp id keeps.tyOk

end Registry

end ClassScript
