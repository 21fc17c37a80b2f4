import ClassScript.Proofs.Registry

/-! How a class resolves its fields. The ancestors of a class are the class itself, its
parent, its parent's parent and so on. A name is a field of the class exactly when one of
its ancestors declares it, and its type is the one the nearest of those gives it: a
subclass's field shadows every ancestor field of its name. The ancestors of a class's
ancestor end its own chain, so a subclass has every field name of the classes it
descends from. -/
namespace ClassScript

namespace Registry

/-- Class `c`, its parent, its parent's parent, and so on. -/
def ancestors (r : Registry) (c : Nat) : List Nat :=
  c :: match h : r.parentOf c with
    | some p =>
      have : p < c := lt_of_parentOf h
      ancestors r p
    | none => []
termination_by c

variable (r : Registry)

/-- The fields class `c` declares itself, in declaration order. -/
def ownFields (c : Nat) : List (String × Ty) := ((r.get? c).map (·.fields)).getD []

/-- The type class `c` itself declares `name` with; were it declared twice, the later. -/
def declaredType? (c : Nat) (name : String) : Option Ty := (r.ownFields c).reverse.lookup name

theorem ancestors_eq (c : Nat) :
    r.ancestors c = c :: match r.parentOf c with
      | some p => r.ancestors p
      | none => [] := by
  rw [ancestors]
  split <;> rename_i h <;> simp [h]

variable {r}

/-! ### Lookups through overriding -/

theorem lookup_map_replace (fs : List (String × Ty)) (name n : String) (ty : Ty) :
    (fs.map fun f => if f.1 == name then (name, ty) else f).lookup n =
      if n = name then (if fs.any (·.1 == name) then some ty else none) else fs.lookup n := by
  induction fs with
  | nil => simp
  | cons f rest ih =>
    obtain ⟨k, v⟩ := f
    simp only [beq_iff_eq] at ih
    by_cases hn : n = k
    · subst hn
      by_cases hk : n = name
      · subst hk
        simp
      · simp [hk]
    · have skip : (n == k) = false := by simpa using hn
      by_cases hk : k = name
      · subst hk
        simp [List.lookup_cons, skip, hn, ih]
      · have other : (k == name) = false := by simpa using hk
        simp only [List.map_cons, List.any_cons, other, Bool.false_or]
        simp [List.lookup_cons, skip, ih]

theorem lookup_override (fs : List (String × Ty)) (name n : String) (ty : Ty) :
    (override fs name ty).lookup n = if n = name then some ty else fs.lookup n := by
  unfold override
  split
  · rename_i present
    rw [lookup_map_replace, if_pos present]
  · rename_i absent
    rw [List.lookup_append]
    by_cases hn : n = name
    · subst hn
      have unset : fs.lookup n = none := by
        simp only [List.any_eq_true, beq_iff_eq, not_exists, not_and] at absent
        rw [List.lookup_eq_none_iff]
        intro p hp
        exact bne_iff_ne.mpr fun same => absent p hp same.symm
      rw [unset, if_pos rfl, List.lookup_cons, beq_self_eq_true]
      rfl
    · have skip : (n == name) = false := by simpa using hn
      cases fs.lookup n <;> simp [hn, skip, List.lookup_cons]

/-- Declaring fields one after another: a name takes the type of its last declaration,
and keeps the one it had where none declares it. -/
theorem lookup_foldl_override (own base : List (String × Ty)) (n : String) :
    (own.foldl (fun acc f => override acc f.1 f.2) base).lookup n =
      (own.reverse.lookup n).or (base.lookup n) := by
  induction own generalizing base with
  | nil => simp
  | cons f rest ih =>
    obtain ⟨k, v⟩ := f
    rw [List.foldl_cons, ih, lookup_override, List.reverse_cons, List.lookup_append,
      Option.or_assoc]
    by_cases hn : n = k
    · subst hn
      cases (rest.reverse.lookup n) <;> simp
    · have skip : (n == k) = false := by simpa using hn
      simp [hn, skip, List.lookup_cons]

theorem lookup_chainFields (c : Nat) (n : String) :
    (r.chainFields c).lookup n = (r.declaredType? c n).or (match r.parentOf c with
      | some p => (r.chainFields p).lookup n
      | none => none) := by
  rw [chainFields_eq, lookup_foldl_override]
  cases r.parentOf c <;> rfl

theorem fieldType?_eq_lookup_chainFields (c : Nat) (n : String) :
    r.fieldType? c n = (r.chainFields c).lookup n := by
  apply Option.ext
  intro ty
  rw [fieldType?_eq_some_iff, lookup_eq_some_iff_mem (chainFields_keys_nodup c)]
  exact (List.mergeSort_perm _ _).mem_iff

/-! ### The nearest declaration -/

/-- A field's type is the one its nearest declaring ancestor gives it. -/
theorem fieldType?_eq_findSome? (c : Nat) (n : String) :
    r.fieldType? c n = (r.ancestors c).findSome? (r.declaredType? · n) := by
  rw [fieldType?_eq_lookup_chainFields]
  induction c using Nat.strong_induction_on with
  | _ c ih =>
    rw [lookup_chainFields, ancestors_eq, List.findSome?_cons]
    -- the class's own declaration decides; otherwise the parent's chain does
    cases hp : r.parentOf c with
    | none => cases r.declaredType? c n <;> rfl
    | some p =>
      dsimp only
      rw [ih p (lt_of_parentOf hp)]
      cases r.declaredType? c n <;> rfl

theorem declaredType?_isSome_iff (c : Nat) (n : String) :
    (r.declaredType? c n).isSome ↔ n ∈ (r.ownFields c).map Prod.fst := by
  rw [declaredType?, lookup_isSome_iff_mem_keys, List.map_reverse, List.mem_reverse]

/-- A name is a field of `c` exactly when one of its ancestors declares it. -/
theorem mem_fieldTypes_keys_iff (c : Nat) (n : String) :
    n ∈ (r.fieldTypes c).map Prod.fst ↔ ∃ k ∈ r.ancestors c, n ∈ (r.ownFields k).map Prod.fst := by
  have found : (r.fieldType? c n).isSome ↔ n ∈ (r.fieldTypes c).map Prod.fst :=
    lookup_isSome_iff_mem_keys
  rw [← found, fieldType?_eq_findSome?, List.findSome?_isSome_iff]
  simp only [declaredType?_isSome_iff]

theorem ancestors_suffix_of_isSubclassOf {c d : Nat} (h : r.isSubclassOf c d = true) :
    r.ancestors d <:+ r.ancestors c := by
  induction c using Nat.strong_induction_on with
  | _ c ih =>
    rw [isSubclassOf_eq] at h
    by_cases hcd : c = d
    · subst hcd
      exact List.suffix_refl _
    · rw [if_neg hcd] at h
      cases hp : r.parentOf c with
      | none => simp [hp] at h
      | some p =>
        simp only [hp] at h
        have inherited := ih p (lt_of_parentOf hp) h
        rw [ancestors_eq r c, hp]
        exact inherited.trans (List.suffix_cons c _)

/-- Fields resolve by the nearest declaration. Along the ancestors `c = k₀, k₁, …, kₘ` of a
class, a name is a field of `c` exactly when some `kᵢ` declares it, and its type is the one
the first `kᵢ` that declares it gives it; hence a subclass has every field name of each
class it descends from. -/
theorem fieldTypes_nearest_declaration (r : Registry) (c : Nat) :
    (∀ n, n ∈ (r.fieldTypes c).map Prod.fst ↔
      ∃ k ∈ r.ancestors c, n ∈ (r.ownFields k).map Prod.fst) ∧
    (∀ n, r.fieldType? c n = (r.ancestors c).findSome? (r.declaredType? · n)) ∧
    (∀ d, r.isSubclassOf c d = true →
      ∀ n ∈ (r.fieldTypes d).map Prod.fst, n ∈ (r.fieldTypes c).map Prod.fst) := by
  refine ⟨mem_fieldTypes_keys_iff c, fieldType?_eq_findSome? c, fun d sub n hn => ?_⟩
  obtain ⟨k, hk, declares⟩ := (mem_fieldTypes_keys_iff d n).mp hn
  exact (mem_fieldTypes_keys_iff c n).mpr
    ⟨k, (ancestors_suffix_of_isSubclassOf sub).subset hk, declares⟩

end Registry

end ClassScript
