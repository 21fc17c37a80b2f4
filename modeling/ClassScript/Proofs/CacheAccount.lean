import ClassScript.Proofs.Faults
import ClassScript.Proofs.TypeSafety

/-! The count of the field cache. A registry looks up through its cache declared classes
only, and each class as it declares it; so in every state a session reaches, a cache of
capacity `k` holds the smaller of `k` and the number of declared classes. -/
namespace ClassScript

namespace FieldCache

variable {σ : Type} {cache : FieldCache σ} {capacity : Nat}

/-- The laws of a cache of `capacity` entries that forgets the one used least recently, said
of its keys, most recent first: a hit moves its class to the front, and an addition puts its
class in front, forgetting the last key only when the cache is full. -/
structure Recency (cache : FieldCache σ) (capacity : Nat) : Prop where
  positive : 0 < capacity
  keys_empty : cache.keys cache.empty = []
  len_keys : ∀ s, cache.len s = (cache.keys s).length
  get_isSome : ∀ s c, (cache.get s c).1.isSome = decide (c ∈ cache.keys s)
  get_keys : ∀ s c, cache.keys (cache.get s c).2 =
    if c ∈ cache.keys s then c :: (cache.keys s).erase c else cache.keys s
  add_keys : ∀ s c fields, cache.keys (cache.add s c fields) =
    if c ∈ cache.keys s then c :: (cache.keys s).erase c
    else if (cache.keys s).length < capacity then c :: cache.keys s
    else c :: (cache.keys s).dropLast

structure Fills (cache : FieldCache σ) (capacity : Nat) (D : List Nat) (s : σ) : Prop where
  nodup : (cache.keys s).Nodup
  subset : cache.keys s ⊆ D
  length : (cache.keys s).length = min capacity D.length

section Laws

variable (laws : cache.Recency capacity)
include laws

theorem keys_request (s : σ) (c : Nat) (fields : List (String × Ty)) :
    cache.keys (cache.request s c fields) =
      if c ∈ cache.keys s then c :: (cache.keys s).erase c
      else if (cache.keys s).length < capacity then c :: cache.keys s
      else c :: (cache.keys s).dropLast := by
  have found := laws.get_isSome s c
  have kept := laws.get_keys s c
  unfold request
  split
  · rename_i f held got
    rw [got] at found kept
    have mem : c ∈ cache.keys s := by simpa using found.symm
    rw [kept, if_pos mem, if_pos mem]
  · rename_i held got
    rw [got] at found kept
    have absent : c ∉ cache.keys s := by simpa using found.symm
    rw [laws.add_keys, kept, if_neg absent, if_neg absent]

theorem request_nodup_subset {s : σ} (nodup : (cache.keys s).Nodup) (c : Nat)
    (fields : List (String × Ty)) :
    (cache.keys (cache.request s c fields)).Nodup ∧
      cache.keys (cache.request s c fields) ⊆ c :: cache.keys s := by
  rw [keys_request laws]
  split
  · exact ⟨List.nodup_cons.mpr ⟨nodup.not_mem_erase, nodup.erase c⟩,
      List.cons_subset_cons _ List.erase_subset⟩
  · rename_i absent
    split
    · exact ⟨List.nodup_cons.mpr ⟨absent, nodup⟩, List.Subset.refl _⟩
    · exact ⟨List.nodup_cons.mpr ⟨fun h => absent (List.dropLast_subset _ h),
        nodup.sublist (List.dropLast_sublist _)⟩, List.cons_subset_cons _ (List.dropLast_subset _)⟩

theorem length_request (s : σ) (c : Nat) (fields : List (String × Ty)) :
    (cache.keys (cache.request s c fields)).length =
      if c ∉ cache.keys s ∧ (cache.keys s).length < capacity then (cache.keys s).length + 1
      else (cache.keys s).length := by
  have positive := laws.positive
  rw [keys_request laws]
  by_cases held : c ∈ cache.keys s
  · have := List.length_pos_of_mem held
    simp only [held, if_true, not_true_eq_false, false_and, if_false, List.length_cons,
      List.length_erase_of_mem held]
    omega
  · by_cases room : (cache.keys s).length < capacity
    · simp [held, room]
    · simp only [held, room, if_false, not_false_eq_true, and_false, List.length_cons,
        List.length_dropLast]
      omega

/-- A lookup of a class of `D` keeps the cache filled by `D`: a miss finds it full, since
with room left it would hold every class of `D`. -/
theorem Fills.request_mem {D : List Nat} {s : σ} (fills : cache.Fills capacity D s) {c : Nat}
    (mem : c ∈ D) (fields : List (String × Ty)) : cache.Fills capacity D (cache.request s c fields) := by
  obtain ⟨nodup, subset⟩ := request_nodup_subset laws fills.nodup c fields
  refine ⟨nodup, fun d hd => ?_, ?_⟩
  · rcases List.mem_cons.mp (subset hd) with rfl | old
    · exact mem
    · exact fills.subset old
  · rw [length_request laws, if_neg, fills.length]
    rintro ⟨absent, room⟩
    have more := (List.nodup_cons.mpr ⟨absent, fills.nodup⟩).length_le_of_subset
      (List.cons_subset.mpr ⟨mem, fills.subset⟩)
    have := fills.length
    simp only [List.length_cons] at more
    omega

theorem Fills.request_new {D : List Nat} {s : σ} (fills : cache.Fills capacity D s) {c : Nat}
    (fresh : c ∉ D) (fields : List (String × Ty)) :
    cache.Fills capacity (c :: D) (cache.request s c fields) := by
  obtain ⟨nodup, subset⟩ := request_nodup_subset laws fills.nodup c fields
  have absent : c ∉ cache.keys s := fun held => fresh (fills.subset held)
  refine ⟨nodup, List.Subset.trans subset (List.cons_subset_cons _ fills.subset), ?_⟩
  have := fills.length
  rw [length_request laws, List.length_cons]
  by_cases room : (cache.keys s).length < capacity
  · rw [if_pos ⟨absent, room⟩]
    omega
  · rw [if_neg fun h => room h.2]
    omega

/-- After any lookups a cache holds distinct classes among those looked up, as many as its
capacity allows: by induction on the lookups, the earliest served first. -/
theorem fills_serve (fields : Nat → List (String × Ty)) :
    ∀ cs : List Nat, cache.Fills capacity cs.dedup (cache.serve fields cs)
  | [] => ⟨by simp [serve, laws.keys_empty], by simp [serve, laws.keys_empty],
      by simp [serve, laws.keys_empty]⟩
  | c :: cs => by
    by_cases seen : c ∈ cs
    · rw [List.dedup_cons_of_mem seen]
      exact (fills_serve fields cs).request_mem laws (List.mem_dedup.mpr seen) _
    · rw [List.dedup_cons_of_notMem seen]
      exact (fills_serve fields cs).request_new laws (mt List.mem_dedup.mp seen) _

theorem len_serve (fields : Nat → List (String × Ty)) (cs : List Nat) :
    cache.len (cache.serve fields cs) = min capacity cs.dedup.length := by
  rw [laws.len_keys, (fills_serve laws fields cs).length]

end Laws

end FieldCache

namespace Lru

variable {capacity : Nat} {s : Lru capacity} {c : Nat}

theorem not_mem_keys_of_lookup (missing : s.entries.lookup c = none) :
    c ∉ s.entries.map Prod.fst := fun held => by
  have found := lookup_isSome_iff_mem_keys.mpr held
  rw [missing] at found
  cases found

theorem isSome_get (s : Lru capacity) (c : Nat) :
    (s.get c).1.isSome = decide (c ∈ s.entries.map Prod.fst) := by
  unfold get
  split
  · rename_i fields found
    simp [mem_keys_of_lookup found]
  · rename_i missing
    simp [not_mem_keys_of_lookup missing]

theorem keys_get (s : Lru capacity) (c : Nat) :
    (s.get c).2.entries.map Prod.fst =
      if c ∈ s.entries.map Prod.fst then c :: (s.entries.map Prod.fst).erase c
      else s.entries.map Prod.fst := by
  unfold get
  split
  · rename_i fields found
    dsimp only
    rw [if_pos (mem_keys_of_lookup found), keys_promote, s.nodup.erase_eq_filter]
  · rename_i missing
    rw [if_neg (not_mem_keys_of_lookup missing)]

/-- An addition refreshes a class held; it puts a new class first, and forgets the last
entry, the least recently used, only when the cache is full. -/
theorem keys_add (positive : 0 < capacity) (s : Lru capacity) (c : Nat)
    (fields : List (String × Ty)) :
    (s.add c fields).entries.map Prod.fst =
      if c ∈ s.entries.map Prod.fst then c :: (s.entries.map Prod.fst).erase c
      else if (s.entries.map Prod.fst).length < capacity then c :: s.entries.map Prod.fst
      else c :: (s.entries.map Prod.fst).dropLast := by
  unfold add
  dsimp only
  rw [List.map_take, keys_promote]
  have bounded : (s.entries.map Prod.fst).length ≤ capacity := by
    simpa using s.bounded
  by_cases held : c ∈ s.entries.map Prod.fst
  · have := List.length_pos_of_mem held
    rw [if_pos held, ← s.nodup.erase_eq_filter, List.take_of_length_le]
    rw [List.length_cons, List.length_erase_of_mem held]
    omega
  · have kept : (s.entries.map Prod.fst).filter (· != c) = s.entries.map Prod.fst :=
      List.filter_eq_self.mpr fun d hd => by
        simpa using fun same : d = c => held (same ▸ hd)
    rw [if_neg held, kept]
    by_cases room : (s.entries.map Prod.fst).length < capacity
    · rw [if_pos room, List.take_of_length_le (by rw [List.length_cons]; omega)]
    · obtain ⟨k, rfl⟩ : ∃ k, capacity = k + 1 := ⟨capacity - 1, by omega⟩
      have full : (s.entries.map Prod.fst).length = k + 1 := by omega
      rw [if_neg room, List.take_succ_cons, List.dropLast_eq_take, full]
      rfl

/-- The cache of the classes used most recently keeps the laws of such a cache at every
positive capacity. -/
theorem recency (positive : 0 < capacity) : (cache capacity).Recency capacity where
  positive := positive
  keys_empty := rfl
  len_keys s := by simp [cache]
  get_isSome := isSome_get
  get_keys := keys_get
  add_keys := keys_add positive

end Lru

namespace Registry

variable {r r' : Registry} {c d : Nat}

def declaredClasses (r : Registry) : List Nat :=
  (List.range r.classes.size).filter fun c => ((r.get? c).map (·.declared)).getD false

theorem mem_declaredClasses : c ∈ r.declaredClasses ↔ r.IsDeclared c := by
  simp only [declaredClasses, List.mem_filter, List.mem_range]
  constructor
  · rintro ⟨-, declared⟩
    cases hk : r.get? c with
    | none => simp [hk] at declared
    | some k => exact ⟨k, hk, by simpa [hk] using declared⟩
  · rintro ⟨k, hk, declared⟩
    exact ⟨(Array.getElem?_eq_some_iff.mp hk).1, by simp [hk, declared]⟩

theorem declaredClasses_nodup (r : Registry) : r.declaredClasses.Nodup :=
  List.nodup_range.filter _

theorem perm_declaredClasses {l : List Nat} (nodup : l.Nodup)
    (mem : ∀ c, c ∈ l ↔ r.IsDeclared c) : l.Perm r.declaredClasses :=
  (List.perm_ext_iff_of_nodup nodup r.declaredClasses_nodup).mpr fun c => by
    rw [mem, mem_declaredClasses]

/-! ### Lookups and declarations -/

@[simp] theorem consult_capacity (r : Registry) (c : Nat) :
    (r.consult c).capacity = r.capacity := by
  unfold consult
  split
  · split <;> rfl
  · rfl

@[simp] theorem isDeclared_consult : (r.consult c).IsDeclared d ↔ r.IsDeclared d := by
  simp [IsDeclared, get?]

theorem mem_lookups_consult :
    d ∈ (r.consult c).lookups ↔ d ∈ r.lookups ∨ d = c ∧ r.IsDeclared c := by
  unfold consult
  split
  · rename_i k hk
    split
    · rename_i declared
      simp [IsDeclared, hk, declared, or_comm]
    · rename_i undeclared
      simp [IsDeclared, hk, undeclared]
  · rename_i hk
    simp [IsDeclared, hk]

/-- A successful declaration keeps the lookups and the capacity, and declares class `c`
when it exists. -/
theorem isDeclared_declare (hd : r.declare c = .ok r') :
    r'.lookups = r.lookups ∧ r'.capacity = r.capacity ∧
      ∀ d, r'.IsDeclared d ↔ r.IsDeclared d ∨ d = c ∧ (r.get? c).isSome := by
  rcases declare_eq_ok hd with ⟨absent, rfl⟩ | ⟨k, hk, -, -, rfl⟩
  · refine ⟨rfl, rfl, fun d => ?_⟩
    simp [absent]
  · have hc : c < r.classes.size := (Array.getElem?_eq_some_iff.mp hk).1
    refine ⟨rfl, rfl, fun d => ?_⟩
    by_cases hcd : c = d
    · subst hcd
      simp [IsDeclared, get?, hc]
    · simp [IsDeclared, get?, hcd, Ne.symm hcd]

theorem addField_size {name : String} {ty : Ty} (h : r.addField c name ty = .ok r') :
    r'.classes.size = r.classes.size := by
  unfold addField at h
  split at h
  · cases h
    rfl
  · split at h
    · cases h
    · split at h
      · cases h
      · cases h
        simp

/-! ### The account -/

/-- The lookups of `r` through its field cache are right: they are of the declared
classes, every one of them. -/
structure Accounted (r : Registry) : Prop where
  mem_iff : ∀ c, c ∈ r.lookups ↔ r.IsDeclared c

theorem accounted_empty (capacity : Int) : (empty capacity).Accounted :=
  ⟨fun c => by simp [empty, IsDeclared, get?]⟩

/-- With the lookups right, a cache after them holds as many classes as are declared, up to
its capacity. -/
theorem Accounted.len_serve {σ : Type} {cache : FieldCache σ} {capacity : Nat}
    (laws : cache.Recency capacity) (h : r.Accounted) :
    cache.len (cache.serve r.fieldTypes r.lookups) = min capacity r.declaredClasses.length := by
  have perm := perm_declaredClasses (List.nodup_dedup r.lookups) fun c => by
    rw [List.mem_dedup, h.mem_iff]
  rw [FieldCache.len_serve laws, perm.length_eq]

theorem Accounted.consult (h : r.Accounted) (c : Nat) : (r.consult c).Accounted := by
  refine ⟨fun d => ?_⟩
  rw [mem_lookups_consult, h.mem_iff, isDeclared_consult]
  constructor
  · rintro (declared | ⟨rfl, declared⟩) <;> exact declared
  · exact .inl

theorem Accounted.foldl_consult (h : r.Accounted) (cs : List Nat) :
    (cs.foldl Registry.consult r).Accounted := by
  induction cs generalizing r with
  | nil => exact h
  | cons c cs ih => exact ih (h.consult c)

theorem Accounted.of_sameDeclared (h : r.Accounted) (same : r.SameDeclared r') : r'.Accounted :=
  ⟨fun d => by rw [same.lookups, h.mem_iff, same.declared]⟩

theorem Accounted.declare_consult (h : r.Accounted) (hd : r.declare c = .ok r') :
    (r'.consult c).Accounted := by
  obtain ⟨lookups, -, declares⟩ := isDeclared_declare hd
  refine ⟨fun d => ?_⟩
  rw [mem_lookups_consult, lookups, h.mem_iff, isDeclared_consult, declares c, declares d]
  constructor
  · rintro (declared | ⟨rfl, declared | ⟨-, made⟩⟩)
    · exact .inl declared
    · exact .inl declared
    · exact .inr ⟨rfl, made⟩
  · rintro (declared | ⟨rfl, made⟩)
    · exact .inl declared
    · exact .inr ⟨rfl, .inr ⟨rfl, made⟩⟩

@[simp] theorem foldl_consult_classes (r : Registry) (cs : List Nat) :
    (cs.foldl Registry.consult r).classes = r.classes := by
  induction cs generalizing r with
  | nil => rfl
  | cons c cs ih => rw [List.foldl_cons, ih, consult_classes]

@[simp] theorem foldl_consult_capacity (r : Registry) (cs : List Nat) :
    (cs.foldl Registry.consult r).capacity = r.capacity := by
  induction cs generalizing r with
  | nil => rfl
  | cons c cs ih => rw [List.foldl_cons, ih, consult_capacity]

theorem declaredClasses_congr (h : r'.classes = r.classes) :
    r'.declaredClasses = r.declaredClasses := by
  simp [declaredClasses, get?, h]

theorem not_isDeclared_size (r : Registry) : ¬ r.IsDeclared r.classes.size := by
  rintro ⟨k, hk, -⟩
  simp [get?] at hk

theorem length_declaredClasses_congr (same : ∀ c, r'.IsDeclared c ↔ r.IsDeclared c) :
    r'.declaredClasses.length = r.declaredClasses.length :=
  (perm_declaredClasses r'.declaredClasses_nodup fun c => by
    rw [mem_declaredClasses, same]).length_eq

theorem length_declaredClasses_of_declares (fresh : ¬ r.IsDeclared c)
    (declares : ∀ d, r'.IsDeclared d ↔ r.IsDeclared d ∨ d = c) :
    r'.declaredClasses.length = r.declaredClasses.length + 1 := by
  have nodup : (r.declaredClasses ++ [c]).Nodup :=
    r.declaredClasses_nodup.append (List.nodup_singleton c) (by simpa [mem_declaredClasses])
  have perm := perm_declaredClasses (r := r') nodup fun d => by
    rw [List.mem_append, mem_declaredClasses, List.mem_singleton, declares]
  rw [← perm.length_eq, List.length_append, List.length_singleton]

end Registry

namespace Machine

def OnlyConsults (m m' : Machine) : Prop :=
  ∃ cs : List Nat, m'.registry = cs.foldl Registry.consult m.registry

instance : Std.Refl OnlyConsults := ⟨fun _ => ⟨[], rfl⟩⟩

instance : IsTrans Machine OnlyConsults :=
  ⟨fun _ _ _ ⟨cs, h⟩ ⟨cs', h'⟩ => ⟨cs ++ cs', by rw [List.foldl_append, ← h, h']⟩⟩

structure KeepsAccount (m m' : Machine) : Prop where
  capacity : m'.registry.capacity = m.registry.capacity
  accounted : m.registry.Accounted → m'.registry.Accounted

instance : Std.Refl KeepsAccount := ⟨fun _ => ⟨rfl, id⟩⟩

instance : IsTrans Machine KeepsAccount :=
  ⟨fun _ _ _ h h' => ⟨h'.capacity.trans h.capacity, h'.accounted ∘ h.accounted⟩⟩

variable {m m' : Machine}

theorem OnlyConsults.keepsAccount (h : m.OnlyConsults m') : m.KeepsAccount m' := by
  obtain ⟨cs, h⟩ := h
  exact ⟨by rw [h, Registry.foldl_consult_capacity], fun acc => h ▸ acc.foldl_consult cs⟩

theorem OnlyConsults.declaredClasses (h : m.OnlyConsults m') :
    m'.registry.declaredClasses = m.registry.declaredClasses := by
  obtain ⟨cs, h⟩ := h
  exact Registry.declaredClasses_congr (by rw [h, Registry.foldl_consult_classes])

theorem KeepsTypes.keepsAccount (h : m.KeepsTypes m') : m.KeepsAccount m' :=
  ⟨h.registry.capacity, fun acc => acc.of_sameDeclared h.registry⟩

/-- `m'` has as many classes as `m` and declares the same ones: fields may have been
added to classes not yet declared. -/
structure KeepsClasses (m m' : Machine) : Prop where
  registry : m.registry.SameDeclared m'.registry
  size : m'.registry.classes.size = m.registry.classes.size

instance : Std.Refl KeepsClasses := ⟨fun m => ⟨Std.Refl.refl m.registry, rfl⟩⟩

instance : IsTrans Machine KeepsClasses :=
  ⟨fun _ _ _ h h' => ⟨IsTrans.trans _ _ _ h.registry h'.registry, h'.size.trans h.size⟩⟩

end Machine

namespace Act

variable {R : Machine → Machine → Prop}

/-! ### Evaluation through its effects

An expression acts on the machine only by writing the store, printing, and looking the
fields of classes up; a relation respected by each of these is respected by every
evaluation. -/

/-- A relation respected by every step that writes the store, prints, or looks fields
up. -/
structure Respects.Stores (R : Machine → Machine → Prop) : Prop where
  allocs : ∀ cell, Respects R (alloc cell)
  setsCell : ∀ a cell, Respects R (setCell a cell)
  freshIds : Respects R freshId
  newTables : ∀ t, Respects R (newTable t)
  setsTable : ∀ i t, Respects R (setTable i t)
  emits : ∀ s, Respects R (emit s)
  consults : ∀ c, Respects R (consult c)

section Stores

variable [Std.Refl R] [IsTrans Machine R] (st : Respects.Stores R)
include st

theorem respects_setValue (target v : Value) : Respects R (setValue target v) := by
  cases target with
  | null => exact respects_fault _
  | builtin f => exact respects_fault _
  | ref a =>
    refine respects_get.bind fun m => ?_
    split
    · exact (respects_asInt v).bind fun _ => st.setsCell _ _
    · exact (respects_asReal v).bind fun _ => st.setsCell _ _
    · exact (respects_asBool v).bind fun _ => st.setsCell _ _
    · exact (respects_text st.consults v).bind fun _ => st.setsCell _ _
    · refine respects_get.bind fun m' => ?_
      split
      · exact st.setsCell _ _
      · exact st.setsCell _ _
      · exact (respects_typeName _).bind fun _ => respects_get.bind fun _ => respects_fault _
    · exact respects_pure _

theorem respects_parseInto (target : Value) (s : String) : Respects R (parseInto target s) := by
  cases target with
  | null => exact respects_fault _
  | builtin f => exact respects_fault _
  | ref a =>
    refine respects_get.bind fun m => ?_
    split
    · split
      · exact st.setsCell _ _
      · exact respects_fault _
    · split
      · exact st.setsCell _ _
      · exact respects_fault _
    · split
      · exact st.setsCell _ _
      · exact respects_fault _
    · exact st.setsCell _ _
    · exact respects_get.bind fun _ => respects_fault _
    · exact respects_pure _

omit [Std.Refl R] in
theorem respects_newObject (c : Nat) : Respects R (newObject c) :=
  st.freshIds.bind fun _ => st.allocs _

theorem respects_newDefault (t : Ty) : Respects R (newDefault t) := by
  cases t with
  | cls c => exact respects_newObject st c
  | null => exact respects_pure _
  | function => exact respects_pure _
  | int => exact st.allocs _
  | real => exact st.allocs _
  | bool => exact st.allocs _
  | string => exact st.allocs _

theorem respects_initializeFields (a : Nat) : Respects R (initializeFields a) := by
  refine respects_get.bind fun m => ?_
  split
  · refine (st.consults _).bind fun _ => respects_get.bind fun _ => ?_
    exact (respects_mapM _ _ fun (f : String × Ty) => (respects_newDefault st f.2).bind fun _ =>
      respects_pure _).bind fun values => (st.newTables values).bind fun _ => st.setsCell _ _
  · exact respects_pure _

theorem respects_setField (a : Nat) (name : String) (v : Value) :
    Respects R (setField a name v) := by
  refine respects_get.bind fun m => ?_
  split
  · exact respects_fault _
  · refine (respects_visible st.consults _ _ _).bind fun _ => ?_
    exact Respects.ite (st.setsTable _ _) (respects_fault _)
  · exact respects_fault _

theorem respects_clone (v : Value) : Respects R (clone v) := by
  cases v with
  | null => exact respects_pure _
  | builtin f => exact respects_pure _
  | ref a =>
    refine respects_get.bind fun m => ?_
    split
    · refine (respects_newObject st _).bind fun copy => ?_
      dsimp only
      split
      · refine respects_get.bind fun _ => (st.newTables _).bind fun _ =>
          respects_get.bind fun _ => ?_
        split
        · exact (st.setsCell _ _).bind fun _ => respects_pure _
        · exact respects_pure _
      · exact respects_pure _
    · exact st.allocs _
    · exact respects_pure _

theorem respects_fieldValue (a : Nat) (name : String) (v : Value) :
    Respects R (fieldValue a name v) := by
  refine respects_get.bind fun _ => (respects_fieldType st.consults _ _).bind fun ft => ?_
  split
  · exact respects_fault _
  · refine (respects_checkAssignable _ v).bind fun _ => respects_get.bind fun _ => ?_
    dsimp only
    split
    · exact Respects.ite (respects_pure _) (respects_fault _)
    · exact Respects.ite (respects_newDefault st _) (respects_fault _)
    · exact (respects_newDefault st _).bind fun box =>
        (respects_setValue st box _).bind fun _ => respects_pure _

theorem respects_callBuiltin (b : Builtin) (args : List Value) :
    Respects R (callBuiltin b args) := by
  unfold callBuiltin
  split
  · exact (respects_text st.consults _).bind fun _ => (st.emits _).bind fun _ => respects_pure _
  · exact (respects_text st.consults _).bind fun _ => st.allocs _
  · exact respects_clone st _
  · exact respects_get.bind fun _ => st.allocs _
  · exact (respects_text st.consults _).bind fun _ =>
      (respects_parseInto st _ _).bind fun _ => respects_pure _
  · exact respects_pure _

end Stores

section Evaluation

variable [Std.Refl R] [IsTrans Machine R]

mutual

/-- A relation respected by the effects of evaluation is respected by every evaluation:
by recursion on the expression. -/
theorem respects_eval (st : Respects.Stores R) (scope : Scope) :
    ∀ e : Expr, Respects R (eval scope e)
  | .literal l => by
    simp only [eval]
    exact respects_literal (fun cell _ => st.allocs cell) l
  | .grouping e => by
    simp only [eval]
    exact respects_eval st scope e
  | .var name => by
    simp only [eval]
    split
    · exact respects_pure _
    · exact (respects_fault _).atLine _
  | .assign name rhs => by
    simp only [eval]
    refine (respects_eval st scope rhs).bind fun v => ?_
    split
    · exact (respects_fault _).atLine _
    · exact respects_get.bind fun _ => ((respects_checkAssignable _ _).atLine _).bind fun _ =>
        (((respects_setValue st _ _).within _).atLine _).bind fun _ => respects_pure _
  | .unary op line e => by
    simp only [eval]
    exact (respects_eval st scope e).bind fun v =>
      (respects_unary (fun cell _ => st.allocs cell) op v).atLine line
  | .binary op line l r => by
    simp only [eval]
    exact (respects_eval st scope l).bind fun lv => (respects_eval st scope r).bind fun rv =>
      (respects_binary (fun cell _ => st.allocs cell) st.consults op lv rv).atLine line
  | .logical op line l r => by
    simp only [eval]
    refine (respects_eval st scope l).bind fun lv => ((respects_asBool lv).atLine line).bind ?_
    intro truthy
    cases op with
    | or => exact Respects.ite (respects_pure _) (respects_eval st scope r)
    | and => exact Respects.ite (respects_eval st scope r) (respects_pure _)
  | .call callee line args => by
    simp only [eval]
    refine (respects_eval st scope callee).bind fun f => (respects_evalAll st scope args).bind ?_
    intro vs
    split
    · exact Respects.ite ((respects_fault _).atLine _)
        (((respects_callBuiltin st _ _).within _).atLine _)
    · exact (respects_typeName _).bind fun _ => (respects_fault _).atLine _
  | .new cls => by
    simp only [eval]
    refine respects_get.bind fun _ => ((respects_ofExcept _).atLine _).bind fun c => ?_
    refine (respects_newObject st c).bind fun obj => ?_
    split
    · exact (respects_initializeFields st _).bind fun _ => respects_pure _
    · exact respects_pure _
  | .get obj field => by
    simp only [eval]
    exact (respects_eval st scope obj).bind fun v => (respects_instanceBox v field).bind fun a =>
      (respects_getField st.consults a field.text).atLine _
  | .set obj field rhs => by
    simp only [eval]
    exact (respects_eval st scope obj).bind fun o => (respects_instanceBox o field).bind fun a =>
      (respects_eval st scope rhs).bind fun v =>
        ((respects_fieldValue st a field.text v).atLine _).bind fun stored =>
          ((respects_setField st a field.text stored).atLine _).bind fun _ => respects_pure _

theorem respects_evalAll (st : Respects.Stores R) (scope : Scope) :
    ∀ es : List Expr, Respects R (evalAll scope es)
  | [] => by
    simp only [evalAll]
    exact respects_pure _
  | e :: es => by
    simp only [evalAll]
    exact (respects_eval st scope e).bind fun _ => (respects_evalAll st scope es).bind fun _ =>
      respects_pure _

end

theorem respects_declareVar_of_stores (st : Respects.Stores R) (scope : Scope)
    (type name : Name) (init : Option Expr) : Respects R (declareVar scope type name init) :=
  respects_declareVar (respects_eval st) (respects_newDefault st) (respects_setValue st)
    scope type name init

end Evaluation

/-! ### The registry through evaluation and declarations -/

theorem onlyConsults_stores : Respects.Stores Machine.OnlyConsults where
  allocs _ _ := ⟨[], rfl⟩
  setsCell _ _ _ := ⟨[], rfl⟩
  freshIds _ := ⟨[], rfl⟩
  newTables _ _ := ⟨[], rfl⟩
  setsTable _ _ _ := ⟨[], rfl⟩
  emits _ _ := ⟨[], rfl⟩
  consults c _ := ⟨[c], rfl⟩

theorem keepsAccount_declare (c line : Nat) :
    Respects Machine.KeepsAccount (atLine line (updateRegistry (·.declare c)) >>= fun _ => consult c) := by
  intro m
  rw [final_bind]
  cases hrun : (atLine line (updateRegistry (·.declare c))).run m with
  | error e m' =>
    -- a declaration that fails leaves the machine as it was
    obtain rfl : m = m' := ((updateRegistry_onFault _).atLine line) m e m' hrun
    exact Std.Refl.refl m
  | ok u m' =>
    have declared := final_of_ok hrun
    rw [final_atLine, final_updateRegistry] at declared
    cases hd : m.registry.declare c with
    | error e =>
      rw [hd] at declared
      subst declared
      exact ⟨Registry.consult_capacity _ _, fun acc => acc.consult c⟩
    | ok r' =>
      rw [hd] at declared
      subst declared
      obtain ⟨-, capacity, -⟩ := Registry.isDeclared_declare hd
      exact ⟨(Registry.consult_capacity _ _).trans capacity, fun acc => acc.declare_consult hd⟩

theorem respects_addFields [Std.Refl R] [IsTrans Machine R] (name : Name) (c : Nat)
    (fields : List FieldDecl)
    (adds : ∀ (line : Nat) (field : String) (ty : Ty),
      Respects R (atLine line (updateRegistry (·.addField c field ty)))) :
    Respects R (forIn fields PUnit.unit fun f _ => do
      let ft ← if f.type.text = name.text then pure (Ty.cls c)
        else atLine f.type.line (ofExcept ((← get).registry.lookup f.type.text))
      atLine f.name.line (updateRegistry (·.addField c f.name.text ft))
      pure (ForInStep.yield PUnit.unit) : Act PUnit) := by
  apply respects_forIn
  intro f _
  apply Respects.ite
  · exact (respects_pure _).bind fun ft => (adds _ _ ft).bind fun _ => respects_pure _
  · exact respects_get.bind fun _ => ((respects_ofExcept _).atLine _).bind fun ft =>
      (adds _ _ ft).bind fun _ => respects_pure _

theorem keepsAccount_declareClass (name : Name) (parent : Option Name) (fields : List FieldDecl) :
    Respects Machine.KeepsAccount (declareClass name parent fields) := by
  unfold declareClass
  split
  on_goal 1 => refine respects_get.bind fun _ =>
    Respects.bind (((respects_ofExcept _).atLine _).map _) fun super => ?_
  on_goal 2 => refine (respects_pure _).bind fun super => ?_
  -- the class is made and filled without a change to the declared classes, then declared
  all_goals
    dsimp only
    refine Respects.bind (fun m => Machine.KeepsTypes.keepsAccount
      ⟨rfl, Registry.sameDeclared_newClass _ _ _⟩) fun c => ?_
    refine Respects.bind ?_ fun _ => keepsAccount_declare c name.line
    exact respects_addFields name c fields fun line _ _ => Respects.atLine line fun m =>
      Machine.KeepsTypes.keepsAccount
        (keepsTypes_updateRegistry _ (fun _ _ h => Registry.sameDeclared_addField h) m)

theorem run_updateRegistry_ok {g : Registry → Except Fault.Cause Registry} {m m' : Machine}
    {u : Unit} (h : (updateRegistry g).run m = .ok u m') :
    ∃ r', g m.registry = .ok r' ∧ m' = { m with registry := r' } := by
  unfold updateRegistry at h
  simp only [EStateM.run_bind, EStateM.run_get] at h
  cases hg : g m.registry with
  | error e =>
    rw [hg] at h
    cases h
  | ok r' =>
    rw [hg] at h
    cases h
    exact ⟨r', rfl, rfl⟩

theorem keepsClasses_addField (c : Nat) (name : String) (ty : Ty) :
    Respects Machine.KeepsClasses (updateRegistry (·.addField c name ty)) := by
  intro m
  rw [final_updateRegistry]
  cases hf : m.registry.addField c name ty with
  | error e => exact Std.Refl.refl m
  | ok r' => exact ⟨Registry.sameDeclared_addField hf, Registry.addField_size hf⟩

/-- A class declaration that succeeds declares one class more: the class it makes, whose
index is the number of classes before it. -/
theorem declareClass_ok_declares {name : Name} {parent : Option Name} {fields : List FieldDecl}
    {m m' : Machine} {u : Unit} (h : (declareClass name parent fields).run m = .ok u m') (d : Nat) :
    m'.registry.IsDeclared d ↔ m.registry.IsDeclared d ∨ d = m.registry.classes.size := by
  unfold declareClass at h
  split at h
  on_goal 1 =>
    obtain ⟨_, _, hget, looked⟩ := run_bind_ok h
    obtain ⟨rfl, rfl⟩ := run_get_ok hget
    obtain ⟨super, m₁, hsuper, rest⟩ := run_bind_ok looked
    obtain rfl := (Respects.state_of_ok (((respects_ofExcept _).atLine _).map _) hsuper).symm
  on_goal 2 =>
    obtain ⟨super, m₁, hsuper, rest⟩ := run_bind_ok h
    obtain ⟨rfl, rfl⟩ := run_pure_ok hsuper
  -- with a parent or without, the class is made, filled, declared and looked up
  all_goals
    obtain ⟨c, m₂, made, rest⟩ := run_bind_ok rest
    cases made
    obtain ⟨_, m₃, filled, rest⟩ := run_bind_ok rest
    obtain ⟨_, m₄, declared, consulted⟩ := run_bind_ok rest
    cases consulted
    obtain ⟨r', hd, rfl⟩ := run_updateRegistry_ok (run_atLine_ok.mp declared)
    have kept := Respects.of_ok (respects_addFields name _ fields fun line field ty =>
      (keepsClasses_addField m.registry.classes.size field ty).atLine line) filled
    have exists_c : (m₃.registry.get? m.registry.classes.size).isSome := by
      have size := kept.size
      simp only [Array.size_push] at size
      simp [Registry.get?, size]
    simp only [Registry.isDeclared_consult]
    rw [(Registry.isDeclared_declare hd).2.2, kept.registry.declared]
    exact or_congr ((Registry.sameDeclared_newClass m.registry name.text _).declared d)
      (by simp [exists_c])

theorem keepsAccount_exec (n : Nat) (stmt : Stmt) (scope : Scope) :
    Respects Machine.KeepsAccount (exec n stmt scope) :=
  have evals : ∀ scope e, Respects Machine.KeepsAccount (eval scope e) := fun scope e m =>
    (respects_eval onlyConsults_stores scope e m).keepsAccount
  respects_exec ⟨evals, fun scope type name init m =>
    (respects_declareVar_of_stores onlyConsults_stores scope type name init m).keepsAccount,
    keepsAccount_declareClass⟩ n stmt scope

end Act

namespace Session

/-- Running sources one after another keeps the field-cache account of the machine, also
through sources that are rejected or stop at a fault. -/
theorem keepsAccount_steps (s : Session) (sources : List String) :
    s.machine.KeepsAccount (sources.foldl (fun s source => (s.step source).2) s).machine := by
  induction sources generalizing s with
  | nil => exact Std.Refl.refl _
  | cons source rest ih =>
    exact IsTrans.trans _ _ _
      (step_respects (fun _ _ => Act.keepsAccount_exec _ _ _) (fun _ => ⟨rfl, id⟩) s source)
      (ih _)

/-- The field cache holds as many classes as have been declared, up to its capacity: after
any sources run on a session, whatever faults they stopped at, every cache with the laws of
`Recency`, served the session's lookups, holds the smaller of its capacity and the number
of declared classes, and so does the session's own cache, of size `n`, or 128 when `n ≤ 0`. -/
theorem field_cache_counts_declared_classes :
    (∀ (scope : Scope) (e : Expr) (m : Machine), ∃ cs : List Nat,
      ((Act.eval scope e).final m).registry = cs.foldl Registry.consult m.registry) ∧
    (∀ (scope : Scope) (type name : Name) (init : Option Expr) (m : Machine), ∃ cs : List Nat,
      ((Act.declareVar scope type name init).final m).registry =
        cs.foldl Registry.consult m.registry) ∧
    (∀ (name : Name) (parent : Option Name) (fields : List FieldDecl) (m m' : Machine)
      (f : Fault), (Act.declareClass name parent fields).run m = .error f m' →
        m'.registry.declaredClasses.length = m.registry.declaredClasses.length) ∧
    (∀ (name : Name) (parent : Option Name) (fields : List FieldDecl) (m m' : Machine)
      (u : Unit), (Act.declareClass name parent fields).run m = .ok u m' →
        m'.registry.declaredClasses.length = m.registry.declaredClasses.length + 1) ∧
    ∀ (n : Int) (sources : List String),
      let s := sources.foldl (fun s source => (s.step source).2) (start n)
      (∀ {σ : Type} (cache : FieldCache σ) (capacity : Nat), cache.Recency capacity →
        cache.len (cache.serve s.machine.registry.fieldTypes s.machine.registry.lookups) =
          min capacity s.machine.registry.declaredClasses.length) ∧
      s.machine.registry.cachedClasses =
        min (if n ≤ 0 then 128 else n.toNat) s.machine.registry.declaredClasses.length := by
  refine ⟨fun scope e m => Act.respects_eval Act.onlyConsults_stores scope e m,
    fun scope type name init m =>
      Act.respects_declareVar_of_stores Act.onlyConsults_stores scope type name init m,
    fun name parent fields m m' f failed => ?_, fun name parent fields m m' u declared => ?_,
    fun n sources => ?_⟩
  · -- a failed declaration declares nothing
    exact Registry.length_declaredClasses_congr
      (Act.keepsTypes_declareClass_onFault name parent fields m f m' failed).registry.declared
  · exact Registry.length_declaredClasses_of_declares (Registry.not_isDeclared_size _)
      (Act.declareClass_ok_declares declared)
  · have kept := keepsAccount_steps (start n) sources
    have accounted := kept.accounted (Registry.accounted_empty n)
    have capacity : (sources.foldl (fun s source => (s.step source).2) (start n)).machine.registry.capacity =
        if n ≤ 0 then 128 else n.toNat := kept.capacity
    have positive : 0 < (if n ≤ 0 then 128 else n.toNat) := by
      split
      · decide
      · omega
    refine ⟨fun cache capacity laws => accounted.len_serve laws, ?_⟩
    -- the session's own cache is the one of its registry's capacity
    simp only [Registry.cachedClasses]
    rw [accounted.len_serve (Lru.recency (capacity ▸ positive)), capacity]

/-- The session's own cache of one class, after a class declaration and a lookup of
another class that fails, counts the one declared class. -/
theorem single_class_cache_counts_one :
    let s := ["class A \x7b int x; \x7d", "print(new B);"].foldl
      (fun s source => (s.step source).2) (start 1)
    (Lru.cache 1).len ((Lru.cache 1).serve s.machine.registry.fieldTypes s.machine.registry.lookups) =
      min 1 s.machine.registry.declaredClasses.length :=
  (field_cache_counts_declared_classes.2.2.2.2 1 _).1 (Lru.cache 1) 1 (Lru.recency (by decide))

end Session

end ClassScript
