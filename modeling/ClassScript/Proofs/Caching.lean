import ClassScript.Object.FieldCache
import ClassScript.Proofs.Registry

/-! The field cache is transparent: a registry with a field cache answers every query as
the registry without one does, whatever the cache forgets and whenever it forgets it.
The cache is never invalidated, so this rests on what it holds: only the fields of
declared classes, as they were resolved. A declared class is sealed, and its parent was
declared before it, so the whole chain of ancestors of a declared class is fixed from
then on, and its resolved fields with it. -/
namespace ClassScript

namespace FieldCache

/-- What a field cache may do: it starts empty; a lookup returns only what the cache
holds for the class, and adds nothing; an addition holds the added fields and may forget
others. A bounded cache forgets entries; none makes one up. -/
class Lawful {σ : Type} (cache : FieldCache σ) : Prop where
  empty_holds : ∀ c fields, ¬ cache.holds cache.empty c fields
  get_holds : ∀ s c fields, (cache.get s c).1 = some fields → cache.holds s c fields
  holds_get : ∀ s c d fields, cache.holds (cache.get s c).2 d fields → cache.holds s d fields
  holds_add : ∀ s c fields d fields', cache.holds (cache.add s c fields) d fields' →
    d = c ∧ fields' = fields ∨ cache.holds s d fields'

end FieldCache

namespace Lru

theorem mem_entries_of_lookup {capacity : Nat} {s : Lru capacity} {c : Nat} {fields : List (String × Ty)}
    (h : s.entries.lookup c = some fields) : (c, fields) ∈ s.entries := by
  obtain ⟨l₁, l₂, split, -⟩ := List.lookup_eq_some_iff.mp h
  rw [split]
  simp

instance lawful (capacity : Nat) : (cache capacity).Lawful where
  empty_holds _ _ h := by simp [cache] at h
  get_holds s c fields h := by
    simp only [cache, get] at h ⊢
    split at h
    · rename_i found
      cases h
      exact mem_entries_of_lookup found
    · cases h
  holds_get s c d fields h := by
    simp only [cache, get] at h ⊢
    split at h
    · rename_i fields' found
      simp only [promote] at h
      rcases List.mem_cons.mp h with same | kept
      · cases same
        exact mem_entries_of_lookup found
      · exact (List.mem_filter.mp kept).1
    · exact h
  holds_add s c fields d fields' h := by
    simp only [cache, add, promote] at h ⊢
    rcases List.mem_cons.mp (List.mem_of_mem_take h) with same | kept
    · cases same
      exact .inl ⟨rfl, rfl⟩
    · exact .inr (List.mem_filter.mp kept).1

end Lru

namespace CachedRegistry

variable {σ : Type} {cache : FieldCache σ} [cache.Lawful]

/-- A registry and its cache agree: the registry is sealed, and the cache holds only the
fields of declared classes, as the registry resolves them now. -/
structure Coherent (cache : FieldCache σ) (s : CachedRegistry σ) : Prop where
  sealed : s.registry.Sealed
  held : ∀ c fields, cache.holds s.cache c fields →
    s.registry.IsDeclared c ∧ fields = s.registry.fieldTypes c

omit [cache.Lawful] in
/-- A change of the registry that keeps its declared classes and its seal keeps what the
cache holds valid. -/
theorem Coherent.of_keeps {s : CachedRegistry σ} (coh : s.Coherent cache) {r : Registry}
    (keeps : s.registry.Keeps r) (sealed : r.Sealed) :
    ({ s with registry := r } : CachedRegistry σ).Coherent cache := by
  refine ⟨sealed, fun c fields h => ?_⟩
  obtain ⟨declared, rfl⟩ := coh.held c fields h
  exact ⟨keeps.isDeclared declared, (keeps.fieldTypes_of_sealed coh.sealed declared).symm⟩

theorem coherent_fresh {r : Registry} (sealed : r.Sealed) : (fresh cache r).Coherent cache :=
  ⟨sealed, fun c fields h => absurd h (FieldCache.Lawful.empty_holds c fields)⟩

/-- A query gives the fields the registry resolves, whether the cache held them or not,
changes only the cache, and keeps registry and cache coherent. -/
theorem resolved_spec {s : CachedRegistry σ} (coh : s.Coherent cache) (c : Nat) :
    ∃ s', s.resolved cache c = (s.registry.fieldTypes c, s') ∧ s'.registry = s.registry ∧
      s'.Coherent cache := by
  unfold resolved
  split
  · rename_i flag
    have declared : s.registry.IsDeclared c := by
      cases hk : s.registry.get? c with
      | none => simp [hk] at flag
      | some k => exact ⟨k, hk, by simpa [hk] using flag⟩
    -- what the lookup leaves is held before it, so still coherent
    have kept : ∀ d fields, cache.holds (cache.get s.cache c).2 d fields →
        s.registry.IsDeclared d ∧ fields = s.registry.fieldTypes d :=
      fun d fields h => coh.held d fields (FieldCache.Lawful.holds_get _ _ _ _ h)
    rcases hget : cache.get s.cache c with ⟨_ | fields, held⟩
    · -- a miss: the fields are resolved and added for a declared class
      rw [hget] at kept
      refine ⟨_, rfl, rfl, coh.sealed, fun d fields' h => ?_⟩
      rcases FieldCache.Lawful.holds_add _ _ _ _ _ h with ⟨rfl, rfl⟩ | old
      · exact ⟨declared, rfl⟩
      · exact kept d fields' old
    · -- a hit: the cache held the fields the registry resolves
      have hit : cache.holds s.cache c fields :=
        FieldCache.Lawful.get_holds _ _ _ (by rw [hget])
      rw [hget] at kept
      refine ⟨{ s with cache := held }, ?_, rfl, coh.sealed, kept⟩
      rw [← (coh.held c fields hit).2]
  · exact ⟨s, rfl, rfl, coh⟩

/-- One operation: the registry with a cache answers as the registry without one,
changes the registry in the same way, and stays coherent. -/
theorem perform_spec {s : CachedRegistry σ} (coh : s.Coherent cache) (op : RegistryOp) :
    (s.perform cache op).1 = (s.registry.perform op).1 ∧
      (s.perform cache op).2.registry = (s.registry.perform op).2 ∧
      (s.perform cache op).2.Coherent cache := by
  cases op with
  | newClass name parent =>
    exact ⟨rfl, rfl, coh.of_keeps (Registry.keeps_newClass name parent)
      (coh.sealed.newClass name parent)⟩
  | addField c name ty =>
    refine ⟨rfl, rfl, ?_⟩
    show ({ s with registry := (s.registry.change (s.registry.addField c name ty)).2 } :
      CachedRegistry σ).Coherent cache
    cases added : s.registry.addField c name ty with
    | ok r => exact coh.of_keeps (Registry.keeps_addField added) (coh.sealed.addField added)
    | error e => exact coh
  | declare c =>
    refine ⟨rfl, rfl, ?_⟩
    show ({ s with registry := (s.registry.change (s.registry.declare c)).2 } :
      CachedRegistry σ).Coherent cache
    cases declared : s.registry.declare c with
    | ok r => exact coh.of_keeps (Registry.keeps_declare declared) (coh.sealed.declare declared)
    | error e => exact coh
  | fieldTypes c =>
    obtain ⟨s', found, same, coh'⟩ := resolved_spec coh c
    have step : s.perform cache (.fieldTypes c) = (.fields (s.registry.fieldTypes c), s') := by
      simp only [perform, found]
    rw [step]
    exact ⟨rfl, same, coh'⟩
  | hasField c name =>
    obtain ⟨s', found, same, coh'⟩ := resolved_spec coh c
    have step : s.perform cache (.hasField c name) =
        (.has ((s.registry.fieldTypes c).lookup name).isSome, s') := by
      simp only [perform, found]
    rw [step]
    exact ⟨rfl, same, coh'⟩
  | fieldType c name =>
    obtain ⟨s', found, same, coh'⟩ := resolved_spec coh c
    have step : s.perform cache (.fieldType c name) =
        (.type ((s.registry.fieldTypes c).lookup name), s') := by
      simp only [perform, found]
    rw [step]
    exact ⟨rfl, same, coh'⟩

/-- A whole run: by induction on the operations, each step answering as the registry
without a cache and keeping the two coherent. -/
theorem performAll_spec {s : CachedRegistry σ} (coh : s.Coherent cache) (ops : List RegistryOp) :
    (s.performAll cache ops).1 = (s.registry.performAll ops).1 ∧
      (s.performAll cache ops).2.registry = (s.registry.performAll ops).2 := by
  induction ops generalizing s with
  | nil => exact ⟨rfl, rfl⟩
  | cons op ops ih =>
    obtain ⟨answer, registry, coh₁⟩ := perform_spec coh op
    obtain ⟨answers, registry'⟩ := ih coh₁
    simp only [performAll, Registry.performAll]
    rw [answer, answers, registry', registry]
    exact ⟨rfl, rfl⟩

end CachedRegistry

theorem Registry.sealed_empty (capacity : Int) : (Registry.empty capacity).Sealed := by
  intro c k hk
  simp [Registry.empty, Registry.get?] at hk

/-- The field cache is transparent: from a new registry, every sequence of operations gets
the answers of the registry without a cache, for every lawful cache and so for the cache of
the most recently used classes at every capacity. -/
theorem cached_queries_resolve {σ : Type} (cache : FieldCache σ) [cache.Lawful]
    (capacity : Int) (ops : List RegistryOp) :
    ((CachedRegistry.fresh cache (Registry.empty capacity)).performAll cache ops).1 =
      ((Registry.empty capacity).performAll ops).1 :=
  (CachedRegistry.performAll_spec
    (CachedRegistry.coherent_fresh (Registry.sealed_empty capacity)) ops).1

/-- A cache of one class, asked about a class, then about a subclass of it, which makes
it forget the first, then about the first again, answers as the registry does. -/
theorem single_entry_cache_resolves :
    ((CachedRegistry.fresh (Lru.cache 1) (Registry.empty 1)).performAll (Lru.cache 1)
        [.newClass "A" none, .addField 0 "x" .int, .declare 0, .fieldTypes 0,
          .newClass "B" (some 0), .addField 1 "y" .bool, .declare 1, .fieldTypes 1,
          .hasField 0 "x", .fieldType 1 "x"]).1 =
      ((Registry.empty 1).performAll
        [.newClass "A" none, .addField 0 "x" .int, .declare 0, .fieldTypes 0,
          .newClass "B" (some 0), .addField 1 "y" .bool, .declare 1, .fieldTypes 1,
          .hasField 0 "x", .fieldType 1 "x"]).1 :=
  cached_queries_resolve (Lru.cache 1) 1 _

end ClassScript
