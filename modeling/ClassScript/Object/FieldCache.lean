import ClassScript.Object.Class

/-! The field cache of a registry. Resolving the fields of a class walks its chain of
ancestors. A registry keeps the resolved fields of the declared classes it is asked about
in a cache of bounded size; it never takes an entry out, but the cache forgets entries
to make room. A class not yet declared is resolved anew on each query. A cache is given
by what it does: a lookup, which may reorder what it holds, and an addition, which may
forget other entries. The registry's cache holds the classes used most recently first,
and forgets the one used least recently when it is full. -/
namespace ClassScript

/-- A cache from class indices to resolved fields, with states `σ`; `holds s c fields`
says that `s` holds `fields` for class `c`, `keys s` lists the classes it holds, and
`len s` counts its entries. -/
structure FieldCache (σ : Type) where
  empty : σ
  get : σ → Nat → Option (List (String × Ty)) × σ
  add : σ → Nat → List (String × Ty) → σ
  holds : σ → Nat → List (String × Ty) → Prop
  keys : σ → List Nat
  len : σ → Nat

namespace FieldCache

variable {σ : Type} (cache : FieldCache σ)

def request (s : σ) (c : Nat) (fields : List (String × Ty)) : σ :=
  match cache.get s c with
  | (some _, held) => held
  | (none, held) => cache.add held c fields

/-- A new cache after the lookups `cs`, the latest first, each adding `fields c` on a miss. -/
def serve (fields : Nat → List (String × Ty)) : List Nat → σ
  | [] => cache.empty
  | c :: cs => cache.request (serve fields cs) c (fields c)

end FieldCache

namespace Lru

variable {c : Nat} {fields : List (String × Ty)} {entries : List (Nat × List (String × Ty))}

/-- The entries with class `c` the most recently used, holding `fields`. -/
def promote (c : Nat) (fields : List (String × Ty)) (entries : List (Nat × List (String × Ty))) :
    List (Nat × List (String × Ty)) :=
  (c, fields) :: entries.filter (·.1 != c)

theorem keys_promote :
    (promote c fields entries).map Prod.fst = c :: (entries.map Prod.fst).filter (· != c) := by
  simp only [promote, List.map_cons, List.filter_map]
  rfl

theorem nodup_promote (nodup : (entries.map Prod.fst).Nodup) :
    ((promote c fields entries).map Prod.fst).Nodup := by
  rw [keys_promote, List.nodup_cons]
  exact ⟨by simp [List.mem_filter], nodup.sublist List.filter_sublist⟩

theorem length_promote (held : c ∈ entries.map Prod.fst) :
    (promote c fields entries).length ≤ entries.length := by
  obtain ⟨e, mem, rfl⟩ := List.mem_map.mp held
  have fewer : (entries.filter (·.1 != e.1)).length < entries.length :=
    List.length_filter_lt_length_iff_exists.mpr ⟨e, mem, by simp⟩
  simp only [promote, List.length_cons]
  omega

theorem mem_keys_of_lookup (found : entries.lookup c = some fields) : c ∈ entries.map Prod.fst := by
  obtain ⟨l₁, l₂, rfl, -⟩ := List.lookup_eq_some_iff.mp found
  simp

end Lru

/-- A cache of at most `capacity` classes, one entry for each, the most recently used
first. -/
structure Lru (capacity : Nat) where
  entries : List (Nat × List (String × Ty))
  nodup : (entries.map Prod.fst).Nodup
  bounded : entries.length ≤ capacity

namespace Lru

variable {capacity : Nat}

def get (s : Lru capacity) (c : Nat) : Option (List (String × Ty)) × Lru capacity :=
  match found : s.entries.lookup c with
  | some fields => (some fields,
      ⟨promote c fields s.entries, nodup_promote s.nodup,
        Nat.le_trans (length_promote (mem_keys_of_lookup found)) s.bounded⟩)
  | none => (none, s)

/-- Adds the fields of class `c` as the most recently used entry, in place of an entry
for `c`, forgetting the least recently used entry when the cache is full. -/
def add (s : Lru capacity) (c : Nat) (fields : List (String × Ty)) : Lru capacity :=
  ⟨(promote c fields s.entries).take capacity,
    List.map_take ▸ (nodup_promote s.nodup).sublist (List.take_sublist _ _),
    List.length_take_le _ _⟩

def cache (capacity : Nat) : FieldCache (Lru capacity) where
  empty := ⟨[], List.nodup_nil, Nat.zero_le _⟩
  get := get
  add := add
  holds s c fields := (c, fields) ∈ s.entries
  keys s := s.entries.map Prod.fst
  len s := s.entries.length

end Lru

namespace Registry

/-- How many classes the registry's field cache holds after the lookups made through it. -/
def cachedClasses (r : Registry) : Nat :=
  let cache := Lru.cache r.capacity
  cache.len (cache.serve r.fieldTypes r.lookups)

end Registry

structure CachedRegistry (σ : Type) where
  registry : Registry
  cache : σ

/-- An operation on a registry: making a class, adding a field to a class, declaring a
class, or asking for the fields of a class. -/
inductive RegistryOp where
  | newClass (name : String) (parent : Option Nat)
  | addField (c : Nat) (name : String) (ty : Ty)
  | declare (c : Nat)
  | fieldTypes (c : Nat)
  | hasField (c : Nat) (name : String)
  | fieldType (c : Nat) (name : String)

inductive RegistryAnswer where
  | made (c : Nat)
  | done
  | refused (e : Fault.Cause)
  | fields (fields : List (String × Ty))
  | has (b : Bool)
  | type (t : Option Ty)
  deriving DecidableEq, Repr

namespace Registry

def change (r : Registry) (result : Except Fault.Cause Registry) : RegistryAnswer × Registry :=
  match result with
  | .ok r' => (.done, r')
  | .error e => (.refused e, r)

/-- An operation on a registry with no field cache: each query resolves the class's
fields from its chain of ancestors. -/
def perform (r : Registry) : RegistryOp → RegistryAnswer × Registry
  | .newClass name parent =>
    let made := r.newClass name parent
    (.made made.1, made.2)
  | .addField c name ty => r.change (r.addField c name ty)
  | .declare c => r.change (r.declare c)
  | .fieldTypes c => (.fields (r.fieldTypes c), r)
  | .hasField c name => (.has (r.hasField c name), r)
  | .fieldType c name => (.type (r.fieldType? c name), r)

def performAll (r : Registry) : List RegistryOp → List RegistryAnswer × Registry
  | [] => ([], r)
  | op :: ops =>
    let first := r.perform op
    let rest := first.2.performAll ops
    (first.1 :: rest.1, rest.2)

end Registry

namespace CachedRegistry

variable {σ : Type} (cache : FieldCache σ)

def fresh (r : Registry) : CachedRegistry σ := ⟨r, cache.empty⟩

/-- The fields of class `c`. A declared class's fields come from the cache, and are
resolved and added to it on a miss; a class not yet declared is resolved each time. -/
def resolved (s : CachedRegistry σ) (c : Nat) : List (String × Ty) × CachedRegistry σ :=
  if ((s.registry.get? c).map (·.declared)).getD false then
    match cache.get s.cache c with
    | (some fields, held) => (fields, { s with cache := held })
    | (none, held) =>
      let fields := s.registry.fieldTypes c
      (fields, { s with cache := cache.add held c fields })
  else (s.registry.fieldTypes c, s)

/-- An operation on a registry with a field cache: the changes are those of the
registry, and every query goes through `resolved`. -/
def perform (s : CachedRegistry σ) : RegistryOp → RegistryAnswer × CachedRegistry σ
  | .newClass name parent =>
    let made := s.registry.newClass name parent
    (.made made.1, { s with registry := made.2 })
  | .addField c name ty =>
    let changed := s.registry.change (s.registry.addField c name ty)
    (changed.1, { s with registry := changed.2 })
  | .declare c =>
    let changed := s.registry.change (s.registry.declare c)
    (changed.1, { s with registry := changed.2 })
  | .fieldTypes c =>
    let found := s.resolved cache c
    (.fields found.1, found.2)
  | .hasField c name =>
    let found := s.resolved cache c
    (.has (found.1.lookup name).isSome, found.2)
  | .fieldType c name =>
    let found := s.resolved cache c
    (.type (found.1.lookup name), found.2)

def performAll (s : CachedRegistry σ) : List RegistryOp → List RegistryAnswer × CachedRegistry σ
  | [] => ([], s)
  | op :: ops =>
    let first := s.perform cache op
    let rest := first.2.performAll ops
    (first.1 :: rest.1, rest.2)

end CachedRegistry

end ClassScript
