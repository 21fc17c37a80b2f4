import ClassScript.Proofs.Binary64

/-! Hashing agrees with equality, with two exceptions. An instance in the null state
equals `null` but hashes as its identity, while `null` hashes as 0; and an integer equals
the real it rounds to, so when the rounding is inexact the two hash apart. Main
statement: `hash_eq_of_valueEquals`, on every other pair of values equal values hash
alike; `valueEquals_null_instance` is a pair of the first kind. -/
namespace ClassScript

namespace Machine

def cellOf? (m : Machine) : Value → Option Cell
  | .ref a => m.cell? a
  | _ => none

/-- One of the two values is `null` and the other an instance in the null state. -/
def NullAgainstInstance (m : Machine) (a b : Value) : Prop :=
  (a = .null ∧ ∃ x c id, b = .ref x ∧ m.cell? x = some (.object c id none)) ∨
  (b = .null ∧ ∃ x c id, a = .ref x ∧ m.cell? x = some (.object c id none))

/-- The two values are an integer and a real, and the integer has no exact real. -/
def InexactMixed (m : Machine) (a b : Value) : Prop :=
  ∃ p q, ((m.cellOf? a = some (.int p) ∧ m.cellOf? b = some (.real q)) ∨
    (m.cellOf? a = some (.real q) ∧ m.cellOf? b = some (.int p))) ∧
    (Real.ofInt64 p).wholeValue ≠ some p.toInt

end Machine

theorem Int64.toUInt64_eq_ofInt (n : Int64) : n.toUInt64 = UInt64.ofInt n.toInt := by
  apply UInt64.toBitVec_inj.mp
  apply BitVec.eq_of_toNat_eq
  rw [Int64.toBitVec_toUInt64, ← Int64.toInt_toBitVec, BitVec.toInt_eq_toNat_cond]
  have := n.toBitVec.isLt
  split <;> simp [UInt64.ofInt] <;> omega

theorem Real.hash_ofInt64 (p : Int64) (exact : (Real.ofInt64 p).wholeValue = some p.toInt) :
    (Real.ofInt64 p).hash = p.toUInt64 := by
  simp [Real.hash, exact, Int64.toUInt64_eq_ofInt]

namespace Machine

variable {m : Machine}

/-- Equal values hash alike, except `null` against an instance in the null state and an
integer against a real it does not convert to exactly. -/
theorem hash_eq_of_valueEquals (m : Machine) (a b : Value) (equal : m.valueEquals a b = true)
    (notNull : ¬m.NullAgainstInstance a b) (exact : ¬m.InexactMixed a b) :
    m.hash a = m.hash b := by
  have exactOf (p : Int64) (q : Real) (mixed : (m.cellOf? a = some (.int p) ∧
      m.cellOf? b = some (.real q)) ∨ (m.cellOf? a = some (.real q) ∧
      m.cellOf? b = some (.int p))) : (Real.ofInt64 p).wholeValue = some p.toInt :=
    Classical.byContradiction fun inexact => exact ⟨p, q, mixed, inexact⟩
  cases a with
  | builtin f =>
    cases b <;> simp_all [valueEquals, hash]
  | null =>
    cases b with
    | ref y =>
      cases cellY : m.cell? y with
      | none => simp [valueEquals, object?, cellY] at equal
      | some cy =>
        cases cy with
        | object c id t =>
          cases t with
          | none => exact absurd (.inl ⟨rfl, y, c, id, rfl, cellY⟩) notNull
          | some _ => simp [valueEquals, object?, cellY] at equal
        | _ => simp [valueEquals, object?, cellY] at equal
    | _ => simp_all [valueEquals, hash]
  | ref x =>
    cases cellX : m.cell? x with
    | none => cases b <;> simp [valueEquals, cellX] at equal
    | some cx =>
      cases b with
      | builtin g => cases cx <;> simp [valueEquals, cellX] at equal
      | null =>
        cases cx with
        | object c id t =>
          cases t with
          | none => exact absurd (.inr ⟨rfl, x, c, id, rfl, cellX⟩) notNull
          | some _ => simp [valueEquals, cellX] at equal
        | _ => simp [valueEquals, cellX] at equal
      | ref y =>
        cases cellY : m.cell? y with
        | none => cases cx <;> simp [valueEquals, object?, cellX, cellY] at equal
        | some cy =>
          cases cx with
          | object c id t =>
            have same : x = y := by
              cases cy <;> simp_all [valueEquals, object?]
            simp [same]
          | int p =>
            cases cy with
            | real q =>
              have numeric : (Real.ofInt64 p).eqNum q = true := by
                simpa [valueEquals, cellX, cellY] using equal
              have exactP := exactOf p q (.inl ⟨by simp [cellOf?, cellX], by simp [cellOf?, cellY]⟩)
              simp only [hash, cellX, cellY]
              rw [← Real.hash_eq_of_eqNum _ _ numeric, Real.hash_ofInt64 p exactP]
            | _ => simp_all [valueEquals, hash]
          | real p =>
            cases cy with
            | int q =>
              have numeric : p.eqNum (Real.ofInt64 q) = true := by
                simpa [valueEquals, cellX, cellY] using equal
              have exactQ := exactOf q p (.inr ⟨by simp [cellOf?, cellX], by simp [cellOf?, cellY]⟩)
              simp only [hash, cellX, cellY]
              rw [Real.hash_eq_of_eqNum _ _ numeric, Real.hash_ofInt64 q exactQ]
            | real q =>
              have numeric : p.eqNum q = true := by simpa [valueEquals, cellX, cellY] using equal
              simp only [hash, cellX, cellY]
              exact Real.hash_eq_of_eqNum _ _ numeric
            | _ => simp_all [valueEquals]
          | _ => cases cy <;> simp_all [valueEquals, hash]

theorem hash_eq_of_valueEquals_int_real :
    let m : Machine := ⟨Registry.empty 0, ⟨#[.int 3, .real (Real.ofInt64 3)], #[], 1⟩, ""⟩
    m.valueEquals (.ref 0) (.ref 1) = true ∧ ¬m.NullAgainstInstance (.ref 0) (.ref 1) ∧
      ¬m.InexactMixed (.ref 0) (.ref 1) ∧ m.hash (.ref 0) = m.hash (.ref 1) := by
  intro m
  have equal : m.valueEquals (.ref 0) (.ref 1) = true := by decide
  have notNull : ¬m.NullAgainstInstance (.ref 0) (.ref 1) := by
    simp [NullAgainstInstance]
  have exact : ¬m.InexactMixed (.ref 0) (.ref 1) := by
    rintro ⟨p, q, cells, inexact⟩
    have three : p = 3 := by
      rcases cells with ⟨first, -⟩ | ⟨-, second⟩
      · simpa [m, cellOf?, cell?] using first.symm
      · simp [m, cellOf?, cell?] at second
    subst three
    exact inexact (by decide)
  exact ⟨equal, notNull, exact, hash_eq_of_valueEquals m _ _ equal notNull exact⟩

/-- An instance in the null state equals `null`, yet hashes as its identity. -/
theorem valueEquals_null_instance :
    ¬∀ (m : Machine) (a b : Value), m.valueEquals a b = true → m.hash a = m.hash b := by
  intro agrees
  have differ := agrees ⟨Registry.empty 0, ⟨#[.object 0 1 none], #[], 2⟩, ""⟩ (.ref 0) .null
    (by decide)
  exact absurd differ (by decide)

end Machine

end ClassScript
