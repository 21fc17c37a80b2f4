import ClassScript.Proofs.Hashing
import ClassScript.Eval.Expr

/-! The operators on values. Equality asks the left operand, yet every kind of value answers
as the right one would, so `==` and `!=` do not depend on the order of their operands.
Integer arithmetic wraps into 64 bits, and `/` fails exactly on a zero divisor. -/
namespace ClassScript

namespace Real

theorem eqNum_symm {a b : Real} (equal : a.eqNum b = true) : b.eqNum a = true := by
  rw [eqNum_eq_compare, beq_iff_eq] at equal ⊢
  rcases compare_eq_some_eq _ _ equal with same | ⟨s, t, zeroA, zeroB⟩
  · rw [← same] at equal ⊢
    exact equal
  · rw [zeroA, zeroB]
    rfl

theorem eqNum_comm (a b : Real) : a.eqNum b = b.eqNum a :=
  Bool.eq_iff_iff.mpr ⟨eqNum_symm, eqNum_symm⟩

end Real

namespace Machine

/-- Equality of values does not depend on which operand asks. -/
theorem valueEquals_comm (m : Machine) (a b : Value) : m.valueEquals a b = m.valueEquals b a := by
  cases a with
  | builtin f =>
    cases b with
    | builtin g => exact Bool.beq_comm
    | ref y =>
      cases cellY : m.cell? y with
      | none => simp [valueEquals, cellY]
      | some cy => cases cy <;> simp [valueEquals, cellY]
    | null => rfl
  | null =>
    cases b with
    | ref y =>
      cases cellY : m.cell? y with
      | none => simp [valueEquals, object?, cellY]
      | some cy => cases cy <;> simp [valueEquals, object?, cellY]
    | _ => simp [valueEquals]
  | ref x =>
    cases cellX : m.cell? x with
    | none =>
      cases b with
      | ref y =>
        cases cellY : m.cell? y with
        | none => simp [valueEquals, cellX, cellY]
        | some cy => cases cy <;> simp [valueEquals, object?, cellX, cellY]
      | _ => simp [valueEquals, object?, cellX]
    | some cx =>
      cases b with
      | ref y =>
        cases cellY : m.cell? y with
        | none => cases cx <;> simp [valueEquals, object?, cellX, cellY]
        | some cy =>
          -- two boxes: instances by identity, numbers through `eqNum`, the rest by kind
          cases cx <;> cases cy <;>
            simp [valueEquals, object?, cellX, cellY, Real.eqNum_comm, Bool.beq_comm]
      | _ => cases cx <;> simp [valueEquals, object?, cellX]

end Machine

namespace Act

variable {m : Machine}

def StoresNew (x : Act Value) (m : Machine) (c : Cell) : Prop :=
  x.run m = .ok (.ref m.heap.cells.size)
    { m with heap := { m.heap with cells := m.heap.cells.push c } }

theorem storesNew_alloc (c : Cell) (m : Machine) : StoresNew (alloc c) m c := rfl

theorem run_cellOf (v : Value) (m : Machine) : (cellOf v).run m = .ok (m.cellOf? v) m := by
  cases v <;> rfl

theorem binary_eq_run (l r : Value) (m : Machine) :
    (binary .eq l r).run m = (alloc (.bool (m.valueEquals l r))).run m ∧
      (binary .ne l r).run m = (alloc (.bool !(m.valueEquals l r))).run m :=
  ⟨rfl, rfl⟩

/-- `a == b` and `b == a` store the same truth value, and so do `a != b` and `b != a`: equality
of values is symmetric. -/
theorem equality_operators_comm (m : Machine) (a b : Value) :
    m.valueEquals a b = m.valueEquals b a ∧
      (binary .eq a b).run m = (binary .eq b a).run m ∧
      (binary .ne a b).run m = (binary .ne b a).run m := by
  have comm := m.valueEquals_comm a b
  obtain ⟨eqAB, neAB⟩ := binary_eq_run a b m
  obtain ⟨eqBA, neBA⟩ := binary_eq_run b a m
  exact ⟨comm, by rw [eqAB, eqBA, comm], by rw [neAB, neBA, comm]⟩

/-! ### Arithmetic -/

variable {x y : Nat} {a b : Int64}

/-- On two integer boxes, `+`, `-`, `*` and `/` compute on the integers. -/
theorem binary_ints_arith {op : BinaryOp} (arith : op = .add ∨ op = .sub ∨ op = .mul ∨ op = .div)
    (hx : m.cell? x = some (.int a)) (hy : m.cell? y = some (.int b)) :
    (binary op (.ref x) (.ref y)).run m = (intArith op a b).run m := by
  rcases arith with rfl | rfl | rfl | rfl <;> simp [binary, cellOf, hx, hy, isNumber, isString]

theorem unary_neg_int (hx : m.cell? x = some (.int a)) :
    StoresNew (unary .neg (.ref x)) m (.int (-a)) := by
  simp [StoresNew, unary, cellOf, hx, alloc]

/-- The division of two integers stops with the division fault exactly when the divisor
is zero, and otherwise stores the quotient. -/
theorem intArith_div_run (a b : Int64) (m : Machine) :
    (intArith .div a b).run m =
      if b = 0 then .error (Fault.ofCause .divisionByZero) m else (alloc (.int (a / b))).run m := by
  by_cases zero : b = 0
  · simp only [intArith, zero, if_true]
    rfl
  · simp only [intArith, zero, if_false]

theorem asReal_number {v : Value} (num : isNumber (m.cellOf? v) = true) :
    ∃ x, (asReal v).run m = .ok x m := by
  cases hv : m.cellOf? v with
  | none => simp [hv, isNumber] at num
  | some c =>
    cases c <;> simp [hv, isNumber] at num <;>
      exact ⟨_, by simp only [asReal, EStateM.run_bind, run_cellOf, hv]; rfl⟩

theorem run_notANumber (op : BinaryOp) (v : Value) (m : Machine) :
    (do fault (.notANumber op.symbol (← typeName v)) : Act Value).run m =
      .error (Fault.ofCause (.notANumber op.symbol (m.typeName v))) m := rfl

/-- With a real operand on either side, `/` divides reals when the other operand is a
number and stops with a type fault when it is not; it never reports a division by zero. -/
theorem binary_div_real {l r : Value}
    (real : (∃ p, m.cellOf? l = some (.real p)) ∨ ∃ q, m.cellOf? r = some (.real q)) :
    (∀ f m', (binary .div l r).run m = .error f m' → f.cause ≠ .divisionByZero) ∧
      (isNumber (m.cellOf? l) → isNumber (m.cellOf? r) →
        ∃ v, StoresNew (binary .div l r) m (.real v)) := by
  -- a real on either side sends two numbers to the division of reals
  have notInts : ¬∃ a b, m.cellOf? l = some (.int a) ∧ m.cellOf? r = some (.int b) := by
    rintro ⟨a, b, hl, hr⟩
    rcases real with ⟨p, hp⟩ | ⟨q, hq⟩ <;> simp_all
  have numbers (numL : isNumber (m.cellOf? l)) (numR : isNumber (m.cellOf? r)) :
      ∃ v, StoresNew (binary .div l r) m (.real v) := by
    obtain ⟨x, hx⟩ := asReal_number numL
    obtain ⟨y, hy⟩ := asReal_number numR
    refine ⟨x.div y, ?_⟩
    simp only [StoresNew, binary, EStateM.run_bind, run_cellOf]
    rw [if_neg (by simp), if_neg (by simpa using numL), if_neg (by simpa using numR)]
    split
    · next a b hl hr => exact absurd ⟨a, b, hl, hr⟩ notInts
    · simp only [EStateM.run_bind, hx, hy]
      rfl
  refine ⟨fun f m' run => ?_, numbers⟩
  by_cases both : isNumber (m.cellOf? l) ∧ isNumber (m.cellOf? r)
  · obtain ⟨v, stores⟩ := numbers both.1 both.2
    rw [stores] at run
    cases run
  · -- an operand that is no number is refused before anything is divided
    simp only [binary, EStateM.run_bind, run_cellOf] at run
    rw [if_neg (by simp)] at run
    split at run
    · rw [run_notANumber] at run
      cases run
      simp [Fault.ofCause]
    · next numberL =>
      have numL : isNumber (m.cellOf? l) := by simpa using numberL
      rw [if_pos (by simpa [numL] using both)] at run
      rw [run_notANumber] at run
      cases run
      simp [Fault.ofCause]

/-- Integer arithmetic is total and wraps into 64 bits; `/` fails exactly on a zero integer
divisor and rounds toward zero, and with a real operand never reports a division by zero. -/
theorem int_arithmetic_wraps (m : Machine) :
    (∀ {x y : Nat} {a b : Int64}, m.cell? x = some (.int a) → m.cell? y = some (.int b) →
      (∃ v, StoresNew (binary .add (.ref x) (.ref y)) m (.int v) ∧
        v.toInt = (a.toInt + b.toInt).bmod (2 ^ 64)) ∧
      (∃ v, StoresNew (binary .sub (.ref x) (.ref y)) m (.int v) ∧
        v.toInt = (a.toInt - b.toInt).bmod (2 ^ 64)) ∧
      (∃ v, StoresNew (binary .mul (.ref x) (.ref y)) m (.int v) ∧
        v.toInt = (a.toInt * b.toInt).bmod (2 ^ 64)) ∧
      (∃ v, StoresNew (unary .neg (.ref x)) m (.int v) ∧ v.toInt = (-a.toInt).bmod (2 ^ 64)) ∧
      ((binary .div (.ref x) (.ref y)).run m = .error (Fault.ofCause .divisionByZero) m ↔
        b = 0) ∧
      (b ≠ 0 → ∃ v, StoresNew (binary .div (.ref x) (.ref y)) m (.int v) ∧
        v.toInt = (a.toInt.tdiv b.toInt).bmod (2 ^ 64))) ∧
    ∀ l r : Value, ((∃ p, m.cellOf? l = some (.real p)) ∨ ∃ q, m.cellOf? r = some (.real q)) →
      (∀ f m', (binary .div l r).run m = .error f m' → f.cause ≠ .divisionByZero) ∧
      (isNumber (m.cellOf? l) → isNumber (m.cellOf? r) →
        ∃ v, StoresNew (binary .div l r) m (.real v)) := by
  refine ⟨fun {x y a b} hx hy => ?_, fun l r real => binary_div_real real⟩
  have add : StoresNew (binary .add (.ref x) (.ref y)) m (.int (a + b)) :=
    (binary_ints_arith (.inl rfl) hx hy).trans (storesNew_alloc _ m)
  have sub : StoresNew (binary .sub (.ref x) (.ref y)) m (.int (a - b)) :=
    (binary_ints_arith (.inr (.inl rfl)) hx hy).trans (storesNew_alloc _ m)
  have mul : StoresNew (binary .mul (.ref x) (.ref y)) m (.int (a * b)) :=
    (binary_ints_arith (.inr (.inr (.inl rfl))) hx hy).trans (storesNew_alloc _ m)
  have div := (binary_ints_arith (.inr (.inr (.inr rfl))) hx hy).trans (intArith_div_run a b m)
  -- the value of each stored integer is its exact result wrapped by `Int.bmod`
  refine ⟨⟨a + b, add, Int64.toInt_add a b⟩, ⟨a - b, sub, Int64.toInt_sub a b⟩,
    ⟨a * b, mul, Int64.toInt_mul a b⟩, ⟨-a, unary_neg_int hx, Int64.toInt_neg a⟩, ?byZero,
    fun nonzero => ⟨a / b, ?quotient, Int64.toInt_div a b⟩⟩
  case byZero =>
    rw [div]
    by_cases zero : b = 0
    · simp [zero]
    · simp [zero, alloc]
  case quotient =>
    rw [StoresNew, div, if_neg nonzero]
    rfl

/-- The least integer divided by `-1` wraps to itself, and a real dividend is never
reported as divided by zero. -/
theorem least_int_div_neg_one :
    let m : Machine := { Machine.empty 0 with
      heap := { Heap.empty with cells := #[.int Int64.minValue, .int (-1), .real ⟨0⟩] } }
    m.cell? 0 = some (.int Int64.minValue) ∧ m.cell? 1 = some (.int (-1)) ∧
      (∃ v, StoresNew (binary .div (.ref 0) (.ref 1)) m (.int v) ∧
        v.toInt = (Int64.minValue.toInt.tdiv (-1 : Int64).toInt).bmod (2 ^ 64)) ∧
      ∀ f m', (binary .div (.ref 2) (.ref 0)).run m = .error f m' → f.cause ≠ .divisionByZero := by
  intro m
  have ints := (int_arithmetic_wraps m).1 (x := 0) (y := 1) rfl rfl
  exact ⟨rfl, rfl, ints.2.2.2.2.2 (by decide),
    ((int_arithmetic_wraps m).2 (.ref 2) (.ref 0) (.inl ⟨_, rfl⟩)).1⟩

example : (Int64.minValue.toInt.tdiv (-1 : Int64).toInt).bmod (2 ^ 64) = Int64.minValue.toInt := by
  decide

end Act

end ClassScript
