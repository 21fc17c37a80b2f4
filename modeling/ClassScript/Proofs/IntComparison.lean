import ClassScript.Proofs.Rounding
import ClassScript.Eval.Expr

/-! Comparisons of integers. `<`, `<=`, `>` and `>=` compare their operands as reals, so on two
integers they compare the doubles nearest to them, while `==` compares the integers
themselves. Up to `2^53` in magnitude the doubles are the integers and the comparisons are
exact; beyond it distinct integers may share a double, and then none of `<`, `==` and `>`
holds of them. -/
namespace ClassScript

/-- On two integer boxes, an order operator stores whether the doubles nearest to the
integers are in that order. -/
theorem binary_order_ints {m : Machine} {x y : Nat} {a b : Int64}
    (hx : m.cell? x = some (.int a)) (hy : m.cell? y = some (.int b)) :
    (Act.binary .lt (.ref x) (.ref y)).run m =
        (Act.alloc (.bool (decide (Real.nearest a.toInt < Real.nearest b.toInt)))).run m ∧
      (Act.binary .le (.ref x) (.ref y)).run m =
        (Act.alloc (.bool (decide (Real.nearest a.toInt ≤ Real.nearest b.toInt)))).run m ∧
      (Act.binary .gt (.ref x) (.ref y)).run m =
        (Act.alloc (.bool (decide (Real.nearest b.toInt < Real.nearest a.toInt)))).run m ∧
      (Act.binary .ge (.ref x) (.ref y)).run m =
        (Act.alloc (.bool (decide (Real.nearest b.toInt ≤ Real.nearest a.toInt)))).run m := by
  refine ⟨?_, ?_, ?_, ?_⟩ <;>
    simp [Act.binary, Act.cellOf, Act.asReal, hx, hy, Act.isNumber, Act.isString,
      Real.lt_ofInt64, Real.le_ofInt64]

theorem binary_eq_ints {m : Machine} {x y : Nat} {a b : Int64}
    (hx : m.cell? x = some (.int a)) (hy : m.cell? y = some (.int b)) :
    (Act.binary .eq (.ref x) (.ref y)).run m = (Act.alloc (.bool (decide (a = b)))).run m := by
  simp [Act.binary, Machine.valueEquals, hx, hy, Bool.beq_eq_decide_eq]

/-- Integer comparisons order the nearest doubles: `<`, `<=`, `>` and `>=` on two integer
boxes store the order of the doubles nearest to the integers and `==` their equality, where
rounding to the nearest double keeps the order of integers and is exact up to `2^53`. -/
theorem int_comparisons_order_nearest_doubles {m : Machine} {x y : Nat} {a b : Int64}
    (hx : m.cell? x = some (.int a)) (hy : m.cell? y = some (.int b)) :
    ((Act.binary .lt (.ref x) (.ref y)).run m =
        (Act.alloc (.bool (decide (Real.nearest a.toInt < Real.nearest b.toInt)))).run m ∧
      (Act.binary .le (.ref x) (.ref y)).run m =
        (Act.alloc (.bool (decide (Real.nearest a.toInt ≤ Real.nearest b.toInt)))).run m ∧
      (Act.binary .gt (.ref x) (.ref y)).run m =
        (Act.alloc (.bool (decide (Real.nearest b.toInt < Real.nearest a.toInt)))).run m ∧
      (Act.binary .ge (.ref x) (.ref y)).run m =
        (Act.alloc (.bool (decide (Real.nearest b.toInt ≤ Real.nearest a.toInt)))).run m ∧
      (Act.binary .eq (.ref x) (.ref y)).run m = (Act.alloc (.bool (decide (a = b)))).run m) ∧
    Monotone Real.nearest ∧ ∀ z : Int, z.natAbs ≤ 2 ^ 53 → Real.nearest z = z := by
  obtain ⟨lt, le, gt, ge⟩ := binary_order_ints hx hy
  exact ⟨⟨lt, le, gt, ge, binary_eq_ints hx hy⟩, Real.nearest_mono,
    fun _ small => Real.nearest_exact small⟩

theorem small_int_comparisons :
    let m : Machine :=
      { Machine.empty 0 with heap := { Heap.empty with cells := #[.int 3, .int 5] } }
    m.cell? 0 = some (.int 3) ∧ m.cell? 1 = some (.int 5) ∧
    (((Act.binary .lt (.ref 0) (.ref 1)).run m = (Act.alloc (.bool (decide
          (Real.nearest (3 : Int64).toInt < Real.nearest (5 : Int64).toInt)))).run m ∧
      (Act.binary .le (.ref 0) (.ref 1)).run m = (Act.alloc (.bool (decide
          (Real.nearest (3 : Int64).toInt ≤ Real.nearest (5 : Int64).toInt)))).run m ∧
      (Act.binary .gt (.ref 0) (.ref 1)).run m = (Act.alloc (.bool (decide
          (Real.nearest (5 : Int64).toInt < Real.nearest (3 : Int64).toInt)))).run m ∧
      (Act.binary .ge (.ref 0) (.ref 1)).run m = (Act.alloc (.bool (decide
          (Real.nearest (5 : Int64).toInt ≤ Real.nearest (3 : Int64).toInt)))).run m ∧
      (Act.binary .eq (.ref 0) (.ref 1)).run m =
        (Act.alloc (.bool (decide ((3 : Int64) = 5)))).run m) ∧
    Monotone Real.nearest ∧ ∀ z : Int, z.natAbs ≤ 2 ^ 53 → Real.nearest z = z) :=
  ⟨rfl, rfl, int_comparisons_order_nearest_doubles rfl rfl⟩

/-- Up to `2^53` in magnitude, `<` and `>` on integers give the order of the integers, so
exactly one of `<`, `==` and `>` holds. -/
theorem binary_ints_exact {m : Machine} {x y : Nat} {a b : Int64}
    (hx : m.cell? x = some (.int a)) (hy : m.cell? y = some (.int b))
    (smallA : a.toInt.natAbs ≤ 2 ^ 53) (smallB : b.toInt.natAbs ≤ 2 ^ 53) :
    (Act.binary .lt (.ref x) (.ref y)).run m =
        (Act.alloc (.bool (decide (a.toInt < b.toInt)))).run m ∧
      (Act.binary .gt (.ref x) (.ref y)).run m =
        (Act.alloc (.bool (decide (b.toInt < a.toInt)))).run m := by
  obtain ⟨lt, -, gt, -⟩ := binary_order_ints hx hy
  rw [Real.nearest_exact smallA, Real.nearest_exact smallB] at lt gt
  exact ⟨lt, gt⟩

/-- Above `2^53` distinct integers can round to one double: of `2^53 + 1` and `2^53`, neither
is less than the other, and they are not equal. -/
theorem order_lost_above_two_pow_53 :
    let m : Machine := { Machine.empty 0 with
      heap := { Heap.empty with cells := #[.int 9007199254740993, .int 9007199254740992] } }
    (Act.binary .lt (.ref 0) (.ref 1)).run m = (Act.alloc (.bool false)).run m ∧
      (Act.binary .eq (.ref 0) (.ref 1)).run m = (Act.alloc (.bool false)).run m ∧
      (Act.binary .gt (.ref 0) (.ref 1)).run m = (Act.alloc (.bool false)).run m := by
  intro m
  -- the larger integer lies halfway between two doubles and rounds to the even one
  have tie : Real.nearest 9007199254740993 = 9007199254740992 := by decide
  have exact : Real.nearest 9007199254740992 = 9007199254740992 := Real.nearest_exact (by decide)
  have distinct : (9007199254740993 : Int64) ≠ 9007199254740992 := by decide
  obtain ⟨lt, -, gt, -⟩ := binary_order_ints (m := m) (x := 0) (y := 1) rfl rfl
  refine ⟨lt.trans ?_, (binary_eq_ints (m := m) (x := 0) (y := 1) rfl rfl).trans ?_, gt.trans ?_⟩ <;>
    simp [tie, exact, distinct]

end ClassScript
