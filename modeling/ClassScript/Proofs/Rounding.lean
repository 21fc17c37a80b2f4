import Mathlib
import ClassScript.Proofs.Binary64

/-! Integers as doubles. An integer converts to the double nearest to it, rounded to 53
significant bits, ties to even (`roundBinary`, `nearest`); normal doubles compare as their
values, so integers compare as doubles as their nearest doubles do. -/
namespace ClassScript.Real

open Float.Model Float.Model.UnpackedFloat

/-! ### Shifting a mantissa right -/

/-- `n / 2^k` rounded to the nearest integer, ties to the even one. -/
def roundShift (n k : Nat) : Nat :=
  if 2 ^ k < 2 * (n % 2 ^ k) ∨ (2 * (n % 2 ^ k) = 2 ^ k ∧ n / 2 ^ k % 2 = 1) then n / 2 ^ k + 1
  else n / 2 ^ k

theorem exact_shiftRight_zero (n : Nat) :
    (⟨n, false, false⟩ : ExtendedMantissa) >>> 0 = ⟨n, false, false⟩ := rfl

/-- After a shift by `k + 1`, the round bit is the last bit dropped and the sticky bit says
whether any bit below it was set. -/
theorem exact_shiftRight_succ (n k : Nat) :
    (⟨n, false, false⟩ : ExtendedMantissa) >>> (k + 1) =
      ⟨n / 2 ^ (k + 1), n / 2 ^ k % 2 != 0, n % 2 ^ k != 0⟩ := by
  induction k with
  | zero => simp [HShiftRight.hShiftRight, Nat.repeat, ExtendedMantissa.shiftRightOne, Nat.mod_one]
  | succ k ih =>
    change ExtendedMantissa.shiftRightOne ((⟨n, false, false⟩ : ExtendedMantissa) >>> (k + 1)) = _
    rw [ih]
    simp only [ExtendedMantissa.shiftRightOne, ExtendedMantissa.mk.injEq]
    refine ⟨?_, ?_⟩
    · rw [Nat.div_div_eq_div_mul, ← Nat.pow_succ]
    · -- the bits below `k + 1` are the bit at `k` and those below `k`
      rw [Nat.mod_pow_succ]
      rcases Nat.mod_two_eq_zero_or_one (n / 2 ^ k) with bit | bit <;> simp [bit]

theorem shiftRight_add (em : ExtendedMantissa) (a b : Nat) :
    em >>> (a + b) = (em >>> a) >>> b := by
  induction b with
  | zero => rfl
  | succ b ih =>
    change ExtendedMantissa.shiftRightOne (em >>> (a + b)) =
      ExtendedMantissa.shiftRightOne ((em >>> a) >>> b)
    rw [ih]

theorem exact_shiftRight_cancel (n j : Nat) :
    (⟨n * 2 ^ j, false, false⟩ : ExtendedMantissa) >>> j = ⟨n, false, false⟩ := by
  induction j generalizing n with
  | zero => simp [exact_shiftRight_zero]
  | succ j ih =>
    change ExtendedMantissa.shiftRightOne
      ((⟨n * 2 ^ (j + 1), false, false⟩ : ExtendedMantissa) >>> j) = _
    rw [Nat.pow_succ, Nat.mul_comm (2 ^ j), ← Nat.mul_assoc, ih]
    simp [ExtendedMantissa.shiftRightOne]

theorem exact_shiftRight_scale (n j k : Nat) :
    (⟨n * 2 ^ j, false, false⟩ : ExtendedMantissa) >>> (k + j) =
      (⟨n, false, false⟩ : ExtendedMantissa) >>> k := by
  rw [Nat.add_comm, shiftRight_add, exact_shiftRight_cancel]

theorem roundedMantissa_mk (q : Nat) (rb sb : Bool) :
    (⟨q, rb, sb⟩ : ExtendedMantissa).roundedMantissa =
      if rb = true ∧ (sb = true ∨ q % 2 = 1) then q + 1 else q := by
  cases rb <;> cases sb <;>
    simp [ExtendedMantissa.roundedMantissa, ExtendedMantissa.accuracy,
      Accuracy.roundToNearestEven]
  split <;> omega

theorem roundedMantissa_shiftRight (n k : Nat) :
    ((⟨n, false, false⟩ : ExtendedMantissa) >>> k).roundedMantissa = roundShift n k := by
  cases k with
  | zero => simp [exact_shiftRight_zero, roundedMantissa_mk, roundShift, Nat.mod_one]
  | succ k =>
    rw [exact_shiftRight_succ, roundedMantissa_mk, roundShift]
    apply if_congr _ rfl rfl
    have split : n % 2 ^ (k + 1) = n % 2 ^ k + 2 ^ k * (n / 2 ^ k % 2) := Nat.mod_pow_succ
    have below : n % 2 ^ k < 2 ^ k := Nat.mod_lt _ (Nat.two_pow_pos k)
    have pow : 2 ^ (k + 1) = 2 * 2 ^ k := by rw [Nat.pow_succ, Nat.mul_comm]
    rw [split, pow]
    rcases Nat.mod_two_eq_zero_or_one (n / 2 ^ k) with bit | bit <;> simp [bit] <;> omega

theorem roundShift_bounds (n k : Nat) :
    n / 2 ^ k ≤ roundShift n k ∧ roundShift n k ≤ n / 2 ^ k + 1 := by
  unfold roundShift
  split <;> omega

/-- Rounding to nearest is monotone at a fixed shift: a larger integer has a quotient at least
as large, and with the same quotient a remainder at least as large. -/
theorem roundShift_mono (k : Nat) {n n' : Nat} (le : n ≤ n') :
    roundShift n k ≤ roundShift n' k := by
  have quotient : n / 2 ^ k ≤ n' / 2 ^ k := Nat.div_le_div_right le
  rcases Nat.lt_or_eq_of_le quotient with less | same
  · have near := roundShift_bounds n k
    have near' := roundShift_bounds n' k
    omega
  · have whole := Nat.div_add_mod n (2 ^ k)
    have whole' := Nat.div_add_mod n' (2 ^ k)
    rw [same] at whole
    generalize 2 ^ k * (n' / 2 ^ k) = base at whole whole'
    unfold roundShift
    rw [same]
    split <;> split <;> omega

/-! ### Rounding to the target exponent -/

theorem log2_mul_pow {m : Nat} (pos : 0 < m) (j : Nat) : (m * 2 ^ j).log2 = m.log2 + j := by
  have lo := Nat.log2_self_le (Nat.pos_iff_ne_zero.mp pos)
  have hi := Nat.lt_log2_self (n := m)
  apply (Nat.log2_eq_iff (Nat.pos_iff_ne_zero.mp (Nat.mul_pos pos (Nat.two_pow_pos j)))).mpr
  rw [Nat.pow_add, show m.log2 + j + 1 = (m.log2 + 1) + j by omega, Nat.pow_add]
  exact ⟨Nat.mul_le_mul_right _ lo, Nat.mul_lt_mul_of_pos_right hi (Nat.two_pow_pos j)⟩

theorem log2_mono {n n' : Nat} (pos : 0 < n) (le : n ≤ n') : n.log2 ≤ n'.log2 :=
  (Nat.le_log2 (by omega)).mpr (le_trans (Nat.log2_self_le (by omega)) le)

/-- The exponent that `m * 2^e` is rounded to: 53 bits are kept, but no exponent is below that
of the least subnormal. -/
theorem targetExponent_eq (m : Nat) (e : Int) :
    Format.binary64.targetExponent (totalExponent m e) =
      max ((m.log2 : Int) + e - 52) (-1074) := by
  simp only [Format.targetExponent, totalExponent, Format.mantissaBits, Format.minExponent]
  omega

theorem shiftToTargetExponent_scale {m : Nat} (pos : 0 < m) (wide : 52 ≤ m.log2) (e : Int)
    (j : Nat) :
    shiftToTargetExponent .binary64 (m * 2 ^ j) (e - j) .exact =
      shiftToTargetExponent .binary64 m e .exact := by
  simp only [shiftToTargetExponent, shiftToExponent, ExtendedMantissa.ofMantissaAndAccuracy,
    targetExponent_eq, log2_mul_pow pos]
  have shift : (max (((m.log2 + j : Nat) : Int) + (e - j) - 52) (-1074) - (e - j)).toNat =
      (max ((m.log2 : Int) + e - 52) (-1074) - e).toNat + j := by omega
  rw [shift, exact_shiftRight_scale]
  congr 1
  omega

theorem roundWithAccuracy_scale (s : Sign) {m : Nat} (pos : 0 < m) (wide : 52 ≤ m.log2)
    (e : Int) (j : Nat) :
    roundWithAccuracy .binary64 s (m * 2 ^ j) (e - j) .exact =
      roundWithAccuracy .binary64 s m e .exact := by
  unfold roundWithAccuracy
  rw [shiftToTargetExponent_scale pos wide]

theorem shiftToTargetExponent_normal {M : Nat} (lo : 2 ^ 52 ≤ M) (hi : M < 2 ^ 53) {E : Int}
    (low : -1074 ≤ E) :
    shiftToTargetExponent .binary64 M E .exact = (⟨M, false, false⟩, E) := by
  have bits : M.log2 = 52 := (Nat.log2_eq_iff (by omega)).mpr ⟨lo, hi⟩
  have none : (max ((M.log2 : Int) + E - 52) (-1074) - E).toNat = 0 := by omega
  simp only [shiftToTargetExponent, shiftToExponent, ExtendedMantissa.ofMantissaAndAccuracy,
    targetExponent_eq, none, exact_shiftRight_zero]
  simp

theorem shiftToTargetExponent_carry {E : Int} (low : -1074 ≤ E) :
    shiftToTargetExponent .binary64 (2 ^ 53) E .exact = (⟨2 ^ 52, false, false⟩, E + 1) := by
  have one : (max (((2 ^ 53 : Nat).log2 : Int) + E - 52) (-1074) - E).toNat = 0 + 1 := by
    rw [Nat.log2_two_pow]; omega
  simp only [shiftToTargetExponent, shiftToExponent, ExtendedMantissa.ofMantissaAndAccuracy,
    targetExponent_eq, one, exact_shiftRight_succ]
  simp

theorem shiftToTargetExponent_wide {n : Nat} (wide : 53 ≤ n.log2) :
    shiftToTargetExponent .binary64 n 0 .exact =
      ((⟨n, false, false⟩ : ExtendedMantissa) >>> (n.log2 - 52), ((n.log2 - 52 : Nat) : Int)) := by
  have shift : (max ((n.log2 : Int) + 0 - 52) (-1074) - 0).toNat = n.log2 - 52 := by omega
  simp only [shiftToTargetExponent, shiftToExponent, ExtendedMantissa.ofMantissaAndAccuracy,
    targetExponent_eq, shift]
  simp

theorem roundWithAccuracy_normal (s : Sign) {M : Nat} (lo : 2 ^ 52 ≤ M) (hi : M < 2 ^ 53)
    {E : Int} (low : -1074 ≤ E) :
    roundWithAccuracy .binary64 s M E .exact = .finite s M E (by omega) := by
  unfold roundWithAccuracy
  rw [shiftToTargetExponent_normal lo hi low]
  dsimp only
  rw [roundedMantissa_mk]
  simp only [Bool.false_eq_true, false_and, if_false, shiftToTargetExponent_normal lo hi low]
  rw [dif_neg (by omega)]

/-! ### The rounded magnitude -/

/-- The magnitude of the double nearest to `n`: `n` itself below `2^53`, above it `n` rounded
to 53 significant bits, ties to an even last bit. -/
def roundBinary (n : Nat) : Nat :=
  if n < 2 ^ 53 then n else roundShift n (n.log2 - 52) * 2 ^ (n.log2 - 52)

theorem top_bits {n : Nat} (wide : 52 ≤ n.log2) :
    2 ^ 52 ≤ n / 2 ^ (n.log2 - 52) ∧ n / 2 ^ (n.log2 - 52) < 2 ^ 53 := by
  have nonzero : n ≠ 0 := by rintro rfl; simp at wide
  have lo := Nat.log2_self_le nonzero
  have hi := Nat.lt_log2_self (n := n)
  have split : ∀ a, 2 ^ (n.log2 - 52 + a) = 2 ^ a * 2 ^ (n.log2 - 52) := fun a => by
    rw [Nat.pow_add, Nat.mul_comm]
  constructor
  · rw [Nat.le_div_iff_mul_le (Nat.two_pow_pos _), ← split]
    rwa [show n.log2 - 52 + 52 = n.log2 by omega]
  · rw [Nat.div_lt_iff_lt_mul (Nat.two_pow_pos _), ← split]
    rwa [show n.log2 - 52 + 53 = n.log2 + 1 by omega]

theorem roundBinary_bounds {n : Nat} (pos : 0 < n) :
    2 ^ n.log2 ≤ roundBinary n ∧ roundBinary n ≤ 2 ^ (n.log2 + 1) := by
  have lo := Nat.log2_self_le (by omega : n ≠ 0)
  have hi := Nat.lt_log2_self (n := n)
  unfold roundBinary
  split
  · omega
  · have bits : 53 ≤ n.log2 := (Nat.le_log2 (by omega)).mpr (by omega)
    have top := top_bits (n := n) (by omega)
    have near := roundShift_bounds n (n.log2 - 52)
    have scale : ∀ a, 2 ^ (n.log2 + a) = 2 ^ (52 + a) * 2 ^ (n.log2 - 52) := fun a => by
      rw [← Nat.pow_add]; congr 1; omega
    constructor
    · calc 2 ^ n.log2 = 2 ^ 52 * 2 ^ (n.log2 - 52) := by simpa using scale 0
        _ ≤ _ := Nat.mul_le_mul_right _ (by omega)
    · calc roundShift n (n.log2 - 52) * 2 ^ (n.log2 - 52) ≤ 2 ^ 53 * 2 ^ (n.log2 - 52) :=
          Nat.mul_le_mul_right _ (by omega)
        _ = 2 ^ (n.log2 + 1) := (scale 1).symm

theorem roundBinary_pos {n : Nat} (pos : 0 < n) : 0 < roundBinary n :=
  lt_of_lt_of_le (Nat.two_pow_pos _) (roundBinary_bounds pos).1

theorem roundBinary_mono : Monotone roundBinary := by
  intro n n' le
  rcases Nat.eq_zero_or_pos n with rfl | pos
  · simp [roundBinary]
  have bits := log2_mono pos le
  rcases Nat.lt_or_eq_of_le bits with less | same
  · -- different binades: a power of two separates the rounded values
    calc roundBinary n ≤ 2 ^ (n.log2 + 1) := (roundBinary_bounds pos).2
      _ ≤ 2 ^ n'.log2 := Nat.pow_le_pow_right (by norm_num) less
      _ ≤ roundBinary n' := (roundBinary_bounds (by omega)).1
  · -- one binade: both are rounded at the same shift
    unfold roundBinary
    by_cases narrow : n' < 2 ^ 53
    · rw [if_pos (by omega), if_pos narrow]
      exact le
    · have wide : 53 ≤ n'.log2 := (Nat.le_log2 (by omega)).mpr (by omega)
      have wide' : ¬n < 2 ^ 53 := fun narrow' =>
        absurd ((Nat.log2_lt (by omega)).mpr narrow') (by omega)
      rw [if_neg wide', if_neg narrow, same]
      exact Nat.mul_le_mul_right _ (roundShift_mono _ le)

theorem roundBinary_exact {n : Nat} (small : n ≤ 2 ^ 53) : roundBinary n = n := by
  unfold roundBinary
  split
  · rfl
  · obtain rfl : n = 2 ^ 53 := by omega
    rw [Nat.log2_two_pow]
    decide

/-! ### Normal doubles -/

/-- `u` is the normal double of sign `s` whose magnitude is the whole number `v`: a 53-bit
mantissa `M` at exponent `e - 52`, so that `M * 2^e = v * 2^52`. -/
def IsNormal (s : Sign) (v : Nat) (u : UnpackedFloat) : Prop :=
  ∃ (M e : Nat) (pos : 0 < M), u = .finite s M ((e : Int) - 52) pos ∧ 2 ^ 52 ≤ M ∧
    M < 2 ^ 53 ∧ e ≤ 64 ∧ M * 2 ^ e = v * 2 ^ 52

/-- An integer of 54 to 64 bits rounds to 53 bits, carrying into the next exponent when the
rounded mantissa overflows. -/
theorem roundWithAccuracy_wide (s : Sign) {n : Nat} (wide : 53 ≤ n.log2) (small : n.log2 < 64) :
    IsNormal s (roundShift n (n.log2 - 52) * 2 ^ (n.log2 - 52))
      (roundWithAccuracy .binary64 s n 0 .exact) := by
  have top := top_bits (n := n) (by omega)
  have near := roundShift_bounds n (n.log2 - 52)
  have scale : 2 ^ n.log2 = 2 ^ (n.log2 - 52) * 2 ^ 52 := by
    rw [← Nat.pow_add, show n.log2 - 52 + 52 = n.log2 by omega]
  have low : (-1074 : Int) ≤ ((n.log2 - 52 : Nat) : Int) := by omega
  unfold roundWithAccuracy
  rw [shiftToTargetExponent_wide wide]
  dsimp only
  rw [roundedMantissa_shiftRight]
  by_cases carry : roundShift n (n.log2 - 52) = 2 ^ 53
  · -- the rounded mantissa overflowed: one more zero bit is dropped
    simp only [carry, shiftToTargetExponent_carry low]
    rw [dif_neg (by positivity)]
    refine ⟨2 ^ 52, n.log2 + 1, Nat.two_pow_pos 52, by congr 1; omega, le_refl _, by norm_num,
      by omega, ?_⟩
    rw [pow_succ 2 n.log2, scale]
    ring
  · have fits : roundShift n (n.log2 - 52) < 2 ^ 53 := by omega
    simp only [shiftToTargetExponent_normal (by omega) fits low]
    rw [dif_neg (by omega)]
    refine ⟨_, n.log2, by omega, by congr 1; omega, by omega, fits, by omega, ?_⟩
    rw [scale]
    ring

/-- A positive integer of at most 64 bits rounds to the normal double of its rounded
magnitude. -/
theorem round_normal (s : Sign) {n : Nat} (pos : 0 < n) (small : n.log2 < 64) :
    IsNormal s (roundBinary n) (round .binary64 s n 0) := by
  have nonzero : n ≠ 0 := by omega
  by_cases narrow : n < 2 ^ 53
  · -- fewer than 54 bits: shifted left to 53 bits, exactly
    have bits : n.log2 ≤ 52 := Nat.lt_succ_iff.mp ((Nat.log2_lt nonzero).mpr narrow)
    have lo := Nat.log2_self_le nonzero
    have hi := Nat.lt_log2_self (n := n)
    have full : ∀ a, 2 ^ (a + 52) = 2 ^ (a + n.log2) * 2 ^ (52 - n.log2) := fun a => by
      rw [← Nat.pow_add]; congr 1; omega
    have mantissaLo : 2 ^ 52 ≤ n * 2 ^ (52 - n.log2) := by
      simpa [full 0] using Nat.mul_le_mul_right (2 ^ (52 - n.log2)) lo
    have mantissaHi : n * 2 ^ (52 - n.log2) < 2 ^ 53 := by
      have := Nat.mul_lt_mul_of_pos_right hi (Nat.two_pow_pos (52 - n.log2))
      rwa [Nat.add_comm, ← full 1] at this
    have shift : (0 - max ((n.log2 : Int) + 0 - 52) (-1074)).toNat = 52 - n.log2 := by omega
    simp only [UnpackedFloat.round, decreaseExponent, targetExponent_eq, shift, Nat.shiftLeft_eq]
    rw [roundWithAccuracy_normal s mantissaLo mantissaHi (by omega), roundBinary, if_pos narrow]
    refine ⟨_, n.log2, by omega, by congr 1; omega, mantissaLo, mantissaHi, by omega, ?_⟩
    rw [full 0, Nat.zero_add]
    ring
  · have wide : 53 ≤ n.log2 := (Nat.le_log2 nonzero).mpr (by omega)
    have shift : (0 - max ((n.log2 : Int) + 0 - 52) (-1074)).toNat = 0 := by omega
    simp only [UnpackedFloat.round, decreaseExponent, targetExponent_eq, shift,
      Nat.shiftLeft_zero, Nat.cast_zero, Int.sub_zero]
    rw [roundBinary, if_neg narrow]
    exact roundWithAccuracy_wide s wide small

theorem unpackSign_packComponents (s : Sign) (e : BitVec 11) (m : BitVec 52) :
    unpackSign (packComponents .binary64 s e m) = s.toBitVec := by
  apply BitVec.eq_of_toNat_eq
  have sign : s.toBitVec.toNat < 2 := s.toBitVec.isLt
  have exponent : e.toNat < 2 ^ 11 := e.isLt
  have mantissa : m.toNat < 2 ^ 52 := m.isLt
  simp only [unpackSign, packComponents, BitVec.toNat_cast, BitVec.extractLsb_toNat,
    BitVec.toNat_append]
  rw [← Nat.shiftLeft_add_eq_or_of_lt e.isLt, ← Nat.shiftLeft_add_eq_or_of_lt m.isLt]
  simp only [Nat.shiftLeft_eq, Nat.shiftRight_eq_div_pow]
  omega

theorem ofBitVec_toBitVec (s : Sign) : Sign.ofBitVec s.toBitVec = s := by
  cases s <;> rfl

/-- A normal mantissa field stands for the mantissa with its implicit leading bit. -/
theorem implicit_toNat (m : BitVec 52) : (1#1 ++ m).toNat = 2 ^ 52 + m.toNat := by
  rw [BitVec.toNat_append, ← Nat.shiftLeft_add_eq_or_of_lt m.isLt]
  simp [Nat.shiftLeft_eq]

/-- A normal double in the exponent range packs to a pattern that unpacks to it again. -/
theorem unpack_pack_normal (s : Sign) {M : Nat} (lo : 2 ^ 52 ≤ M) (hi : M < 2 ^ 53) {E : Int}
    (low : -1074 ≤ E) (high : E ≤ 971) (pos : 0 < M) :
    (Float.Model.pack (.finite s M E pos)).unpack = .finite s M E pos := by
  have bits : M.log2 + 1 = Format.binary64.mantissaBits :=
    congrArg (· + 1) ((Nat.log2_eq_iff (by omega)).mpr ⟨lo, hi⟩)
  have biased : (E + Format.binary64.exponentBias +
      Format.binary64.mantissaBitsWithoutImplicit).toNat = (E + 1075).toNat := by
    simp [Format.exponentBias]; omega
  have exponentVal : (BitVec.ofNat 11 (E + 1075).toNat).toNat = (E + 1075).toNat := by
    rw [BitVec.toNat_ofNat, Nat.mod_eq_of_lt (by omega)]
  have notZero : BitVec.ofNat 11 (E + 1075).toNat ≠ 0#11 := by
    intro zero
    have := congrArg BitVec.toNat zero
    rw [exponentVal, BitVec.toNat_zero] at this
    omega
  have notAllOnes : BitVec.ofNat 11 (E + 1075).toNat ≠ -1#11 := by
    intro ones
    have := congrArg BitVec.toNat ones
    rw [exponentVal, BitVec.neg_one_eq_allOnes, BitVec.toNat_allOnes] at this
    omega
  have mantissaVal : (1#1 ++ BitVec.ofNat 52 M).toNat = M := by
    rw [implicit_toNat, BitVec.toNat_ofNat]
    omega
  unfold Float.Model.pack Float.Model.unpack UnpackedFloat.pack
  simp only [biased]
  rw [if_neg (by simp; omega), if_pos bits]
  unfold UnpackedFloat.unpack
  simp only [unpackMantissa_packComponents, unpackExponent_packComponents,
    unpackSign_packComponents, notAllOnes, notZero, if_false, ofBitVec_toBitVec, exponentVal,
    mantissaVal]
  congr 1
  simp [Format.exponentBias]
  omega

theorem IsNormal.unpack_pack {s : Sign} {v : Nat} {u : UnpackedFloat} (normal : IsNormal s v u) :
    (Float.Model.pack u).unpack = u := by
  obtain ⟨M, e, pos, rfl, lo, hi, top, -⟩ := normal
  exact unpack_pack_normal s lo hi (by omega) (by omega) pos

theorem IsNormal.neg {s : Sign} {v : Nat} {u : UnpackedFloat} (normal : IsNormal s v u) :
    IsNormal (-s) v u.neg := by
  obtain ⟨M, e, pos, rfl, rest⟩ := normal
  exact ⟨M, e, pos, rfl, rest⟩

theorem IsNormal.mul_one {s : Sign} {v : Nat} {u : UnpackedFloat} (normal : IsNormal s v u) :
    UnpackedFloat.mul .binary64 u (.finite .positive (2 ^ 52) (-52) (Nat.two_pow_pos 52)) = u := by
  obtain ⟨M, e, pos, rfl, lo, hi, top, -⟩ := normal
  have wide : 52 ≤ M.log2 := (Nat.le_log2 (by omega)).mpr lo
  have sign : s * Sign.positive = s := by cases s <;> rfl
  simp only [UnpackedFloat.mul, sign]
  rw [show (e : Int) - 52 + -52 = ((e : Int) - 52) - (52 : Nat) by omega,
    roundWithAccuracy_scale s pos wide, roundWithAccuracy_normal s lo hi (by omega)]

/-- Normal doubles compare by exponent and then by mantissa, which is the order of their
values. -/
theorem compare_normal {M M' e e' : Nat} (lo : 2 ^ 52 ≤ M) (hi : M < 2 ^ 53)
    (lo' : 2 ^ 52 ≤ M') (hi' : M' < 2 ^ 53) :
    (compare ((e : Int) - 52) ((e' : Int) - 52)).then (compare M M') =
      compare (M * 2 ^ e) (M' * 2 ^ e') := by
  -- a higher exponent outweighs any mantissa
  have outweighs : ∀ {M M' e e' : Nat}, M < 2 ^ 53 → 2 ^ 52 ≤ M' → e < e' →
      M * 2 ^ e < M' * 2 ^ e' := fun {M M' e e'} hi lo' less =>
    calc M * 2 ^ e < 2 ^ 53 * 2 ^ e := Nat.mul_lt_mul_of_pos_right hi (Nat.two_pow_pos e)
      _ = 2 ^ 52 * 2 ^ (e + 1) := by rw [pow_succ 2 e]; ring
      _ ≤ M' * 2 ^ e' := Nat.mul_le_mul lo' (Nat.pow_le_pow_right (by norm_num) less)
  rcases lt_trichotomy e e' with less | rfl | more
  · rw [Int.compare_eq_lt.mpr (by omega), Nat.compare_eq_lt.mpr (outweighs hi lo' less)]
    rfl
  · rw [Int.compare_eq_eq.mpr rfl]
    rcases lt_trichotomy M M' with less | rfl | more
    · rw [Nat.compare_eq_lt.mpr less,
        Nat.compare_eq_lt.mpr (Nat.mul_lt_mul_of_pos_right less (Nat.two_pow_pos e))]
      rfl
    · simp
    · rw [Nat.compare_eq_gt.mpr more,
        Nat.compare_eq_gt.mpr (Nat.mul_lt_mul_of_pos_right more (Nat.two_pow_pos e))]
      rfl
  · rw [Int.compare_eq_gt.mpr (by omega), Nat.compare_eq_gt.mpr (outweighs hi' lo more)]
    rfl

theorem compare_mul_pow (a b k : Nat) : compare (a * 2 ^ k) (b * 2 ^ k) = compare a b := by
  have pos := Nat.two_pow_pos k
  rcases lt_trichotomy a b with less | rfl | more
  · rw [Nat.compare_eq_lt.mpr less, Nat.compare_eq_lt.mpr (Nat.mul_lt_mul_of_pos_right less pos)]
  · simp
  · rw [Nat.compare_eq_gt.mpr more, Nat.compare_eq_gt.mpr (Nat.mul_lt_mul_of_pos_right more pos)]

theorem IsNormal.compare_positive {v v' : Nat} {u u' : UnpackedFloat}
    (normal : IsNormal .positive v u) (normal' : IsNormal .positive v' u') :
    u.compare u' = some (compare v v') := by
  obtain ⟨M, e, pos, rfl, lo, hi, -, value⟩ := normal
  obtain ⟨M', e', pos', rfl, lo', hi', -, value'⟩ := normal'
  show some ((compare ((e : Int) - 52) ((e' : Int) - 52)).then (compare M M')) = _
  rw [compare_normal lo hi lo' hi', value, value', compare_mul_pow]

theorem IsNormal.compare_negative {v v' : Nat} {u u' : UnpackedFloat}
    (normal : IsNormal .negative v u) (normal' : IsNormal .negative v' u') :
    u.compare u' = some (compare v' v) := by
  obtain ⟨M, e, pos, rfl, lo, hi, -, value⟩ := normal
  obtain ⟨M', e', pos', rfl, lo', hi', -, value'⟩ := normal'
  show some ((compare ((e : Int) - 52) ((e' : Int) - 52)).then (compare M M')).swap = _
  rw [compare_normal lo hi lo' hi', value, value', compare_mul_pow, Nat.compare_swap]

/-! ### From integers to doubles -/

theorem unpack_one :
    (Float.ofBits 0x3FF0000000000000).toModel.unpack =
      .finite .positive (2 ^ 52) (-52) (Nat.two_pow_pos 52) := by
  rfl

/-- Below `2^53` an integer converts exactly, through its 64-bit pattern times the double
`1`. -/
theorem ofNat_narrow {n : Nat} (pos : 0 < n) (narrow : n < 2 ^ 53) :
    IsNormal .positive (roundBinary n) (Float.ofNat n).toModel.unpack := by
  have small : n.log2 < 64 := (Nat.log2_lt (by omega)).mpr (by omega)
  have normal := round_normal .positive pos small
  have toNat : n.toUInt64.toNat = n := UInt64.toNat_ofNat_of_lt' (lt_trans narrow (by decide))
  have compared : compare (n : Int) 0 = .gt := Int.compare_eq_gt.mpr (by omega)
  have whole : (n.toUInt64.toFloat).toModel.unpack = round .binary64 .positive n 0 := by
    show (Float.Model.pack
      (UnpackedFloat.normalize .binary64 (n.toUInt64.toNat : Int) 0 .positive)).unpack = _
    simp only [toNat, UnpackedFloat.normalize, compared, Int.toNat_natCast]
    exact normal.unpack_pack
  unfold Float.ofNat
  show IsNormal .positive (roundBinary n) (Float.ofScientific n false 0).toModel.unpack
  rw [Float.ofScientific, dif_pos ⟨narrow, by decide⟩]
  show IsNormal .positive (roundBinary n)
    (Float.Model.pack (UnpackedFloat.mul .binary64 (n.toUInt64.toFloat).toModel.unpack
      (Float.ofBits 0x3FF0000000000000).toModel.unpack)).unpack
  rw [whole, unpack_one, normal.mul_one, normal.unpack_pack]
  exact normal

/-- From `2^53` on an integer converts through the model of decimal scientific notation,
which rounds it once. -/
theorem ofNat_wide {n : Nat} (wide : 2 ^ 53 ≤ n) (small : n ≤ 2 ^ 63) :
    IsNormal .positive (roundBinary n) (Float.ofNat n).toModel.unpack := by
  have nonzero : n ≠ 0 := by omega
  have bits : 53 ≤ n.log2 := (Nat.le_log2 nonzero).mpr wide
  have top : n.log2 < 64 := (Nat.log2_lt nonzero).mpr (by omega)
  have normal := roundWithAccuracy_wide .positive bits top
  have scientific : UnpackedFloat.ofScientific .binary64 n (Int.ofNat 0) =
      roundWithAccuracy .binary64 .positive n 0 .exact := by
    have beyond : ¬(0 : Int) < -((2 : Int) ^ Format.binary64.exponentBits + n.log2) := by
      have : (0 : Int) ≤ 2 ^ Format.binary64.exponentBits := by positivity
      omega
    rw [UnpackedFloat.ofScientific, dif_neg nonzero]
    simp only [Int.ofNat_eq_natCast, Nat.cast_zero]
    rw [if_neg (by decide), if_neg beyond, if_pos (le_refl _)]
    simp only [UnpackedFloat.mul]
    rw [show n <<< Format.binary64.mantissaBits * 10 ^ (0 : Int).toNat = n * 2 ^ 53 by
        simp [Nat.shiftLeft_eq, Format.mantissaBits],
      show -(Format.binary64.mantissaBits : Int) + 0 = 0 - (53 : Nat) by
        simp [Format.mantissaBits]]
    exact roundWithAccuracy_scale _ (by omega) (by omega) 0 53
  unfold Float.ofNat
  show IsNormal .positive (roundBinary n) (Float.ofScientific n false 0).toModel.unpack
  rw [Float.ofScientific, dif_neg (by omega)]
  show IsNormal _ _ (Float.Model.pack (UnpackedFloat.ofScientific .binary64 n (Int.ofNat 0))).unpack
  rw [scientific, normal.unpack_pack, roundBinary, if_neg (by omega)]
  exact normal

theorem ofNat_isNormal {n : Nat} (pos : 0 < n) (small : n ≤ 2 ^ 63) :
    IsNormal .positive (roundBinary n) (Float.ofNat n).toModel.unpack := by
  by_cases narrow : n < 2 ^ 53
  · exact ofNat_narrow pos narrow
  · exact ofNat_wide (by omega) small

/-- `u` is the double nearest to the integer `z`: positive zero for zero, otherwise the
normal double of `z`'s sign and rounded magnitude. -/
inductive Encodes : Int → UnpackedFloat → Prop
  | zero : Encodes 0 (.zero .positive)
  | positive {n : Nat} {u : UnpackedFloat} :
      0 < n → IsNormal .positive (roundBinary n) u → Encodes n u
  | negative {n : Nat} {u : UnpackedFloat} :
      0 < n → IsNormal .negative (roundBinary n) u → Encodes (-n) u

/-- Every 64-bit integer converts to its nearest double. -/
theorem ofInt_encodes (z : Int) (range : z.natAbs ≤ 2 ^ 63) :
    Encodes z (Float.ofInt z).toModel.unpack := by
  cases z with
  | ofNat n =>
    rcases Nat.eq_zero_or_pos n with rfl | pos
    · exact .zero
    · exact .positive pos (ofNat_isNormal pos range)
  | negSucc n =>
    -- a negative integer converts as its magnitude, negated
    have normal := ofNat_isNormal (Nat.succ_pos n) (by simpa using range)
    show Encodes (-((n + 1 : Nat) : Int))
      (Float.Model.pack (Float.ofNat (n + 1)).toModel.unpack.neg).unpack
    rw [normal.neg.unpack_pack]
    exact .negative (Nat.succ_pos n) normal.neg

theorem unpacked_ofInt64 (a : Int64) : Encodes a.toInt (ofInt64 a).unpacked := by
  have lo := a.minValue_le_toInt
  have hi := a.toInt_lt
  exact ofInt_encodes a.toInt (by simp [Int64.minValue] at lo hi; omega)

/-! ### The order of nearest doubles -/

/-- The double nearest to an integer, as an integer: its magnitude rounded to 53 significant
bits, ties to even, with its sign. -/
def nearest (z : Int) : Int :=
  if z < 0 then -(roundBinary z.natAbs : Int) else roundBinary z.natAbs

theorem nearest_natCast (n : Nat) : nearest n = roundBinary n := by
  simp [nearest]

theorem nearest_zero : nearest 0 = 0 := rfl

theorem nearest_neg {n : Nat} (pos : 0 < n) : nearest (-n) = -(roundBinary n : Int) := by
  simp [nearest, pos]

theorem compare_neg (a b : Int) : compare (-a) (-b) = compare b a := by
  rcases lt_trichotomy a b with less | rfl | more
  · rw [Int.compare_eq_gt.mpr (by omega), Int.compare_eq_gt.mpr less]
  · simp
  · rw [Int.compare_eq_lt.mpr (by omega), Int.compare_eq_lt.mpr more]

theorem compare_natCast (a b : Nat) : compare (a : Int) (b : Int) = compare a b := by
  simpa [cmp_eq_compare] using (Nat.strictMono_cast (α := Int)).cmp_map_eq a b

/-- The doubles nearest to two integers compare as their values do. -/
theorem Encodes.compare_nearest {z w : Int} {u v : UnpackedFloat} (hz : Encodes z u)
    (hw : Encodes w v) : u.compare v = some (compare (nearest z) (nearest w)) := by
  -- across signs and zeros the comparison is settled by the signs alone
  cases hz with
  | zero =>
    cases hw with
    | zero => rfl
    | positive pos normal =>
      obtain ⟨M, e, p, rfl, -⟩ := normal
      rw [nearest_zero, nearest_natCast,
        Int.compare_eq_lt.mpr (by simpa using roundBinary_pos pos)]
      rfl
    | negative pos normal =>
      obtain ⟨M, e, p, rfl, -⟩ := normal
      rw [nearest_zero, nearest_neg pos,
        Int.compare_eq_gt.mpr (by simpa using roundBinary_pos pos)]
      rfl
  | positive pos normal =>
    cases hw with
    | zero =>
      obtain ⟨M, e, p, rfl, -⟩ := normal
      rw [nearest_zero, nearest_natCast,
        Int.compare_eq_gt.mpr (by simpa using roundBinary_pos pos)]
      rfl
    | positive pos' normal' =>
      rw [normal.compare_positive normal', nearest_natCast, nearest_natCast, compare_natCast]
    | negative pos' normal' =>
      obtain ⟨M, e, p, rfl, -⟩ := normal
      obtain ⟨M', e', p', rfl, -⟩ := normal'
      rw [nearest_natCast, nearest_neg pos', Int.compare_eq_gt.mpr (by
        have := roundBinary_pos pos; have := roundBinary_pos pos'; omega)]
      rfl
  | negative pos normal =>
    cases hw with
    | zero =>
      obtain ⟨M, e, p, rfl, -⟩ := normal
      rw [nearest_zero, nearest_neg pos,
        Int.compare_eq_lt.mpr (by simpa using roundBinary_pos pos)]
      rfl
    | positive pos' normal' =>
      obtain ⟨M, e, p, rfl, -⟩ := normal
      obtain ⟨M', e', p', rfl, -⟩ := normal'
      rw [nearest_neg pos, nearest_natCast, Int.compare_eq_lt.mpr (by
        have := roundBinary_pos pos; have := roundBinary_pos pos'; omega)]
      rfl
    | negative pos' normal' =>
      rw [normal.compare_negative normal', nearest_neg pos, nearest_neg pos', compare_neg,
        compare_natCast]

/-- Rounding to the nearest double keeps the order of integers. -/
theorem nearest_mono : Monotone nearest := by
  intro z w le
  unfold nearest
  split_ifs with negZ negW negW
  · have := roundBinary_mono (show w.natAbs ≤ z.natAbs by omega)
    omega
  · omega
  · omega
  · have := roundBinary_mono (show z.natAbs ≤ w.natAbs by omega)
    omega

theorem nearest_exact {z : Int} (small : z.natAbs ≤ 2 ^ 53) : nearest z = z := by
  unfold nearest
  rw [roundBinary_exact small]
  split <;> omega

theorem lt_eq_compare (a b : Real) :
    a.lt b = decide (a.unpacked.compare b.unpacked = some .lt) := by
  simp only [Real.lt, unpacked, ← unpack_ofBits]
  simp [LT.lt, Float.lt, Float.Model.lt, UnpackedFloat.lt, Real.toFloat, Float.ofBits]

theorem le_eq_compare (a b : Real) : a.le b = (a.unpacked.compare b.unpacked).any (·.isLE) := by
  rw [Bool.eq_iff_iff, Real.le, decide_eq_true_iff]
  show Float.le _ _ = true ↔ _
  rw [Float.le, decide_eq_true_iff]
  show (Float.Model.ofBits a.bits).unpack.le (Float.Model.ofBits b.bits).unpack = true ↔ _
  rw [unpack_ofBits, unpack_ofBits]
  rfl

theorem isLE_compare (p q : Int) : (compare p q).isLE = decide (p ≤ q) := by
  rcases lt_trichotomy p q with less | rfl | more
  · simp [Int.compare_eq_lt.mpr less, less.le]
  · simp
  · simp [Int.compare_eq_gt.mpr more, not_le.mpr more]

/-- Two integers are in order as doubles when their nearest doubles are. -/
theorem lt_ofInt64 (a b : Int64) :
    (ofInt64 a).lt (ofInt64 b) = decide (nearest a.toInt < nearest b.toInt) := by
  rw [lt_eq_compare, (unpacked_ofInt64 a).compare_nearest (unpacked_ofInt64 b)]
  simp [Int.compare_eq_lt]

theorem le_ofInt64 (a b : Int64) :
    (ofInt64 a).le (ofInt64 b) = decide (nearest a.toInt ≤ nearest b.toInt) := by
  rw [le_eq_compare, (unpacked_ofInt64 a).compare_nearest (unpacked_ofInt64 b), Option.any_some,
    isLE_compare]

end ClassScript.Real
