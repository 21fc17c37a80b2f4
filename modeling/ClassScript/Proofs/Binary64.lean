import Mathlib
import ClassScript.Object.Identity

/-! Reals as binary64 patterns. Unpacking a pattern and packing it again gives the
pattern back unless it is a NaN, so two reals are equal numbers exactly when they are
one pattern that is no NaN, or two zeros. Main statement: `hash_eq_of_eqNum`, equal
reals hash alike, the two zeros to 0. -/
namespace ClassScript.Real

open Float.Model Float.Model.UnpackedFloat

theorem signBit_roundtrip (v : BitVec 1) : (Sign.ofBitVec v).toBitVec = v := by
  revert v; decide

theorem reassemble (b : BitVec Format.binary64.numBits) :
    packComponents .binary64 (Sign.ofBitVec (unpackSign b)) (unpackExponent b)
      (unpackMantissa b) = b := by
  unfold packComponents
  rw [signBit_roundtrip]
  apply BitVec.eq_of_getLsbD_eq
  intro i below
  simp only [unpackSign, unpackExponent, unpackMantissa, BitVec.getLsbD_append,
    BitVec.getLsbD_cast, BitVec.getLsbD_extractLsb]
  by_cases fraction : i < 52
  · simp [fraction]
  · by_cases exponent : i - 52 < 11
    · simp [fraction, exponent]
      congr 1; omega
    · have top : i = 63 := by simp at below; omega
      subst top
      simp [BitVec.getLsbD_eq_getElem (show 63 < 64 by omega)]

theorem log2_of_subnormal (m : Nat) (pos : 0 < m) (below : m < 2 ^ 52) : m.log2 < 52 :=
  (Nat.log2_lt (by omega)).mpr below

theorem log2_of_normal (f : Nat) (below : f < 2 ^ 52) : (2 ^ 52 + f).log2 = 52 := by
  apply Nat.le_antisymm
  · exact Nat.lt_succ_iff.mp ((Nat.log2_lt (by omega)).mpr (by omega))
  · exact (Nat.le_log2 (by omega)).mpr (by omega)

section Finite

variable (b : BitVec Format.binary64.numBits) (allOnes : ¬unpackExponent b = -1#_)
include allOnes

/-- A subnormal pattern, with an exponent field of zeros and a fraction that is not, packs
back to its own fields. -/
theorem pack_unpack_subnormal (zeroField : unpackExponent b = 0#_)
    (noFraction : ¬unpackMantissa b = 0#_) :
    UnpackedFloat.pack .binary64 (UnpackedFloat.unpack .binary64 b) =
      packComponents .binary64 (Sign.ofBitVec (unpackSign b)) (unpackExponent b)
        (unpackMantissa b) := by
  have fractionBound : (unpackMantissa b).toNat < 2 ^ 52 := (unpackMantissa b).isLt
  have pos : 0 < (unpackMantissa b).toNat := by
    rw [Nat.pos_iff_ne_zero]
    intro isZero
    exact noFraction (BitVec.eq_of_toNat_eq (by simpa using isZero))
  -- the fraction has fewer significant bits than a normal mantissa
  have short : ¬(unpackMantissa b).toNat.log2 + 1 = Format.binary64.mantissaBits := by
    have := log2_of_subnormal _ pos fractionBound
    simp only [Format.mantissaBits]; omega
  have unpacked : UnpackedFloat.unpack .binary64 b =
      .finite (Sign.ofBitVec (unpackSign b)) (unpackMantissa b).toNat (-1074) pos := by
    simp only [UnpackedFloat.unpack]
    rw [if_neg allOnes, if_pos zeroField, dif_neg noFraction, zeroField]
    rfl
  rw [unpacked]
  simp only [UnpackedFloat.pack]
  rw [if_neg (by decide), if_neg short, zeroField]
  simp

/-- A normal pattern packs back to its own fields: its mantissa is the fraction with the
implicit leading bit, and its exponent the field less the bias. -/
theorem pack_unpack_normal (zeroField : ¬unpackExponent b = 0#_) :
    UnpackedFloat.pack .binary64 (UnpackedFloat.unpack .binary64 b) =
      packComponents .binary64 (Sign.ofBitVec (unpackSign b)) (unpackExponent b)
        (unpackMantissa b) := by
  have fractionBound : (unpackMantissa b).toNat < 2 ^ 52 := (unpackMantissa b).isLt
  have exponentBound : (unpackExponent b).toNat < 2048 := (unpackExponent b).isLt
  have exponentNe : (unpackExponent b).toNat ≠ 2047 := by
    intro full; exact allOnes (BitVec.eq_of_toNat_eq (by simpa using full))
  have exponentPos : (unpackExponent b).toNat ≠ 0 := by
    intro none; exact zeroField (BitVec.eq_of_toNat_eq (by simpa using none))
  have implicit : (1#1 ++ unpackMantissa b).toNat = 2 ^ 52 + (unpackMantissa b).toNat := by
    rw [BitVec.toNat_append, ← Nat.shiftLeft_add_eq_or_of_lt fractionBound]
    simp [Nat.shiftLeft_eq]
  have full : (1#1 ++ unpackMantissa b).toNat.log2 + 1 = Format.binary64.mantissaBits := by
    rw [implicit, log2_of_normal _ fractionBound]; rfl
  have unpacked : UnpackedFloat.unpack .binary64 b =
      .finite (Sign.ofBitVec (unpackSign b)) (1#1 ++ unpackMantissa b).toNat
        ((unpackExponent b).toNat - 1075) (by omega) := by
    simp only [UnpackedFloat.unpack]
    rw [if_neg allOnes, if_neg zeroField]
    rfl
  rw [unpacked]
  simp only [UnpackedFloat.pack]
  have bias : (Format.binary64.exponentBias : Int) = 1023 := rfl
  have biased : (((unpackExponent b).toNat : Int) - 1075 + Format.binary64.exponentBias +
      Format.binary64.mantissaBitsWithoutImplicit).toNat = (unpackExponent b).toNat := by
    rw [bias]; simp; omega
  rw [biased, if_neg (by omega), if_pos full]
  congr 1
  · apply BitVec.eq_of_toNat_eq; simp
  · apply BitVec.eq_of_toNat_eq; simpa [implicit] using fractionBound

end Finite

/-- Packing an unpacked pattern gives the pattern back, unless it is a NaN: every
NaN packs to the one canonical NaN. -/
theorem pack_unpack (b : BitVec Format.binary64.numBits)
    (number : UnpackedFloat.unpack .binary64 b ≠ .notANumber) :
    UnpackedFloat.pack .binary64 (UnpackedFloat.unpack .binary64 b) = b := by
  conv => rhs; rw [← reassemble b]
  -- the exponent field decides: all ones (infinities and NaNs), zeros, or a normal number
  by_cases allOnes : unpackExponent b = -1#_
  · by_cases noFraction : unpackMantissa b = 0#_
    · simp [UnpackedFloat.unpack, UnpackedFloat.pack, packedInfinity, allOnes, noFraction]
    · simp [UnpackedFloat.unpack, allOnes, noFraction] at number
  · by_cases zeroField : unpackExponent b = 0#_
    · by_cases noFraction : unpackMantissa b = 0#_
      · simp [UnpackedFloat.unpack, UnpackedFloat.pack, packedZero, zeroField, noFraction]
      · exact pack_unpack_subnormal b allOnes zeroField noFraction
    · exact pack_unpack_normal b allOnes zeroField

theorem unpack_ofBits (x : UInt64) :
    (Float.Model.ofBits x).unpack = UnpackedFloat.unpack .binary64 x.toBitVec := by
  by_cases nan : UnpackedFloat.unpack .binary64 x.toBitVec = .notANumber
  · simp only [Float.Model.ofBits, Float.Model.unpack, Float.Model.pack, nan]
    rfl
  · simp [Float.Model.ofBits, Float.Model.unpack, Float.Model.pack, pack_unpack _ nan]

theorem compare_eq_some_eq (u v : UnpackedFloat) (same : u.compare v = some .eq) :
    u = v ∨ ∃ s t, u = .zero s ∧ v = .zero t := by
  cases u with
  | notANumber => simp [UnpackedFloat.compare] at same
  | infinity s =>
    cases v with
    | infinity t => cases s <;> cases t <;> simp_all [UnpackedFloat.compare, compare]
    | _ => cases s <;> simp_all [UnpackedFloat.compare]
  | zero s => cases v <;> (try cases ‹Sign›) <;> simp_all [UnpackedFloat.compare]
  | finite s m e pos =>
    cases v with
    | finite t n f pos' =>
      cases s <;> cases t <;> simp_all [UnpackedFloat.compare, Ordering.then_eq_eq]
    | _ => cases s <;> (try cases ‹Sign›) <;> simp_all [UnpackedFloat.compare]

def unpacked (r : Real) : UnpackedFloat := UnpackedFloat.unpack .binary64 r.bits.toBitVec

theorem eqNum_eq_compare (a b : Real) :
    a.eqNum b = (a.unpacked.compare b.unpacked == some .eq) := by
  simp only [unpacked, ← unpack_ofBits]
  rfl

theorem eq_of_unpacked_eq (a b : Real) (same : a.unpacked = b.unpacked)
    (number : a.unpacked ≠ .notANumber) : a = b := by
  have numberB : b.unpacked ≠ .notANumber := same ▸ number
  have : a.bits.toBitVec = b.bits.toBitVec := by
    rw [← pack_unpack _ number, ← pack_unpack _ numberB]
    exact congrArg _ same
  cases a; cases b
  simpa [UInt64.toBitVec_inj] using this

/-- A zero is one of the two patterns of zero, and both hash to 0. -/
theorem hash_of_zero (r : Real) (s : Sign) (isZero : r.unpacked = .zero s) : r.hash = 0 := by
  have number : r.unpacked ≠ .notANumber := by simp [isZero]
  have bits : r.bits.toBitVec = packedZero .binary64 s := by
    rw [← pack_unpack _ number]
    simp only [unpacked] at isZero
    rw [isZero]
    rfl
  obtain ⟨⟨v⟩⟩ := r
  subst bits
  cases s <;> decide +kernel

/-- Equal reals hash alike: equality is of one pattern or of two zeros. -/
theorem hash_eq_of_eqNum (a b : Real) (equal : a.eqNum b = true) : a.hash = b.hash := by
  rw [eqNum_eq_compare, beq_iff_eq] at equal
  rcases compare_eq_some_eq _ _ equal with same | ⟨s, t, zeroA, zeroB⟩
  · have number : a.unpacked ≠ .notANumber := by
      intro nan
      simp [nan, UnpackedFloat.compare] at equal
    rw [eq_of_unpacked_eq a b same number]
  · rw [hash_of_zero a s zeroA, hash_of_zero b t zeroB]

end ClassScript.Real
