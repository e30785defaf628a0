import Mathlib

/-!
Integers as binary64 numbers. An integer of 64 bits is read as a finite number where a number with a
fraction may stand. The bounds are crude: rounding adds at most one bit to a significand and shifts it
by no more than its length, and the largest exponent is far away. Main statement: `isFinite_ofInt`.
-/

namespace Negotiation.Json

open Float.Model Float.Model.UnpackedFloat

/-- A finite number with a significand of at most `bits` bits and an exponent of at most `top`. -/
inductive Within (bits : Nat) (top : Int) : UnpackedFloat → Prop
  | zero (s : Sign) : Within bits top (.zero s)
  | finite (s : Sign) {m : Nat} {e : Int} (hm : m < 2 ^ bits) (he : e ≤ top) (hpos : 0 < m) :
      Within bits top (.finite s m e hpos)

variable {bits bits' n m : Nat} {top top' e : Int} {u v : UnpackedFloat}

namespace Within

theorem mono (h : Within bits top u) (hbits : bits ≤ bits') (htop : top ≤ top') : Within bits' top' u := by
  cases h with
  | zero s => exact .zero s
  | finite s hm he hpos =>
    exact .finite s (Nat.lt_of_lt_of_le hm (Nat.pow_le_pow_right (by decide) hbits)) (he.trans htop) hpos

theorem neg (h : Within bits top u) : Within bits top u.neg := by
  cases h with
  | zero s => exact .zero (-s)
  | finite s hm he hpos => exact .finite (-s) hm he hpos

theorem isFinite {x : Float} (h : Within bits top x.toModel.unpack) : x.isFinite := by
  rw [Float.isFinite, Float.Model.isFinite]
  generalize x.toModel.unpack = u at h
  cases h <;> rfl

end Within

/-! ### Rounding -/

theorem mantissa_shiftRight_le (em : ExtendedMantissa) (n : Nat) : (em >>> n).mantissa ≤ em.mantissa := by
  induction n with
  | zero => exact Nat.le_refl _
  | succ n ih => exact Nat.le_trans (Nat.div_le_self _ 2) ih

theorem roundedMantissa_le (em : ExtendedMantissa) : em.roundedMantissa ≤ em.mantissa + 1 := by
  obtain ⟨m, r, s⟩ := em
  cases r <;> cases s <;>
    simp only [ExtendedMantissa.roundedMantissa, ExtendedMantissa.accuracy, Accuracy.roundToNearestEven] <;>
    omega

theorem log2_le (h : m < 2 ^ bits) : m.log2 ≤ bits := by
  by_cases hm : m = 0
  · simp [hm]
  · exact Nat.le_of_lt ((Nat.log2_lt hm).2 h)

/-- A shift to the exponent of the format drops bits, and no more of them than there are. -/
theorem shiftToTargetExponent_le (hm : m < 2 ^ bits) (he : e ≤ top) (htop : -1074 ≤ top) (acc : Accuracy) :
    let r := shiftToTargetExponent Format.binary64 m e acc
    r.1.mantissa ≤ m ∧ r.2 ≤ top + bits := by
  have hlog := log2_le hm
  refine ⟨?_, ?_⟩
  · refine (mantissa_shiftRight_le _ _).trans (Nat.le_of_eq ?_)
    rcases acc with _ | (_ | _ | _) <;> rfl
  · simp only [shiftToTargetExponent, shiftToExponent, Format.targetExponent, totalExponent,
      Format.mantissaBits, Format.minExponent]
    omega

/-- Rounding leaves a finite number that is hardly larger. -/
theorem within_roundWithAccuracy (s : Sign) (hm : m < 2 ^ bits) (he : e ≤ top) (htop : -1074 ≤ top)
    (acc : Accuracy) :
    Within (bits + 1) (top + (2 * bits + 1)) (roundWithAccuracy Format.binary64 s m e acc) := by
  obtain ⟨hm₁, he₁⟩ := shiftToTargetExponent_le hm he htop acc
  have hrounded : (shiftToTargetExponent Format.binary64 m e acc).1.roundedMantissa < 2 ^ (bits + 1) := by
    have := roundedMantissa_le (shiftToTargetExponent Format.binary64 m e acc).1
    omega
  obtain ⟨hm₂, he₂⟩ := shiftToTargetExponent_le hrounded he₁ (by omega) .exact
  simp only [roundWithAccuracy]
  split
  · exact .zero s
  · exact .finite s (Nat.lt_of_le_of_lt hm₂ hrounded) (he₂.trans (by omega)) _

/-- A natural number is rounded from a significand that fills up the format. -/
theorem within_normalize (hn : n < 2 ^ bits) (z : Sign) :
    Within (bits + 54) (2 * bits + 107) (UnpackedFloat.normalize Format.binary64 n 0 z) := by
  rw [UnpackedFloat.normalize]
  split
  · next hneg => exact absurd (Int.compare_eq_lt.1 hneg) (by omega)
  · exact .zero z
  · have hn : (n : Int).toNat < 2 ^ bits := hn
    have hlog := log2_le hn
    have hshift : (0 - Format.binary64.targetExponent (totalExponent (n : Int).toNat 0)).toNat ≤ 53 := by
      simp only [Format.targetExponent, totalExponent, Format.mantissaBits, Format.minExponent]
      omega
    simp only [UnpackedFloat.round, decreaseExponent]
    generalize (0 - Format.binary64.targetExponent (totalExponent (n : Int).toNat 0)).toNat = k at hshift
    have hm : (n : Int).toNat <<< k < 2 ^ (bits + 53) := by
      rw [Nat.shiftLeft_eq, Nat.pow_add]
      exact Nat.mul_lt_mul_of_lt_of_le hn (Nat.pow_le_pow_right (by decide) hshift) (by decide)
    have he : (0 : Int) - k ≤ 0 := by omega
    exact (within_roundWithAccuracy .positive hm he (by decide) .exact).mono (by omega) (by omega)

theorem within_mul (hu : Within bits top u) (hv : Within bits' top' v) (hlo : -1074 ≤ top + top') :
    Within (bits + bits' + 1) (top + top' + (2 * (bits + bits') + 1))
      (UnpackedFloat.mul Format.binary64 u v) := by
  cases hu with
  | zero s => cases hv <;> exact .zero _
  | finite s hm he hpos =>
    cases hv with
    | zero s' => exact .zero _
    | finite s' hm' he' hpos' =>
      have hprod := Nat.pow_add 2 bits bits' ▸ Nat.mul_lt_mul'' hm hm'
      exact (within_roundWithAccuracy (s * s') hprod (Int.add_le_add he he') hlo .exact).mono
        (Nat.le_refl _) (by omega)

/-! ### Packing -/

/-- The exponent of what is packed, as its bits count it. -/
theorem toNat_unpackExponent_pack (h : Within bits top u) (hlo : 0 ≤ top) (hhi : top ≤ 970) :
    (@unpackExponent Format.binary64 (UnpackedFloat.pack Format.binary64 u)).toNat ≤ top + 1075 := by
  cases h with
  | zero s =>
    rw [UnpackedFloat.pack, packedZero, unpackExponent_packComponents]
    exact Int.add_nonneg hlo (by decide)
  | finite s hm he hpos =>
    have hbias : Format.exponentBias Format.binary64 = 1023 := rfl
    simp only [UnpackedFloat.pack, hbias]
    rw [if_neg (by omega)]
    split <;> rw [unpackExponent_packComponents, BitVec.toNat_ofNat] <;> omega

/-- What is packed and unpacked again stays finite, with a significand of the format. -/
theorem within_unpack_pack (h : Within bits top u) (hlo : 0 ≤ top) (hhi : top ≤ 970) :
    Within 53 top (UnpackedFloat.unpack Format.binary64 (UnpackedFloat.pack Format.binary64 u)) := by
  have hexp := toNat_unpackExponent_pack h hlo hhi
  generalize UnpackedFloat.pack Format.binary64 u = b at hexp
  have hbias : Format.exponentBias Format.binary64 = 1023 := rfl
  have hbits : Format.binary64.mantissaBitsWithoutImplicit = 52 := rfl
  rw [UnpackedFloat.unpack]
  split
  · next hall =>
    have hall : (unpackExponent b).toNat = 2047 := congrArg BitVec.toNat hall
    omega
  · split
    · next hzero =>
      split
      · exact .zero _
      · have hzero : (unpackExponent b).toNat = 0 := congrArg BitVec.toNat hzero
        exact .finite _ (Nat.lt_trans (unpackMantissa b).isLt (by decide)) (by omega) _
    · exact .finite _ (1#1 ++ unpackMantissa b).isLt (by omega) _

/-- What is computed and stored is finite. -/
theorem within_ofModel_pack (h : Within bits top u) (hlo : 0 ≤ top) (hhi : top ≤ 970) :
    Within 53 top (Float.ofModel (Float.Model.pack u)).toModel.unpack :=
  within_unpack_pack h hlo hhi

/-! ### Integers -/

theorem within_ofScientific (hn : n < 2 ^ bits) :
    Within (bits + 55) (2 * bits + 56) (UnpackedFloat.ofScientific Format.binary64 n 0) := by
  rw [UnpackedFloat.ofScientific]
  split
  · exact .zero _
  · next hne =>
    have hpow : (2 : Int) ^ Format.binary64.exponentBits = 2048 := rfl
    rw [if_neg (by omega), if_neg (by omega), if_pos (Int.le_refl 0)]
    have hm : n <<< Format.binary64.mantissaBits < 2 ^ (bits + 53) := by
      rw [Nat.shiftLeft_eq, Nat.pow_add]
      exact Nat.mul_lt_mul_of_pos_right hn (by decide)
    have hpos : 0 < n <<< Format.binary64.mantissaBits := by simpa using Nat.pos_of_ne_zero hne
    have hu : Within (bits + 53) (-53) (.finite .positive _ _ hpos) := .finite _ hm (Int.le_refl (-53)) hpos
    have hv : Within 1 0 (.finite .positive (10 ^ Int.toNat 0) 0 (by decide)) :=
      .finite _ (by decide) (Int.le_refl 0) _
    exact (within_mul hu hv (by decide)).mono (by omega) (by omega)

theorem within_ofNat (hn : n < 2 ^ 64) : Within 53 600 (Float.ofNat n).toModel.unpack := by
  have hof : Float.ofNat n = Float.ofScientific n false 0 := rfl
  rw [hof, Float.ofScientific]
  split
  · -- a small number is stored as it is and multiplied by one
    have hone : Within 53 0 (Float.ofBits 0x3FF0000000000000).toModel.unpack :=
      .finite .positive (by decide) (by decide) (by decide)
    have hval : n.toUInt64.toNat < 2 ^ 64 := n.toUInt64.toNat_lt
    have hsmall : Within 53 235 n.toUInt64.toFloat.toModel.unpack :=
      within_ofModel_pack (within_normalize hval .positive) (by decide) (by decide)
    exact (within_ofModel_pack (within_mul hsmall hone (by decide)) (by decide) (by decide)).mono
      (by decide) (by decide)
  · -- a large number is rounded from its own digits
    exact (within_ofModel_pack (within_ofScientific hn) (by decide) (by decide)).mono (by decide) (by decide)

/-- INTEGERS: every integer of 64 bits, with or without a sign, is a finite binary64 number. -/
theorem isFinite_ofInt {n : Int} (hlo : -0x8000000000000000 ≤ n) (hhi : n ≤ 0xFFFFFFFFFFFFFFFF) :
    (Float.ofInt n).isFinite := by
  cases n with
  | ofNat n =>
    have hhi : (n : Int) ≤ 0xFFFFFFFFFFFFFFFF := hhi
    exact (within_ofNat (n := n) (by omega)).isFinite
  | negSucc n =>
    have h := within_ofNat (n := n + 1) (by omega)
    exact (within_ofModel_pack h.neg (by decide) (by decide)).isFinite

end Negotiation.Json
