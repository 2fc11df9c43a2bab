/-
# Integers are finite numbers

An integer of a document is read as the nearest number of 64 bits, and that is always a finite one
(`isFinite_floatOfInt`): integers of 64 bits are far below the greatest number, so the exponent of
the number never takes the place of the infinite ones.
-/
import Mathlib.Algebra.Order.Ring.Nat
import ResponsiveStyle.Json.Basic

namespace ResponsiveStyle.Json

open Float.Model (Format UnpackedFloat totalExponent)
open Float.Model.UnpackedFloat (Sign Accuracy ExtendedMantissa)

/-! ## Small numbers -/

/-- Zero, and the numbers whose exponent is not above the greatest one of a finite number. -/
def Small : UnpackedFloat → Prop
  | .zero _ => True
  | .finite _ _ e _ => e ≤ 971
  | _ => False

/-- Small numbers are finite. -/
theorem Small.isFinite {u : UnpackedFloat} (h : Small u) : u.isFinite = true := by
  cases u with
  | zero s => rfl
  | finite s m e hm => rfl
  | infinity s => exact absurd h id
  | notANumber => exact absurd h id

/-- The sign does not matter. -/
theorem Small.neg {u : UnpackedFloat} (h : Small u) : Small u.neg := by
  cases u with
  | zero s => trivial
  | finite s m e hm => exact h
  | infinity s => exact absurd h id
  | notANumber => exact absurd h id

/-! ## Bits -/

/-- The bits of the exponent of a number that is neither infinite nor missing. -/
theorem unpackExponent_pack {u : UnpackedFloat} (h : Small u) :
    UnpackedFloat.unpackExponent (UnpackedFloat.pack Format.binary64 u) ≠ -1#11 := by
  cases u with
  | infinity s => exact absurd h id
  | notANumber => exact absurd h id
  | zero s =>
    show UnpackedFloat.unpackExponent (UnpackedFloat.packComponents Format.binary64 s 0 0) ≠ _
    rw [UnpackedFloat.unpackExponent_packComponents]
    decide
  | finite s m e hm =>
    have he : e ≤ 971 := h
    have hbiased : (e + 1023 + 52).toNat ≤ 2046 := by omega
    have hfits : ¬ 2 ^ 11 ≤ (e + 1023 + 52).toNat + 1 := by omega
    show UnpackedFloat.unpackExponent
      (if 2 ^ 11 ≤ (e + 1023 + 52).toNat + 1 then _ else if m.log2 + 1 = 53 then
          UnpackedFloat.packComponents Format.binary64 s (BitVec.ofNat 11 (e + 1023 + 52).toNat) _
        else UnpackedFloat.packComponents Format.binary64 s 0#11 _) ≠ _
    rw [if_neg hfits]
    split
    · rw [UnpackedFloat.unpackExponent_packComponents]
      intro hall
      have hnat := congrArg BitVec.toNat hall
      rw [BitVec.toNat_ofNat, Nat.mod_eq_of_lt (by omega)] at hnat
      have hones : (-1#11).toNat = 2047 := by decide
      omega
    · rw [UnpackedFloat.unpackExponent_packComponents]
      decide

/-- Eleven bits that are not all ones. -/
theorem toNat_le_of_ne {v : BitVec 11} (h : v ≠ -1#11) : v.toNat ≤ 2046 := by
  have hones : (-1#11).toNat = 2047 := by decide
  have hne : v.toNat ≠ 2047 := fun heq => h (BitVec.eq_of_toNat_eq (heq.trans hones.symm))
  have hlt : v.toNat < 2048 := v.isLt
  omega

/-- A number without the greatest exponent is small. -/
theorem small_unpack {b : BitVec 64}
    (h : @UnpackedFloat.unpackExponent Format.binary64 b ≠ -1#11) :
    Small (UnpackedFloat.unpack Format.binary64 b) := by
  have hle := toNat_le_of_ne h
  unfold UnpackedFloat.unpack
  dsimp only
  rw [if_neg h]
  by_cases hzero : @UnpackedFloat.unpackExponent Format.binary64 b = 0#11
  · rw [if_pos hzero]
    by_cases hmantissa : @UnpackedFloat.unpackMantissa Format.binary64 b = 0#52
    · rw [dif_pos hmantissa]
      trivial
    · rw [dif_neg hmantissa]
      show _ - ((1023 : Int) + 52) + 1 ≤ 971
      rw [hzero]
      decide
  · rw [if_neg hzero]
    show _ - ((1023 : Int) + 52) ≤ 971
    omega

/-- A small number is read back as a small one. -/
theorem small_unpack_pack {u : UnpackedFloat} (h : Small u) :
    Small (Float.Model.pack u).unpack :=
  small_unpack (unpackExponent_pack h)

/-! ## Rounding -/

/-- Shifting to the right does not make the mantissa greater. -/
theorem mantissa_shiftRight_le (em : ExtendedMantissa) (n : Nat) :
    (em >>> n).mantissa ≤ em.mantissa := by
  show (n.repeat ExtendedMantissa.shiftRightOne em).mantissa ≤ em.mantissa
  induction n with
  | zero => exact Nat.le_refl _
  | succ n ih => exact Nat.le_trans (Nat.div_le_self _ _) ih

/-- Rounding makes the mantissa greater by one at most. -/
theorem roundedMantissa_le (em : ExtendedMantissa) : em.roundedMantissa ≤ em.mantissa + 1 := by
  unfold ExtendedMantissa.roundedMantissa Accuracy.roundToNearestEven
  split
  · omega
  · omega
  · omega
  · omega

/-- A mantissa is shifted to an exponent that is not far above its own. -/
theorem snd_shiftToTargetExponent_le {m : Nat} {e k : Int} (a : Accuracy) (hm : m ≤ 2 ^ 200)
    (he : e ≤ k) (hk : 0 ≤ k) :
    (UnpackedFloat.shiftToTargetExponent Format.binary64 m e a).2 ≤ k + 148 := by
  have hlog : m.log2 ≤ 200 := by
    have hlt : m.log2 < 201 := by
      rcases Nat.eq_zero_or_pos m with rfl | hpos
      · decide
      · exact (Nat.log2_lt (by omega)).mpr (by omega)
    omega
  show e + ((max ((m.log2 : Int) + 1 + e - 53) (-1074) - e).toNat : Int) ≤ k + 148
  omega

/-- A mantissa of not too many bits is rounded to a small number. -/
theorem small_roundWithAccuracy (s : Sign) {m : Nat} {e : Int} (hm : m < 2 ^ 200) (he : e ≤ 0) :
    Small (UnpackedFloat.roundWithAccuracy Format.binary64 s m e .exact) := by
  unfold UnpackedFloat.roundWithAccuracy
  -- the mantissa is shifted once, rounded, and shifted again should it have become too long
  generalize hfirst : UnpackedFloat.shiftToTargetExponent Format.binary64 m e .exact = first
  obtain ⟨em, e₁⟩ := first
  have he₁ : e₁ ≤ 148 := by
    have hle := snd_shiftToTargetExponent_le .exact (Nat.le_of_lt hm) he (Int.le_refl 0)
    rw [hfirst] at hle
    exact hle
  have hmantissa : em.mantissa ≤ m := by
    have hem : em = (UnpackedFloat.shiftToTargetExponent Format.binary64 m e .exact).1 := by
      rw [hfirst]
    rw [hem]
    exact mantissa_shiftRight_le _ _
  have hrounded : em.roundedMantissa ≤ 2 ^ 200 := by
    have hle := roundedMantissa_le em
    omega
  dsimp only
  by_cases hzero : (UnpackedFloat.shiftToTargetExponent Format.binary64 em.roundedMantissa e₁
      .exact).1.mantissa = 0
  · rw [dif_pos hzero]
    trivial
  · rw [dif_neg hzero]
    show (UnpackedFloat.shiftToTargetExponent Format.binary64 em.roundedMantissa e₁ .exact).2 ≤ 971
    have hle := snd_shiftToTargetExponent_le .exact hrounded he₁ (by decide)
    omega

/-- An integer of 64 bits is rounded to a small number. -/
theorem small_round (s : Sign) {m : Nat} (hm : m < 2 ^ 64) :
    Small (UnpackedFloat.round Format.binary64 s m 0) := by
  unfold UnpackedFloat.round UnpackedFloat.decreaseExponent
  simp only
  have hshift : (0 - Format.binary64.targetExponent (totalExponent m 0)).toNat ≤ 52 := by
    show (0 - max ((m.log2 : Int) + 1 + 0 - 53) (-1074)).toNat ≤ 52
    omega
  generalize (0 - Format.binary64.targetExponent (totalExponent m 0)).toNat = shift at hshift
  apply small_roundWithAccuracy
  · have hpow : 2 ^ shift ≤ 2 ^ 52 := Nat.pow_le_pow_right (by decide) hshift
    calc m <<< shift = m * 2 ^ shift := Nat.shiftLeft_eq m shift
      _ ≤ m * 2 ^ 52 := Nat.mul_le_mul_left m hpow
      _ < 2 ^ 200 := by omega
  · omega

/-- An integer of 64 bits without a sign is a small number. -/
theorem small_ofUInt64 (n : UInt64) : Small (UnpackedFloat.ofUInt64 Format.binary64 n) := by
  have hn : n.toNat < 2 ^ 64 := n.toNat_lt
  show Small (match compare (n.toNat : Int) 0 with
    | .lt => UnpackedFloat.round Format.binary64 .negative (-(n.toNat : Int)).toNat 0
    | .eq => .zero .positive
    | .gt => UnpackedFloat.round Format.binary64 .positive (n.toNat : Int).toNat 0)
  split
  · exact small_round _ (by omega)
  · trivial
  · exact small_round _ (by omega)

/-! ## Integers -/

/-- An integer of a document is a finite number. -/
theorem isFinite_floatOfInt (n : Int) : (floatOfInt n).isFinite = true := by
  cases n with
  | ofNat n => exact (small_unpack_pack (small_ofUInt64 _)).isFinite
  | negSucc n => exact (small_unpack_pack (small_unpack_pack (small_ofUInt64 _)).neg).isFinite

end ResponsiveStyle.Json
