import DecodePipeline.Timestamp
import Mathlib

/-!
This module contains the connection between the bits of a floating point number and its sign, mantissa
and exponent. A result that is rounded to the digits that there are comes back from its bits unless it
is too large.
-/

namespace DecodePipeline.Floating

open Float.Model Float.Model.UnpackedFloat

theorem finite_congr {sign : Sign} {m n : Nat} {e f : Int} {hm : 0 < m} {hn : 0 < n}
    (hmantissa : m = n) (hexponent : e = f)
    : UnpackedFloat.finite sign m e hm = .finite sign n f hn := by
  subst hmantissa hexponent
  rfl

theorem toNat_one_append (mantissa : BitVec 52)
    : (1#1 ++ mantissa).toNat = 2 ^ 52 + mantissa.toNat := by
  rw [BitVec.toNat_append, ← Nat.shiftLeft_add_eq_or_of_lt mantissa.isLt]
  rfl

structure Canonical (mantissa : Nat) (exponent : Int) : Prop where
  pos : 0 < mantissa
  lt : mantissa < 2 ^ 53
  -- Only numbers at the smallest exponent may lack digits.
  full : 2 ^ 52 ≤ mantissa ∨ exponent = -1074
  le : -1074 ≤ exponent

def Rounded : UnpackedFloat → Prop
  | .finite _ m e _ => Canonical m e
  | _ => True

def Fits : UnpackedFloat → Prop
  | .finite _ _ e _ => e ≤ 971
  | _ => True

theorem rounded_unpack (b : BitVec Format.binary64.numBits)
    : Rounded (UnpackedFloat.unpack Format.binary64 b)
        ∧ Fits (UnpackedFloat.unpack Format.binary64 b) := by
  have hmantissa : (unpackMantissa b).toNat < 2 ^ 52 := (unpackMantissa b).isLt
  have hexponent : (unpackExponent b).toNat < 2 ^ 11 := (unpackExponent b).isLt
  have hbias : Format.binary64.exponentBias = 1023 := rfl
  fun_cases UnpackedFloat.unpack Format.binary64 b with
  | case1 | case2 | case3 => exact ⟨trivial, trivial⟩
  | case4 mantissa exponentVec exponent signVec sign hmax hzero hpos =>
    have hzero : (unpackExponent b).toNat = 0 := congrArg BitVec.toNat hzero
    have hpos : (unpackMantissa b).toNat ≠ 0 := BitVec.toNat_ne.mp hpos
    simp only [Rounded, Fits, exponent, exponentVec, mantissa, hbias]
    refine ⟨⟨?_, ?_, ?_, ?_⟩, ?_⟩ <;> omega
  | case5 mantissa exponentVec exponent signVec sign hmax hzero =>
    have hzero : (unpackExponent b).toNat ≠ 0 := BitVec.toNat_ne.mp hzero
    have hmax : (unpackExponent b).toNat ≠ 2047 := BitVec.toNat_ne.mp hmax
    simp only [Rounded, Fits, exponent, exponentVec, mantissa, hbias, toNat_one_append]
    refine ⟨⟨?_, ?_, ?_, ?_⟩, ?_⟩ <;> omega

section Unpacking

variable (sign : Sign) {m : Nat}

theorem unpack_long {biased : Nat} (hlow : 2 ^ 52 ≤ m) (hhigh : m < 2 ^ 53) (hpos : 0 < biased)
    (hlt : biased < 2047)
    : UnpackedFloat.unpack Format.binary64
          (packComponents Format.binary64 sign (BitVec.ofNat 11 biased) (BitVec.ofNat 52 m))
        = .finite sign m (biased - 1075) (by omega) := by
  have hbias : Format.binary64.exponentBias = 1023 := rfl
  have hexponent : (BitVec.ofNat 11 biased).toNat = biased := by
    rw [BitVec.toNat_ofNat]
    omega
  have hmax : BitVec.ofNat 11 biased ≠ -1#11 := by
    apply BitVec.toNat_ne.mpr
    rw [hexponent]
    exact Nat.ne_of_lt hlt
  have hzero : BitVec.ofNat 11 biased ≠ 0#11 := by
    apply BitVec.toNat_ne.mpr
    rw [hexponent]
    exact Nat.ne_of_gt hpos
  simp only [UnpackedFloat.unpack, unpackSign_packComponents, Sign.ofBitVec_toBitVec,
    unpackMantissa_packComponents, unpackExponent_packComponents, hbias, hexponent]
  rw [if_neg hmax, if_neg hzero]
  apply finite_congr
  . rw [toNat_one_append, BitVec.toNat_ofNat]
    omega
  . omega

theorem unpack_short (hpos : 0 < m) (hlt : m < 2 ^ 52)
    : UnpackedFloat.unpack Format.binary64
          (packComponents Format.binary64 sign 0#11 (BitVec.ofNat 52 m))
        = .finite sign m (-1074) hpos := by
  have hbias : Format.binary64.exponentBias = 1023 := rfl
  have hmantissa : (BitVec.ofNat 52 m).toNat = m := by
    rw [BitVec.toNat_ofNat]
    omega
  have hzero : BitVec.ofNat 52 m ≠ 0#52 := by
    apply BitVec.toNat_ne.mpr
    rw [hmantissa]
    exact Nat.ne_of_gt hpos
  have hmax : 0#11 ≠ -1#11 := by decide
  simp only [UnpackedFloat.unpack, unpackSign_packComponents, Sign.ofBitVec_toBitVec,
    unpackMantissa_packComponents, unpackExponent_packComponents, hbias]
  rw [if_neg hmax, if_pos trivial, dif_neg hzero]
  exact finite_congr hmantissa rfl

theorem pack_long {e : Int} (hm : 0 < m) (hlow : 2 ^ 52 ≤ m) (hhigh : m < 2 ^ 53) (hfits : e ≤ 971)
    : UnpackedFloat.pack Format.binary64 (.finite sign m e hm)
        = packComponents Format.binary64 sign (BitVec.ofNat 11 (e + 1075).toNat) (BitVec.ofNat 52 m)
      := by
  have hbias : Format.binary64.exponentBias = 1023 := rfl
  have hdigits : 52 + 1 = Format.binary64.mantissaBits := rfl
  have hlog : m.log2 = 52 := (Nat.log2_eq_iff (by omega)).mpr ⟨hlow, hhigh⟩
  have hbiased : e + 1023 + 52 = e + 1075 := by omega
  simp only [UnpackedFloat.pack, hbias, hlog, Nat.cast_ofNat, hbiased]
  rw [if_neg (by omega), if_pos hdigits]

theorem pack_short (hm : 0 < m) (hlt : m < 2 ^ 52)
    : UnpackedFloat.pack Format.binary64 (.finite sign m (-1074) hm)
        = packComponents Format.binary64 sign 0#11 (BitVec.ofNat 52 m) := by
  have hbias : Format.binary64.exponentBias = 1023 := rfl
  have hlog : m.log2 < 52 := (Nat.log2_lt (by omega)).mpr hlt
  simp only [UnpackedFloat.pack, hbias, Format.mantissaBits]
  rw [if_neg (by omega), if_neg (by omega)]

theorem pack_large {e : Int} (hm : 0 < m) (hlarge : 971 < e)
    : UnpackedFloat.pack Format.binary64 (.finite sign m e hm)
        = UnpackedFloat.pack Format.binary64 (.infinity sign) := by
  have hbias : Format.binary64.exponentBias = 1023 := rfl
  simp only [UnpackedFloat.pack, hbias]
  rw [if_pos (by omega)]

end Unpacking

theorem unpack_pack {x : UnpackedFloat} (hrounded : Rounded x) (hfits : Fits x)
    : UnpackedFloat.unpack Format.binary64 (UnpackedFloat.pack Format.binary64 x) = x := by
  cases x with
  | notANumber => simp [UnpackedFloat.pack, UnpackedFloat.unpack, packedNaN]
  | infinity sign => simp [UnpackedFloat.pack, UnpackedFloat.unpack, packedInfinity]
  | zero sign => simp [UnpackedFloat.pack, UnpackedFloat.unpack, packedZero]
  | finite sign m e hm =>
    have hle := hrounded.le
    simp only [Fits] at hfits
    by_cases hlow : 2 ^ 52 ≤ m
    . rw [pack_long sign hm hlow hrounded.lt hfits,
        unpack_long sign hlow hrounded.lt (by omega) (by omega)]
      apply finite_congr rfl
      omega
    . rcases hrounded.full with hfull | rfl
      . exact absurd hfull hlow
      . rw [pack_short sign hm (by omega), unpack_short sign hm (by omega)]

end DecodePipeline.Floating
