import DecodePipeline.Decimal.Binary
import DecodePipeline.Proofs.Float.Packing

/-!
This module contains the agreement of the two views of a floating point number: what is printed is read
off the same bits as what is computed with.
-/

namespace DecodePipeline.Binary

open Float.Model Float.Model.UnpackedFloat

section Fields

variable (b : BitVec Format.binary64.numBits)

theorem toNat_unpackMantissa : (unpackMantissa b).toNat = b.toNat % Nat.pow 2 52 := by
  unfold unpackMantissa
  rw [BitVec.toNat_cast, BitVec.extractLsb_toNat, Nat.shiftRight_zero]
  rfl

theorem toNat_unpackExponent
    : (unpackExponent b).toNat = b.toNat / Nat.pow 2 52 % Nat.pow 2 11 := by
  unfold unpackExponent
  rw [BitVec.toNat_cast, BitVec.extractLsb_toNat, Nat.shiftRight_eq_div_pow]
  rfl

theorem toNat_unpackSign : (unpackSign b).toNat = b.toNat / Nat.pow 2 63 % 2 := by
  unfold unpackSign
  rw [BitVec.toNat_cast, BitVec.extractLsb_toNat, Nat.shiftRight_eq_div_pow]
  rfl

end Fields

theorem isNegative_eq (b : BitVec Format.binary64.numBits)
    : (b.toNat / Nat.pow 2 63 % 2 == 1) = (Sign.ofBitVec (unpackSign b) == .negative) := by
  rw [← toNat_unpackSign]
  generalize unpackSign b = sign
  revert sign
  decide

theorem ofBits_double (b : BitVec Format.binary64.numBits)
    : ofBits .double b.toNat
        = let negative := Sign.ofBitVec (unpackSign b) == .negative
          if (unpackExponent b).toNat == 2047 then
            if (unpackMantissa b).toNat == 0 then .infinite negative else .nan
          else if (unpackExponent b).toNat == 0 then
            .finite negative ⟨(unpackMantissa b).toNat, -1074, false⟩
          else
            .finite negative
              ⟨2 ^ 52 + (unpackMantissa b).toNat, -1074 + ((unpackExponent b).toNat - 1 : Nat),
                (unpackMantissa b).toNat == 0 && decide (1 < (unpackExponent b).toNat)⟩ := by
  rw [toNat_unpackMantissa, toNat_unpackExponent, ← isNegative_eq]
  rfl

theorem ofBits_unpack (b : BitVec Format.binary64.numBits)
    : ofBits .double b.toNat
        = match UnpackedFloat.unpack Format.binary64 b with
          | .notANumber => .nan
          | .infinity sign => .infinite (sign == .negative)
          | .zero sign => .finite (sign == .negative) ⟨0, -1074, false⟩
          | .finite sign m e _ =>
            .finite (sign == .negative) ⟨m, e, m == 2 ^ 52 && decide (-1074 < e)⟩ := by
  have hbias : Format.binary64.exponentBias = 1023 := rfl
  have hlt : (unpackMantissa b).toNat < 2 ^ 52 := (unpackMantissa b).isLt
  rw [ofBits_double]
  dsimp only
  fun_cases UnpackedFloat.unpack Format.binary64 b with
  | case1 mantissa exponentVec signVec sign hmax hzero =>
    have hmax : (unpackExponent b).toNat = 2047 := congrArg BitVec.toNat hmax
    have hzero : (unpackMantissa b).toNat = 0 := congrArg BitVec.toNat hzero
    rw [hmax, hzero]
    rfl
  | case2 mantissa exponentVec hmax hpos =>
    have hmax : (unpackExponent b).toNat = 2047 := congrArg BitVec.toNat hmax
    have hpos : (unpackMantissa b).toNat ≠ 0 := BitVec.toNat_ne.mp hpos
    rw [hmax, beq_false_of_ne hpos]
    rfl
  | case3 mantissa exponentVec signVec sign hmax hsmall hzero =>
    have hsmall : (unpackExponent b).toNat = 0 := congrArg BitVec.toNat hsmall
    have hzero : (unpackMantissa b).toNat = 0 := congrArg BitVec.toNat hzero
    rw [hsmall, hzero]
    rfl
  | case4 mantissa exponentVec exponent signVec sign hmax hsmall hpos =>
    have hsmall : (unpackExponent b).toNat = 0 := congrArg BitVec.toNat hsmall
    have hshort : ((unpackMantissa b).toNat == 2 ^ 52) = false := beq_false_of_ne (Nat.ne_of_lt hlt)
    simp only [exponent, exponentVec, mantissa, sign, signVec, hsmall, hbias, hshort]
    rfl
  | case5 mantissa exponentVec exponent signVec sign hmax hsmall =>
    have hsmall : (unpackExponent b).toNat ≠ 0 := BitVec.toNat_ne.mp hsmall
    have hmax : (unpackExponent b).toNat ≠ 2047 := BitVec.toNat_ne.mp hmax
    have hexponent : (-1074 + ((unpackExponent b).toNat - 1 : Nat) : Int)
        = (unpackExponent b).toNat - ((1023 : Nat) + 52 : Nat) := by omega
    have hnarrow : ((unpackMantissa b).toNat == 0 && decide (1 < (unpackExponent b).toNat))
        = (2 ^ 52 + (unpackMantissa b).toNat == 2 ^ 52
          && decide ((-1074 : Int) < (unpackExponent b).toNat - ((1023 : Nat) + 52 : Nat))) := by
      rw [Bool.eq_iff_iff]
      simp only [Bool.and_eq_true, beq_iff_eq, decide_eq_true_eq]
      omega
    simp only [exponent, exponentVec, mantissa, sign, signVec, hbias, Floating.toNat_one_append]
    rw [beq_false_of_ne hmax, beq_false_of_ne hsmall, hexponent, hnarrow]
    rfl

theorem ofFloat_eq (x : Float)
    : ofFloat x
        = match x.toModel.unpack with
          | .notANumber => .nan
          | .infinity sign => .infinite (sign == .negative)
          | .zero sign => .finite (sign == .negative) ⟨0, -1074, false⟩
          | .finite sign m e _ =>
            .finite (sign == .negative) ⟨m, e, m == 2 ^ 52 && decide (-1074 < e)⟩ :=
  ofBits_unpack x.toBits.toBitVec

end DecodePipeline.Binary
