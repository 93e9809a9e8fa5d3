import DecodePipeline.Proofs.Float.Division

/-!
This module contains the whole part of a number and what is left of the number without it.
-/

namespace DecodePipeline.Floating

open Float.Model Float.Model.UnpackedFloat

-- The place of the number one.
def unit : Nat := 2 ^ 1074

theorem unit_pos : 0 < unit := by decide +kernel

theorem unit_lt_infinite : unit < infinite := by decide +kernel

theorem roundToInt_positive (m : Nat) {e : Int} (he : -1074 ≤ e)
    : roundToInt .positive m e = (scaled m e / unit : Nat) := by
  unfold roundToInt decreaseExponent shiftToExponent
  dsimp only
  rw [shiftRight_mantissa, ofMantissaAndAccuracy_mantissa, Nat.shiftLeft_eq]
  refine congrArg Int.ofNat ?_
  unfold scaled unit
  rcases Int.le_total 0 e with hpos | hneg
  . have hnone : (0 - (e - ((e - 0).toNat : Int))).toNat = 0 := by omega
    have hsplit : (e + 1074).toNat = (e - 0).toNat + 1074 := by omega
    rw [hnone, hsplit, Nat.pow_add, ← Nat.mul_assoc, Nat.mul_div_cancel _ (Nat.two_pow_pos 1074),
      Nat.pow_zero, Nat.div_one]
  . have hnone : (e - 0).toNat = 0 := by omega
    have hsplit : 2 ^ 1074 = 2 ^ (0 - e).toNat * 2 ^ (e + 1074).toNat := by
      rw [← Nat.pow_add]
      congr 1
      omega
    rw [hnone, hsplit, Nat.mul_div_mul_right _ _ (Nat.two_pow_pos _)]
    simp

theorem toNat_ofNatClamp (n : Nat) : (UInt64.ofNatClamp n).toNat = min n (2 ^ 64 - 1) := by
  unfold UInt64.ofNatClamp
  split
  . next hlt =>
    have hlt : n < 2 ^ 64 := hlt
    rw [UInt64.toNat_ofNatLT]
    omega
  . next hge =>
    have hge : ¬ n < 2 ^ 64 := hge
    rw [UInt64.toNat_ofNatLT, UInt64.size]
    omega

theorem toUInt64_toNat {x : Float} {a : Nat} (ha : place x = some (a : Int)) (hpos : 0 < a)
    (hfinite : a < infinite)
    : x.toUInt64.toNat = min (a / unit) (2 ^ 64 - 1) := by
  rcases finite_of_place_pos ha hpos hfinite with ⟨m, e, hm, hunpack, hcanonical, hfits, rfl⟩
  have hwhole : x.toUInt64 = UInt64.ofNatClamp (roundToInt .positive m e).toNat := by
    change UnpackedFloat.toUInt64 x.toModel.unpack = _
    rw [hunpack]
    rfl
  rw [hwhole, roundToInt_positive m hcanonical.le, Int.toNat_natCast, toNat_ofNatClamp]

theorem representable_of_lt {n : Nat} (hn : n < 2 ^ 53) : Representable n :=
  ⟨n, 0, hn, (Nat.mul_one n).symm⟩

theorem Representable.mul_unit {n : Nat} (hn : Representable n) : Representable (n * unit : Nat) := by
  rcases hn with ⟨m, k, hm, hn⟩
  have hn : n = m * 2 ^ k := hn
  refine ⟨m, k + 1074, hm, ?_⟩
  rw [Int.natAbs_natCast, hn, unit, Nat.pow_add, Nat.mul_assoc]

theorem representable_mod_unit {x : Float} {a : Nat} (ha : place x = some (a : Int)) (hpos : 0 < a)
    (hfinite : a < infinite)
    : Representable (a % unit : Nat) := by
  rcases finite_of_place_pos ha hpos hfinite with ⟨m, e, -, -, hcanonical, -, rfl⟩
  unfold scaled unit
  rcases Nat.le_total 1074 (e + 1074).toNat with hwhole | hfraction
  . refine ⟨0, 0, by decide, ?_⟩
    have hdvd := Nat.dvd_trans (Nat.pow_dvd_pow 2 hwhole) (Nat.dvd_mul_left _ m)
    rw [Int.natAbs_natCast, Nat.zero_mul, Nat.mod_eq_zero_of_dvd hdvd]
  . refine ⟨m % 2 ^ (1074 - (e + 1074).toNat), (e + 1074).toNat,
      Nat.lt_of_le_of_lt (Nat.mod_le ..) hcanonical.lt, ?_⟩
    rw [Int.natAbs_natCast, ← Nat.mul_mod_mul_right, ← Nat.pow_add, Nat.sub_add_cancel hfraction]

theorem div_mul_unit_of_large {x : Float} {a : Nat} (ha : place x = some (a : Int)) (hpos : 0 < a)
    (hfinite : a < infinite) (hlarge : 2 ^ 53 * unit ≤ a)
    : a / unit * unit = a := by
  rcases finite_of_place_pos ha hpos hfinite with ⟨m, e, -, -, hcanonical, -, rfl⟩
  apply Nat.div_mul_cancel
  unfold scaled unit at *
  apply Dvd.dvd.mul_left (Nat.pow_dvd_pow 2 _) m
  by_contra hshort
  have hlt := mul_two_pow_lt hcanonical.lt (Nat.lt_of_not_le hshort)
  omega

theorem mul_unit_lt_infinite {n : Nat} (hn : n < 2 ^ 64) : n * unit < infinite := by
  have hlarge : 2 ^ 64 * unit < infinite := by decide +kernel
  exact Nat.lt_of_le_of_lt (Nat.mul_le_mul_right unit (Nat.le_of_lt hn)) hlarge

theorem place_toFloat {n : UInt64} (hn : Representable n.toNat)
    : place n.toFloat = some ((n.toNat * unit : Nat) : Int) := by
  have hlt := mul_unit_lt_infinite n.toNat_lt
  rcases normalize_between n.toNat (e := 0) (by decide) with ⟨r, hr, hrounded, hbetween⟩
  have hwhole : (n.toNat : Int) * 2 ^ (0 + 1074 : Int).toNat = (n.toNat * unit : Nat) := by
    rw [unit, Int.natCast_mul, Int.natCast_pow]
    rfl
  rw [hwhole] at hbetween
  have hboth := hbetween _ hn.mul_unit
  have hexact : r = (n.toNat * unit : Nat) :=
    Int.le_antisymm (hboth.1 (Int.le_refl _)) (hboth.2 (Int.le_refl _))
  have hpack : place n.toFloat
      = (placeOf (normalize Format.binary64 n.toNat 0 .positive)).map
        fun a => max (-(infinite : Int)) (min infinite a) := placeOf_pack hrounded
  rw [hpack, hr, hexact]
  apply congrArg some
  dsimp only
  omega

section Difference

theorem stored_neg {u : UnpackedFloat} (hu : Stored u) : Stored u.neg := by
  cases u with
  | finite => exact hu
  | _ => exact ⟨trivial, trivial⟩

theorem toModel_unpack_neg (x : Float) : (-x).toModel.unpack = x.toModel.unpack.neg := by
  have hneg : (-x).toModel.unpack = unpack Format.binary64 (pack Format.binary64 x.toModel.unpack.neg) :=
    rfl
  have hstored := stored_neg (stored_unpack x)
  rw [hneg, unpack_pack hstored.1 hstored.2]

theorem apply_neg (sign : Sign) (n : Int) : (-sign).apply n = -sign.apply n := by
  cases sign with
  | negative => exact (Int.neg_neg n).symm
  | positive => rfl

theorem placeOf_neg (u : UnpackedFloat) : placeOf u.neg = (placeOf u).map (-·) := by
  cases u with
  | notANumber => rfl
  | infinity sign => exact congrArg some (apply_neg ..)
  | zero sign => rfl
  | finite sign m e hm => exact congrArg some (apply_neg ..)

theorem sub_eq_add_neg (u v : UnpackedFloat)
    : UnpackedFloat.sub Format.binary64 u v = UnpackedFloat.add Format.binary64 u v.neg := by
  cases u with
  | notANumber => cases v <;> rfl
  | infinity s => cases v <;> rfl
  | zero s => cases v <;> rfl
  | finite s m e hm =>
    cases v with
    | finite t n f hn =>
      simp only [UnpackedFloat.sub, UnpackedFloat.add, UnpackedFloat.neg]
      rw [apply_neg, Int.sub_eq_add_neg]
    | _ => rfl

theorem add_between {u v : UnpackedFloat} (hu : Stored u) (hv : Stored v) {a b : Int}
    (ha : placeOf u = some a) (hb : placeOf v = some b) (hsmall : a.natAbs < infinite)
    (hsmall' : b.natAbs < infinite)
    : ∃ r, placeOf (add Format.binary64 u v) = some r ∧ Rounded (add Format.binary64 u v)
        ∧ ∀ w, Representable w → (a + b ≤ w → r ≤ w) ∧ (w ≤ a + b → w ≤ r) := by
  cases u with
  | notANumber => cases ha
  | infinity s =>
    have ha : s.apply infinite = a := Option.some.inj ha
    rw [← ha, natAbs_apply] at hsmall
    exact absurd hsmall (Nat.lt_irrefl _)
  | zero s =>
    have ha : 0 = a := Option.some.inj ha
    subst ha
    cases v with
    | notANumber => cases hb
    | infinity t =>
      have hb : t.apply infinite = b := Option.some.inj hb
      rw [← hb, natAbs_apply] at hsmall'
      exact absurd hsmall' (Nat.lt_irrefl _)
    | zero t =>
      have hb : 0 = b := Option.some.inj hb
      subst hb
      cases s <;> cases t <;> exact ⟨0, rfl, trivial, fun w _ => ⟨id, id⟩⟩
    | finite t n f hn =>
      rw [Int.zero_add]
      exact ⟨b, hb, hv.1, fun w _ => ⟨id, id⟩⟩
  | finite s m e hm =>
    cases v with
    | notANumber => cases hb
    | infinity t =>
      have hb : t.apply infinite = b := Option.some.inj hb
      rw [← hb, natAbs_apply] at hsmall'
      exact absurd hsmall' (Nat.lt_irrefl _)
    | zero t =>
      have hb : 0 = b := Option.some.inj hb
      subst hb
      rw [Int.add_zero]
      exact ⟨a, ha, hu.1, fun w _ => ⟨id, id⟩⟩
    | finite t n f hn =>
      have ha : s.apply (scaled m e) = a := Option.some.inj ha
      have hb : t.apply (scaled n f) = b := Option.some.inj hb
      subst ha hb
      exact add_finite s t hu.1 hv.1

theorem sub_between {x y : Float} {a b : Nat} (ha : place x = some (a : Int))
    (hb : place y = some (b : Int)) (hle : b ≤ a) (hfinite : a < infinite)
    : ∃ r : Nat, place (x - y) = some (min infinite r : Int)
        ∧ ∀ w : Nat, Representable w → (a - b ≤ w → r ≤ w) ∧ (w ≤ a - b → w ≤ r) := by
  have hb' : placeOf y.toModel.unpack.neg = some (-(b : Int)) := by
    rw [placeOf_neg]
    exact congrArg (Option.map (-·)) hb
  rcases add_between (stored_unpack x) (stored_neg (stored_unpack y)) ha hb' (by omega) (by omega)
    with ⟨r, hr, hrounded, hbetween⟩
  have hzero : 0 ≤ r := (hbetween 0 ⟨0, 0, by decide, rfl⟩).2 (by omega)
  refine ⟨r.toNat, ?_, ?_⟩
  . rw [← sub_eq_add_neg] at hr hrounded
    have hpack : place (x - y) = _ := placeOf_pack hrounded
    rw [hpack, hr]
    apply congrArg some
    dsimp only
    omega
  . intro w hw
    have := hbetween w hw
    omega

end Difference

end DecodePipeline.Floating
