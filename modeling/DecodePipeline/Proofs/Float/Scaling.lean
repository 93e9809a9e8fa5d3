import DecodePipeline.Json.Number
import DecodePipeline.Proofs.Float.Nearest

/-!
This module contains the scaling of a whole number by a power of ten. Both are exact as long as they
have few enough digits, so the result is rounded only once.
-/

namespace DecodePipeline.Floating

open Float.Model Float.Model.UnpackedFloat

theorem toModel_unpack_mul (x y : Float)
    : (x * y).toModel.unpack
        = unpack Format.binary64 (pack Format.binary64
            (UnpackedFloat.mul Format.binary64 x.toModel.unpack y.toModel.unpack)) := rfl

theorem Canonical.full_of_unit_le {m : Nat} {e : Int} (hm : Canonical m e) (hlarge : unit ≤ scaled m e)
    : 2 ^ 52 ≤ m ∧ -52 ≤ e := by
  have he : -52 ≤ e := by
    by_contra hsmall
    have hone : unit = 2 ^ 52 * 2 ^ 1022 := by
      unfold unit
      rw [← Nat.pow_add]
    have hshort : (e + 1074).toNat < 1022 := by omega
    rw [hone] at hlarge
    exact absurd hlarge (Nat.not_le_of_lt (mul_two_pow_lt hm.lt hshort))
  exact ⟨hm.full.resolve_right (by omega), he⟩

theorem mul_spec (s t : Sign) {m n : Nat} {e f : Int} (hm : Canonical m e) (hn : Canonical n f)
    (hfull : 2 ^ 52 ≤ m) (hef : -1074 ≤ e + f)
    : ∃ m' e' hm',
        mul Format.binary64 (.finite s m e hm.pos) (.finite t n f hn.pos) = .finite (s * t) m' e' hm'
        ∧ Canonical m' e'
        ∧ ∃ num, num * unit = scaled m e * scaled n f ∧ RoundsNearest num 1 (scaled m' e') := by
  have hpos := Nat.mul_pos hm.pos hn.pos
  have hdigits : 52 ≤ (m * n).log2 :=
    (Nat.le_log2 (Nat.ne_of_gt hpos)).mpr (Nat.le_trans hfull (Nat.le_mul_of_pos_right m hn.pos))
  rcases roundWithAccuracy_spec (s * t) hpos Nat.zero_lt_one hef (by omega)
    with ⟨m', e', hm', hround, hcanonical, hrounds⟩
  rw [Nat.mul_one, Nat.add_zero] at hrounds
  refine ⟨m', e', hm', hround, hcanonical, _, ?_, hrounds⟩
  have hle := hm.le
  have hle' := hn.le
  have hexponent : (e + f + 1074).toNat + 1074 = (e + 1074).toNat + (f + 1074).toNat := by omega
  unfold scaled unit
  rw [Nat.mul_assoc, ← Nat.pow_add, hexponent, Nat.pow_add]
  ring

section Places

variable {x y : Float} {a b : Nat}

theorem mul_place (ha : place x = some (a : Int)) (hb : place y = some (b : Int))
    (ha' : unit ≤ a ∧ a < infinite) (hb' : unit ≤ b ∧ b < infinite)
    : ∃ num r : Nat, place (x * y) = some (min infinite r : Int) ∧ num * unit = a * b
        ∧ RoundsNearest num 1 r := by
  rcases finite_of_place_pos ha (Nat.lt_of_lt_of_le unit_pos ha'.1) ha'.2
    with ⟨m, e, _, hx, hm, -, rfl⟩
  rcases finite_of_place_pos hb (Nat.lt_of_lt_of_le unit_pos hb'.1) hb'.2
    with ⟨n, f, _, hy, hn, -, rfl⟩
  have hm' := hm.full_of_unit_le ha'.1
  have hn' := hn.full_of_unit_le hb'.1
  rcases mul_spec .positive .positive hm hn hm'.1 (by omega)
    with ⟨m', e', hpos, hmul, hcanonical, num, hnum, hrounds⟩
  refine ⟨num, scaled m' e', place_of_positive hcanonical ?_, hnum, hrounds⟩
  rw [toModel_unpack_mul, hx, hy, hmul]
  rfl

theorem div_place (ha : place x = some (a : Int)) (hb : place y = some (b : Int))
    (ha' : unit ≤ a ∧ a < infinite) (hb' : unit ≤ b ∧ b < infinite)
    : ∃ r : Nat, place (x / y) = some (min infinite r : Int)
        ∧ RoundsNearest (a * unit) b r := by
  rcases finite_of_place_pos ha (Nat.lt_of_lt_of_le unit_pos ha'.1) ha'.2
    with ⟨m, e, _, hx, hm, -, rfl⟩
  rcases finite_of_place_pos hb (Nat.lt_of_lt_of_le unit_pos hb'.1) hb'.2
    with ⟨n, f, _, hy, hn, hfits, rfl⟩
  have hm' := hm.full_of_unit_le ha'.1
  rcases div_spec .positive .positive hm hn hm'.1 (by omega)
    with ⟨m', e', hpos, hdiv, hcanonical, hrounds⟩
  refine ⟨scaled m' e', place_of_positive hcanonical ?_, hrounds⟩
  rw [toModel_unpack_div, hx, hy, hdiv]
  rfl

end Places

theorem Canonical.eq_of_scaled {m n : Nat} {e f : Int} (hm : Canonical m e) (hn : Canonical n f)
    (hscaled : scaled m e = scaled n f)
    : m = n ∧ e = f := by
  have hcompare := hm.compare_scaled hn
  rw [hscaled, compare_eq_iff_eq.mpr rfl, Ordering.then_eq_eq] at hcompare
  exact ⟨compare_eq_iff_eq.mp hcompare.2, compare_eq_iff_eq.mp hcompare.1⟩

theorem unpack_of_place_scaled {y : Float} {m : Nat} {e : Int} (hm : Canonical m e) (he : e ≤ 971)
    (hy : place y = some (min infinite (scaled m e) : Int))
    : y.toModel.unpack = .finite .positive m e hm.pos := by
  have hlt := hm.scaled_lt_infinite he
  have hmin : (min infinite (scaled m e) : Int) = scaled m e := by omega
  rw [hmin] at hy
  rcases finite_of_place_pos hy hm.scaled_pos hlt with ⟨n, f, _, hunpack, hn, -, hscaled⟩
  rcases hm.eq_of_scaled hn hscaled with ⟨rfl, rfl⟩
  exact hunpack

open Json Json.Number

theorem place_powerOfTen {k : Nat} (hk : k ≤ 22)
    : place (powerOfTen k) = some ((10 ^ k * unit : Nat) : Int) := by
  have hall : ∀ k : Fin 23, place (powerOfTen k) = some ((10 ^ k.val * unit : Nat) : Int) := by
    decide +kernel
  exact hall ⟨k, by omega⟩

theorem mul_unit_bounds {n : Nat} (hpos : 0 < n) (hlt : n < 2 ^ 80)
    : unit ≤ n * unit ∧ n * unit < infinite := by
  have hlarge : 2 ^ 80 * unit < infinite := by decide +kernel
  exact ⟨Nat.le_mul_of_pos_left unit hpos,
    Nat.lt_of_le_of_lt (Nat.mul_le_mul_right unit (Nat.le_of_lt hlt)) hlarge⟩

theorem ten_pow_bounds {k : Nat} (hk : k ≤ 22) : 0 < 10 ^ k ∧ 10 ^ k < 2 ^ 80 :=
  ⟨Nat.pow_pos (by decide),
    Nat.lt_of_le_of_lt (Nat.pow_le_pow_right (by decide) hk) (by decide)⟩

theorem isFinite_of_unpack {y : Float} {sign : Sign} {m : Nat} {e : Int} {hm : 0 < m}
    (hy : y.toModel.unpack = .finite sign m e hm)
    : y.isFinite := by
  change y.toModel.unpack.isFinite = true
  rw [hy]
  rfl

theorem scale_spec {n : Nat} (hn : Representable n) (hpos : 0 < n) (hlt : n < 2 ^ 64) {power : Int}
    (hpower : power.natAbs ≤ 22) {m : Nat} {e : Int} (hm : Canonical m e) (he : e ≤ 971)
    (hnear : (magnitude m e).IsNearest (n * 10 ^ power))
    : ∃ y, scale n power = some y ∧ y.toModel.unpack = .finite .positive m e hm.pos := by
  have hwhole : n.toUInt64.toNat = n := Nat.mod_eq_of_lt hlt
  have hplace := place_toFloat (n := n.toUInt64) (by rwa [hwhole])
  have hbounds := mul_unit_bounds hpos (by omega)
  rw [hwhole] at hplace
  have hten : (10 : ℚ) ^ power.toNat = 10 ^ power * 10 ^ (-power).toNat :=
    Binary.Magnitude.toNat_zpow (by norm_num) power
  unfold scale
  dsimp only
  rw [beq_false_of_ne (Nat.ne_of_gt hpos), if_neg Bool.false_ne_true, if_neg (by omega)]
  split
  . next hneg =>
    have hk : (-power).toNat ≤ 22 := by omega
    have hdivisor := ten_pow_bounds hk
    rcases div_place hplace (place_powerOfTen hk) hbounds (mul_unit_bounds hdivisor.1 hdivisor.2)
      with ⟨r, hr, hrounds⟩
    have hden : 0 < 10 ^ (-power).toNat * unit := Nat.mul_pos hdivisor.1 unit_pos
    have hzero : power.toNat = 0 := by omega
    rw [hzero, pow_zero] at hten
    have hvalue : ((n * unit * unit : Nat) : ℚ)
        = n * 10 ^ power * (unit : Nat) * (10 ^ (-power).toNat * unit : Nat) := by
      push_cast
      rw [← mul_one ((n : ℚ) * _ * _), hten]
      ring
    rw [hrounds.eq_scaled hm hnear hden hvalue] at hr
    exact ⟨_, rfl, unpack_of_place_scaled hm he hr⟩
  . next hnonneg =>
    have hk : power.toNat ≤ 22 := by omega
    have hfactor := ten_pow_bounds hk
    rcases mul_place hplace (place_powerOfTen hk) hbounds (mul_unit_bounds hfactor.1 hfactor.2)
      with ⟨num, r, hr, hnum, hrounds⟩
    have hnum : num = n * 10 ^ power.toNat * unit := by
      apply Nat.eq_of_mul_eq_mul_right unit_pos
      rw [hnum]
      ring
    have hzero : (-power).toNat = 0 := by omega
    rw [hzero, pow_zero, mul_one] at hten
    have hvalue : (num : ℚ) = n * 10 ^ power * (unit : Nat) * (1 : Nat) := by
      rw [hnum]
      push_cast
      rw [hten, mul_one]
    rw [hrounds.eq_scaled hm hnear Nat.one_pos hvalue] at hr
    have hunpack := unpack_of_place_scaled hm he hr
    rw [if_pos (by omega), Option.filter_some, if_pos (isFinite_of_unpack hunpack)]
    exact ⟨_, rfl, hunpack⟩

end DecodePipeline.Floating
