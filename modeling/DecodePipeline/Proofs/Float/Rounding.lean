import DecodePipeline.Proofs.Float.Packing

/-!
This module contains the rounding of exact results. Numbers are counted in the smallest positive
number, so an exact result is a fraction of natural numbers, and a rounded result is a multiple of some
power of two next to the exact one. Hence rounding never crosses a number that needs no rounding.
-/

namespace DecodePipeline.Floating

open Float.Model Float.Model.UnpackedFloat

theorem shiftRight_succ (em : ExtendedMantissa) (k : Nat)
    : em >>> (k + 1) = (em >>> k).shiftRightOne := rfl

theorem shiftRight_mantissa (em : ExtendedMantissa) (k : Nat)
    : (em >>> k).mantissa = em.mantissa / 2 ^ k := by
  induction k with
  | zero => exact (Nat.div_one em.mantissa).symm
  | succ k ih =>
    rw [shiftRight_succ, ExtendedMantissa.shiftRightOne, ih, Nat.div_div_eq_div_mul, Nat.pow_succ]

@[simp]
theorem ofMantissaAndAccuracy_mantissa (m : Nat) (accuracy : Accuracy)
    : (ExtendedMantissa.ofMantissaAndAccuracy m accuracy).mantissa = m := by
  rcases accuracy with _ | ordering
  . rfl
  . cases ordering <;> rfl

structure Measures (em : ExtendedMantissa) (num den : Nat) : Prop where
  mantissa : em.mantissa = num / den
  roundBit : em.roundBit = decide (den ≤ 2 * (num % den))
  stickyBit : em.stickyBit = decide (2 * (num % den) ≠ 0 ∧ 2 * (num % den) ≠ den)

theorem measures_ofFraction (m : Nat) {r d : Nat} (hr : r < d)
    : Measures (ExtendedMantissa.ofMantissaAndAccuracy m (accuracyOfFraction r d)) (m * d + r) d := by
  have hquotient : (m * d + r) / d = m := by
    rw [Nat.mul_comm, Nat.mul_add_div (Nat.zero_lt_of_lt hr), Nat.div_eq_of_lt hr, Nat.add_zero]
  have hrest : (m * d + r) % d = r := by
    rw [Nat.mul_comm, Nat.mul_add_mod, Nat.mod_eq_of_lt hr]
  have hbits : ∃ roundBit stickyBit,
      ExtendedMantissa.ofMantissaAndAccuracy m (accuracyOfFraction r d) = ⟨m, roundBit, stickyBit⟩
        ∧ roundBit = decide (d ≤ 2 * r) ∧ stickyBit = decide (2 * r ≠ 0 ∧ 2 * r ≠ d) := by
    unfold accuracyOfFraction
    split
    . next hzero => exact ⟨false, false, rfl, by simp; omega, by simp; omega⟩
    . next hpos =>
      rcases Nat.lt_trichotomy (2 * r) d with hlt | heq | hgt
      . rw [compare_lt_iff_lt.mpr hlt]
        exact ⟨false, true, rfl, by simp; omega, by simp; omega⟩
      . rw [compare_eq_iff_eq.mpr heq]
        exact ⟨true, false, rfl, by simp; omega, by simp; omega⟩
      . rw [compare_gt_iff_gt.mpr hgt]
        exact ⟨true, true, rfl, by simp; omega, by simp; omega⟩
  rcases hbits with ⟨roundBit, stickyBit, hem, hround, hsticky⟩
  rw [hem]
  exact ⟨hquotient.symm, by rw [hrest]; exact hround, by rw [hrest]; exact hsticky⟩

theorem Measures.shiftRightOne {em : ExtendedMantissa} {num den : Nat} (hden : 0 < den)
    (hem : Measures em num den)
    : Measures em.shiftRightOne num (den * 2) := by
  have hrest : num % (den * 2) = num % den + den * (num / den % 2) := Nat.mod_mul
  have hlt := Nat.mod_lt num hden
  unfold ExtendedMantissa.shiftRightOne
  constructor
  . rw [hem.mantissa, Nat.div_div_eq_div_mul]
  . rw [hem.mantissa, hrest]
    rcases Nat.mod_two_eq_zero_or_one (num / den) with hbit | hbit <;> rw [hbit] <;> simp <;> omega
  . rw [hem.roundBit, hem.stickyBit, hrest, ← Bool.decide_or, decide_eq_decide]
    rcases Nat.mod_two_eq_zero_or_one (num / den) with hbit | hbit <;> rw [hbit] <;> omega

theorem Measures.shiftRight {em : ExtendedMantissa} {num den : Nat} (hden : 0 < den)
    (hem : Measures em num den) (k : Nat)
    : Measures (em >>> k) num (den * 2 ^ k) := by
  induction k with
  | zero => rwa [Nat.pow_zero, Nat.mul_one]
  | succ k ih =>
    rw [shiftRight_succ, Nat.pow_succ, ← Nat.mul_assoc]
    exact ih.shiftRightOne (Nat.mul_pos hden (Nat.two_pow_pos k))

theorem Measures.roundedMantissa {em : ExtendedMantissa} {num den : Nat} (hem : Measures em num den)
    : em.roundedMantissa = Decimal.roundedQuotient num den := by
  rcases em with ⟨m, roundBit, stickyBit⟩
  have hmantissa : m = num / den := hem.mantissa
  have hround : roundBit = decide (den ≤ 2 * (num % den)) := hem.roundBit
  have hsticky : stickyBit = decide (2 * (num % den) ≠ 0 ∧ 2 * (num % den) ≠ den) := hem.stickyBit
  unfold Decimal.roundedQuotient
  dsimp only
  rcases Nat.lt_trichotomy (2 * (num % den)) den with hlt | heq | hgt
  . rw [compare_lt_iff_lt.mpr hlt]
    rw [decide_eq_false (by omega)] at hround
    subst hround
    cases stickyBit <;> exact hmantissa
  . rw [compare_eq_iff_eq.mpr heq]
    rw [decide_eq_true (by omega)] at hround
    rw [decide_eq_false (by omega)] at hsticky
    subst hround hsticky
    change m + m % 2 = _
    rcases Nat.mod_two_eq_zero_or_one (num / den) with hbit | hbit
    . rw [hmantissa, hbit]
      rfl
    . rw [hmantissa, hbit]
      rfl
  . rw [compare_gt_iff_gt.mpr hgt]
    rw [decide_eq_true (by omega)] at hround
    rw [decide_eq_true (by omega)] at hsticky
    subst hround hsticky
    exact congrArg (· + 1) hmantissa

theorem roundedQuotient_cases (num den : Nat)
    : (2 * (num % den) ≤ den ∧ Decimal.roundedQuotient num den = num / den)
        ∨ (den ≤ 2 * (num % den) ∧ Decimal.roundedQuotient num den = num / den + 1) := by
  unfold Decimal.roundedQuotient
  dsimp only
  rcases Nat.lt_trichotomy (2 * (num % den)) den with hlt | heq | hgt
  . rw [compare_lt_iff_lt.mpr hlt]
    exact .inl ⟨Nat.le_of_lt hlt, rfl⟩
  . rw [compare_eq_iff_eq.mpr heq]
    dsimp only
    split
    . exact .inl ⟨Nat.le_of_eq heq, rfl⟩
    . exact .inr ⟨Nat.le_of_eq heq.symm, rfl⟩
  . rw [compare_gt_iff_gt.mpr hgt]
    exact .inr ⟨Nat.le_of_lt hgt, rfl⟩

theorem roundedQuotient_mul_right {num den c : Nat} (hc : 0 < c)
    : Decimal.roundedQuotient (num * c) (den * c) = Decimal.roundedQuotient num den := by
  have hcompare : compare (2 * (num * c % (den * c))) (den * c) = compare (2 * (num % den)) den := by
    rw [Nat.mul_mod_mul_right, ← Nat.mul_assoc]
    rcases Nat.lt_trichotomy (2 * (num % den)) den with hlt | heq | hgt
    . rw [compare_lt_iff_lt.mpr hlt, compare_lt_iff_lt.mpr (Nat.mul_lt_mul_of_pos_right hlt hc)]
    . rw [heq, compare_eq_iff_eq.mpr rfl, compare_eq_iff_eq.mpr rfl]
    . rw [compare_gt_iff_gt.mpr hgt, compare_gt_iff_gt.mpr (Nat.mul_lt_mul_of_pos_right hgt hc)]
  unfold Decimal.roundedQuotient
  rw [hcompare, Nat.mul_div_mul_right _ _ hc]

theorem targetExponent_eq (total : Int)
    : Format.binary64.targetExponent total = max (total - 53) (-1074) := rfl

structure RoundsTo (num den rounded : Nat) : Prop where
  next : ∃ k, (k = 0 ∨ 2 ^ 52 * 2 ^ k * den ≤ num)
    ∧ (rounded = num / (den * 2 ^ k) * 2 ^ k
      ∨ (¬ den * 2 ^ k ∣ num ∧ rounded = (num / (den * 2 ^ k) + 1) * 2 ^ k))

/-- The nearest number with the digits that there are, the even one if there are two. -/
structure RoundsNearest (num den rounded : Nat) : Prop where
  next : ∃ k, (k = 0 ∨ 2 ^ 52 * 2 ^ k * den ≤ num) ∧ num < 2 ^ 53 * 2 ^ k * den
    ∧ rounded = Decimal.roundedQuotient num (den * 2 ^ k) * 2 ^ k

theorem RoundsNearest.roundsTo {num den rounded : Nat} (hden : 0 < den)
    (hrounds : RoundsNearest num den rounded)
    : RoundsTo num den rounded := by
  rcases hrounds.next with ⟨k, hunit, -, hrounded⟩
  have hpos := Nat.mul_pos hden (Nat.two_pow_pos k)
  refine ⟨k, hunit, ?_⟩
  rcases roundedQuotient_cases num (den * 2 ^ k) with ⟨-, hdown⟩ | ⟨hhalf, hup⟩
  . exact .inl (hrounded.trans (by rw [hdown]))
  . refine .inr ⟨fun hdvd => ?_, hrounded.trans (by rw [hup])⟩
    rw [Nat.mod_eq_zero_of_dvd hdvd] at hhalf
    omega

theorem RoundsNearest.of_mul {num den rounded c : Nat} (hc : 0 < c)
    (hrounds : RoundsNearest num den rounded)
    : RoundsNearest (num * c) (den * c) rounded := by
  rcases hrounds.next with ⟨k, hunit, hlt, hrounded⟩
  have hden : den * c * 2 ^ k = den * 2 ^ k * c := by ring
  refine ⟨k, ?_, ?_, ?_⟩
  . refine hunit.imp_right fun hlarge => ?_
    rw [← Nat.mul_assoc]
    exact Nat.mul_le_mul_right c hlarge
  . rw [← Nat.mul_assoc]
    exact Nat.mul_lt_mul_of_pos_right hlt hc
  . rw [hden, roundedQuotient_mul_right hc]
    exact hrounded

theorem RoundsNearest.near {num den rounded : Nat} (hden : 0 < den)
    (hrounds : RoundsNearest num den rounded) (hlarge : 2 ^ 52 * den ≤ num)
    : 2 ^ 53 * (rounded * den) ≤ (2 ^ 53 + 1) * num ∧ (2 ^ 53 - 1) * num ≤ 2 ^ 53 * (rounded * den)
    := by
  rcases hrounds.next with ⟨k, hunit, -, hrounded⟩
  have hdigits : 2 ^ 52 * (den * 2 ^ k) ≤ num := by
    rcases hunit with rfl | hunit
    . rwa [Nat.pow_zero, Nat.mul_one]
    . refine Nat.le_trans (Nat.le_of_eq ?_) hunit
      ring
  have hproduct : rounded * den = Decimal.roundedQuotient num (den * 2 ^ k) * (den * 2 ^ k) := by
    rw [hrounded]
    ring
  have hwhole := Nat.div_add_mod' num (den * 2 ^ k)
  have hlt := Nat.mod_lt num (Nat.mul_pos hden (Nat.two_pow_pos k))
  rw [hproduct]
  generalize den * 2 ^ k = unit at *
  rcases roundedQuotient_cases num unit with ⟨hhalf, hdown⟩ | ⟨hhalf, hup⟩
  . rw [hdown]
    omega
  . rw [hup, Nat.succ_mul]
    omega

theorem mul_two_pow_lt {n k l : Nat} (hn : n < 2 ^ 53) (hkl : k < l) : n * 2 ^ k < 2 ^ 52 * 2 ^ l := by
  calc n * 2 ^ k
    _ < 2 ^ 53 * 2 ^ k := Nat.mul_lt_mul_of_pos_right hn (Nat.two_pow_pos k)
    _ = 2 ^ 52 * 2 ^ (k + 1) := by omega
    _ ≤ 2 ^ 52 * 2 ^ l := Nat.mul_le_mul_left _ (Nat.pow_le_pow_right Nat.two_pos hkl)

theorem multiple_or_lt {m : Nat} (k unit : Nat) (hm : m < 2 ^ 53)
    : (∃ n, m * 2 ^ k = n * 2 ^ unit) ∨ (unit ≠ 0 ∧ m * 2 ^ k < 2 ^ 52 * 2 ^ unit) := by
  rcases Nat.lt_or_ge k unit with hlt | hge
  . exact .inr ⟨by omega, mul_two_pow_lt hm hlt⟩
  . left
    refine ⟨m * 2 ^ (k - unit), ?_⟩
    rw [Nat.mul_assoc, ← Nat.pow_add, Nat.sub_add_cancel hge]

namespace RoundsTo

variable {num den rounded m k : Nat}

theorem le_of_le (hrounds : RoundsTo num den rounded) (hden : 0 < den) (hm : m < 2 ^ 53)
    (hle : num ≤ m * 2 ^ k * den)
    : rounded ≤ m * 2 ^ k := by
  rcases hrounds.next with ⟨unit, hunit, hrounded⟩
  rcases multiple_or_lt k unit hm with ⟨n, hn⟩ | ⟨hpos, hlt⟩
  . rw [hn] at hle ⊢
    have hle : num ≤ den * 2 ^ unit * n := by
      refine Nat.le_trans hle (Nat.le_of_eq ?_)
      ring
    have hdiv : num / (den * 2 ^ unit) ≤ n := Nat.div_le_of_le_mul hle
    rcases hrounded with hrounded | ⟨hdvd, hrounded⟩
    . rw [hrounded]
      exact Nat.mul_le_mul_right _ hdiv
    . rw [hrounded]
      apply Nat.mul_le_mul_right
      apply Nat.lt_of_le_of_ne hdiv
      -- otherwise the exact number is a multiple itself
      rintro rfl
      exact hdvd ⟨num / (den * 2 ^ unit), Nat.le_antisymm hle (Nat.mul_div_le ..)⟩
  . have hlarge : 2 ^ 52 * 2 ^ unit * den ≤ num := hunit.resolve_left hpos
    exact absurd (Nat.le_trans hlarge hle) (Nat.not_le_of_lt (Nat.mul_lt_mul_of_pos_right hlt hden))

theorem le_of_ge (hrounds : RoundsTo num den rounded) (hden : 0 < den) (hm : m < 2 ^ 53)
    (hge : m * 2 ^ k * den ≤ num)
    : m * 2 ^ k ≤ rounded := by
  rcases hrounds.next with ⟨unit, hunit, hrounded⟩
  have hpos := Nat.mul_pos hden (Nat.two_pow_pos unit)
  have hfloor : num / (den * 2 ^ unit) * 2 ^ unit ≤ rounded := by
    rcases hrounded with hrounded | ⟨-, hrounded⟩
    . exact Nat.le_of_eq hrounded.symm
    . rw [hrounded]
      exact Nat.mul_le_mul_right _ (Nat.le_succ _)
  have hmultiple (n : Nat) (hn : n * 2 ^ unit * den ≤ num)
      : n * 2 ^ unit ≤ num / (den * 2 ^ unit) * 2 ^ unit := by
    apply Nat.mul_le_mul_right
    rw [Nat.le_div_iff_mul_le hpos]
    refine Nat.le_trans (Nat.le_of_eq ?_) hn
    ring
  refine Nat.le_trans ?_ hfloor
  rcases multiple_or_lt k unit hm with ⟨n, hn⟩ | ⟨hshift, hlt⟩
  . rw [hn] at hge ⊢
    exact hmultiple n hge
  . exact Nat.le_trans (Nat.le_of_lt hlt) (hmultiple _ (hunit.resolve_left hshift))

end RoundsTo

def scaled (mantissa : Nat) (exponent : Int) : Nat := mantissa * 2 ^ (exponent + 1074).toNat

theorem scaled_add {m : Nat} {e : Int} (he : -1074 ≤ e) (k : Nat)
    : scaled m (e + k) = m * 2 ^ k * 2 ^ (e + 1074).toNat := by
  have hk : (e + k + 1074).toNat = k + (e + 1074).toNat := by omega
  rw [scaled, hk, Nat.pow_add, Nat.mul_assoc]

theorem shiftToTargetExponent_eq (m : Nat) (e : Int) (accuracy : Accuracy)
    : shiftToTargetExponent Format.binary64 m e accuracy
        = (ExtendedMantissa.ofMantissaAndAccuracy m accuracy
              >>> (max (m.log2 + e - 52) (-1074) - e).toNat,
            e + (max (m.log2 + e - 52) (-1074) - e).toNat) := by
  have htotal : totalExponent m e - 53 = m.log2 + e - 52 := by
    unfold totalExponent
    omega
  unfold shiftToTargetExponent shiftToExponent
  rw [targetExponent_eq, htotal]

theorem shiftToTargetExponent_of_rounded {r : Nat} {e : Int} (hr : 0 < r) (he : -1074 ≤ e)
    (hle : r ≤ 2 ^ 53) (hfull : 2 ^ 52 ≤ r ∨ e = -1074)
    : ∃ m e', (shiftToTargetExponent Format.binary64 r e .exact).1.mantissa = m
        ∧ (shiftToTargetExponent Format.binary64 r e .exact).2 = e'
        ∧ Canonical m e' ∧ scaled m e' = scaled r e := by
  rw [shiftToTargetExponent_eq]
  dsimp only
  rw [shiftRight_mantissa, ofMantissaAndAccuracy_mantissa]
  rcases Nat.lt_or_eq_of_le hle with hlt | rfl
  . have hlog : r.log2 < 53 := (Nat.log2_lt (by omega)).mpr hlt
    have hshift : (max (r.log2 + e - 52) (-1074) - e).toNat = 0 := by omega
    rw [hshift]
    refine ⟨_, _, rfl, rfl, ?_, ?_⟩
    . simp only [Nat.pow_zero, Nat.div_one, Nat.cast_zero, Int.add_zero]
      exact ⟨hr, hlt, hfull, he⟩
    . simp
  . -- rounding up gave one digit too many, which is a zero
    have hlog : (2 ^ 53).log2 = 53 := Nat.log2_two_pow
    have hshift : (max (((2 ^ 53).log2 : Int) + e - 52) (-1074) - e).toNat = 1 := by omega
    rw [hshift]
    refine ⟨_, _, rfl, rfl, ⟨by decide, by decide, .inl (by decide), by omega⟩, ?_⟩
    rw [scaled_add he]
    rfl

theorem shifted_bounds {m k : Nat} {e : Int} (hm : 0 < m) (he : -1074 ≤ e)
    (hk : e + k = max (m.log2 + e - 52) (-1074))
    : m / 2 ^ k < 2 ^ 53 ∧ (2 ^ 52 ≤ m / 2 ^ k ∨ (k = 0 ∧ e = -1074)) := by
  have hlog := Nat.log2_self_le (Nat.ne_of_gt hm)
  have hlog' := @Nat.lt_log2_self m
  have hpos := Nat.two_pow_pos k
  rw [Nat.div_lt_iff_lt_mul hpos, Nat.le_div_iff_mul_le hpos]
  rcases Nat.lt_or_ge m.log2 (k + 52) with hlt | hge
  . have hshort : k = 0 ∧ e = -1074 := by omega
    refine ⟨?_, .inr hshort⟩
    calc m
      _ < 2 ^ (m.log2 + 1) := hlog'
      _ ≤ 2 ^ 53 := Nat.pow_le_pow_right Nat.two_pos (by omega)
      _ = 2 ^ 53 * 2 ^ k := by rw [hshort.1, Nat.pow_zero, Nat.mul_one]
  . have hdigits : m.log2 = 52 + k := by omega
    rw [hdigits] at hlog hlog'
    constructor
    . calc m
        _ < 2 ^ (52 + k + 1) := hlog'
        _ = 2 ^ 53 * 2 ^ k := by rw [← Nat.pow_add, Nat.add_right_comm]
    . left
      rwa [← Nat.pow_add]

theorem roundWithAccuracy_spec (sign : Sign) {m r d : Nat} {e : Int} (hm : 0 < m) (hr : r < d)
    (he : -1074 ≤ e) (htarget : e ≤ max (m.log2 + e - 52) (-1074))
    : ∃ m' e' hm',
        roundWithAccuracy Format.binary64 sign m e (accuracyOfFraction r d)
          = .finite sign m' e' hm'
        ∧ Canonical m' e' ∧ RoundsNearest (scaled (m * d + r) e) d (scaled m' e') := by
  have hd : 0 < d := Nat.zero_lt_of_lt hr
  unfold roundWithAccuracy
  rw [shiftToTargetExponent_eq]
  dsimp only
  generalize hk : (max (m.log2 + e - 52) (-1074) - e).toNat = k
  have hk' : e + k = max (m.log2 + e - 52) (-1074) := by omega
  have hshifted := shifted_bounds hm he hk'
  rw [((measures_ofFraction m hr).shiftRight hd k).roundedMantissa]
  have hquotient : (m * d + r) / (d * 2 ^ k) = m / 2 ^ k := by
    rw [← Nat.div_div_eq_div_mul, Nat.mul_comm m, Nat.mul_add_div hd, Nat.div_eq_of_lt hr,
      Nat.add_zero]
  have hcases := roundedQuotient_cases (m * d + r) (d * 2 ^ k)
  rw [hquotient] at hcases
  have hpos : 0 < Decimal.roundedQuotient (m * d + r) (d * 2 ^ k) := by
    rcases hshifted.2 with hfull | ⟨rfl, -⟩
    . omega
    . rw [Nat.pow_zero, Nat.div_one] at hcases
      rw [Nat.pow_zero]
      omega
  have hfull : 2 ^ 52 ≤ Decimal.roundedQuotient (m * d + r) (d * 2 ^ k) ∨ e + k = -1074 := by omega
  rcases shiftToTargetExponent_of_rounded hpos (by omega) (by omega) hfull
    with ⟨m', e', hm', he', hcanonical, hscaled⟩
  simp only [hm', he']
  rw [dif_neg (Nat.ne_of_gt hcanonical.pos)]
  refine ⟨m', e', hcanonical.pos, rfl, hcanonical, ⟨k + (e + 1074).toNat, ?_, ?_, ?_⟩⟩
  . rcases hshifted.2 with hfull | ⟨rfl, rfl⟩
    . right
      have hm : 2 ^ 52 * 2 ^ k ≤ m := (Nat.le_div_iff_mul_le (Nat.two_pow_pos k)).mp hfull
      calc 2 ^ 52 * 2 ^ (k + (e + 1074).toNat) * d
        _ = 2 ^ 52 * 2 ^ k * d * 2 ^ (e + 1074).toNat := by ring
        _ ≤ (m * d + r) * 2 ^ (e + 1074).toNat := by
          apply Nat.mul_le_mul_right
          exact Nat.le_trans (Nat.mul_le_mul_right d hm) (Nat.le_add_right ..)
    . exact .inl rfl
  . have hm : m + 1 ≤ 2 ^ 53 * 2 ^ k := (Nat.div_lt_iff_lt_mul (Nat.two_pow_pos k)).mp hshifted.1
    calc (m * d + r) * 2 ^ (e + 1074).toNat
      _ < (m + 1) * d * 2 ^ (e + 1074).toNat := by
        apply Nat.mul_lt_mul_of_pos_right _ (Nat.two_pow_pos _)
        rw [Nat.succ_mul]
        omega
      _ ≤ 2 ^ 53 * 2 ^ k * d * 2 ^ (e + 1074).toNat :=
        Nat.mul_le_mul_right _ (Nat.mul_le_mul_right d hm)
      _ = 2 ^ 53 * 2 ^ (k + (e + 1074).toNat) * d := by ring
  . have hden : d * 2 ^ (k + (e + 1074).toNat) = d * 2 ^ k * 2 ^ (e + 1074).toNat := by ring
    rw [hscaled, hden, scaled_add he, scaled, roundedQuotient_mul_right (Nat.two_pow_pos _),
      Nat.pow_add, Nat.mul_assoc]

theorem log2_shiftLeft {m : Nat} (hm : 0 < m) (k : Nat) : (m <<< k).log2 = m.log2 + k := by
  have hpos := Nat.two_pow_pos k
  rw [Nat.shiftLeft_eq, Nat.log2_eq_iff (Nat.ne_of_gt (Nat.mul_pos hm hpos)), Nat.add_right_comm,
    Nat.pow_add, Nat.pow_add, Nat.mul_lt_mul_right hpos, Nat.mul_le_mul_right_iff hpos]
  exact ⟨Nat.log2_self_le (Nat.ne_of_gt hm), Nat.lt_log2_self⟩

theorem round_spec (sign : Sign) {m : Nat} {e : Int} (hm : 0 < m) (he : -1074 ≤ e)
    : ∃ m' e' hm', round Format.binary64 sign m e = .finite sign m' e' hm'
        ∧ Canonical m' e' ∧ RoundsNearest (scaled m e) 1 (scaled m' e') := by
  have htotal : totalExponent m e - 53 = m.log2 + e - 52 := by
    unfold totalExponent
    omega
  unfold UnpackedFloat.round decreaseExponent
  rw [targetExponent_eq, htotal]
  dsimp only
  generalize hk : (e - max (m.log2 + e - 52) (-1074)).toNat = k
  have hlog := log2_shiftLeft hm k
  have hscaled : scaled (m <<< k) (e - k) = scaled m e := by
    have hback := scaled_add (show -1074 ≤ e - k by omega) k (m := m)
    rw [Int.sub_add_cancel] at hback
    rw [hback, scaled, Nat.shiftLeft_eq]
  have hpos : 0 < m <<< k := by
    rw [Nat.shiftLeft_eq]
    exact Nat.mul_pos hm (Nat.two_pow_pos k)
  have hspec := roundWithAccuracy_spec sign (r := 0) (d := 1) hpos Nat.zero_lt_one
    (show -1074 ≤ e - k by omega) (by rw [hlog]; push_cast; omega)
  rwa [Nat.mul_one, Nat.add_zero, hscaled] at hspec

end DecodePipeline.Floating
