import DecodePipeline.Proofs.Decimal.Binary
import DecodePipeline.Proofs.Decimal.Shortest
import DecodePipeline.Proofs.Float.Truncation

/-!
This module contains what is rounded to a given number: all of the reals that are nearer to it than to
its neighbours, and those halfway to a neighbour if the number is even.
-/

namespace DecodePipeline.Floating

theorem roundedQuotient_eq {num den m : Nat} (hden : 0 < den) (hlow : 2 * m * den ≤ 2 * num + den)
    (hhigh : 2 * num ≤ (2 * m + 1) * den)
    (hinside : m % 2 = 1 → 2 * m * den < 2 * num + den ∧ 2 * num < (2 * m + 1) * den)
    : Decimal.roundedQuotient num den = m := by
  have hnum := Nat.div_add_mod' num den
  have hrest := Nat.mod_lt num hden
  have hupper : (2 * m + 1) * den = 2 * (m * den) + den := by ring
  rw [Nat.mul_assoc] at hlow hinside
  rw [hupper] at hhigh hinside
  unfold Decimal.roundedQuotient
  dsimp only
  generalize num / den = below at *
  generalize num % den = rest at *
  have hstep {a b : Nat} (hlt : a < b) : a * den + den ≤ b * den := by
    rw [← Nat.succ_mul]
    exact Nat.mul_le_mul_right den hlt
  have hsucc : (below + 1) * den = below * den + den := Nat.succ_mul below den
  have hside : below + 1 < m ∨ m < below ∨ below + 1 = m ∨ below = m := by omega
  rcases hside with hsmall | hlarge | hside
  . have := hstep hsmall
    omega
  . have := hstep hlarge
    omega
  . rcases Nat.lt_trichotomy (2 * rest) den with hlt | heq | hgt
    . rw [compare_lt_iff_lt.mpr hlt]
      rcases hside with rfl | rfl
      . omega
      . rfl
    . rw [compare_eq_iff_eq.mpr heq]
      dsimp only
      -- of the two at the same distance it is the even one
      rcases hside with rfl | rfl
      . split
        . next heven =>
          rw [beq_iff_eq] at heven
          omega
        . rfl
      . split
        . rfl
        . next hodd =>
          rw [beq_iff_eq] at hodd
          omega
    . rw [compare_gt_iff_gt.mpr hgt]
      rcases hside with rfl | rfl
      . rfl
      . omega

theorem scale_le {num den k l : Nat} (hlow : 2 ^ 52 * 2 ^ k * den ≤ num)
    (hhigh : num < 2 ^ 53 * 2 ^ l * den)
    : k ≤ l := by
  by_contra hlt
  have hpower : 2 ^ (l + 1) ≤ 2 ^ k := Nat.pow_le_pow_right Nat.two_pos (by omega)
  have hpower : 2 ^ 53 * 2 ^ l ≤ 2 ^ 52 * 2 ^ k := by
    rw [Nat.pow_succ] at hpower
    omega
  have := Nat.mul_le_mul_right den hpower
  omega

section Quarters

variable {num den rounded m k : Nat}

theorem RoundsNearest.eq_of_scale (hrounds : RoundsNearest num den rounded)
    (hunit : k = 0 ∨ 2 ^ 52 * 2 ^ k * den ≤ num) (hlt : num < 2 ^ 53 * 2 ^ k * den)
    : rounded = Decimal.roundedQuotient num (den * 2 ^ k) * 2 ^ k := by
  rcases hrounds.next with ⟨l, hunit', hlt', hrounded⟩
  have hkl : k ≤ l := by
    rcases hunit with rfl | hlarge
    . exact Nat.zero_le l
    . exact scale_le hlarge hlt'
  have hlk : l ≤ k := by
    rcases hunit' with rfl | hlarge
    . exact Nat.zero_le k
    . exact scale_le hlarge hlt
  rw [Nat.le_antisymm hkl hlk]
  exact hrounded

theorem RoundsNearest.eq_of_near (hden : 0 < den) (hrounds : RoundsNearest num den rounded)
    (hm : m < 2 ^ 53) (hfull : 2 ^ 52 ≤ m ∨ k = 0) {gap : Nat}
    -- In quarters of the last digit, since the gap below a power of two is a half one.
    (hgap : gap = if m = 2 ^ 52 ∧ k ≠ 0 then 1 else 2)
    (hlow : (4 * m - gap) * (den * 2 ^ k) ≤ 4 * num)
    (hhigh : 4 * num ≤ (4 * m + 2) * (den * 2 ^ k))
    (hinside : m % 2 = 1 →
      (4 * m - gap) * (den * 2 ^ k) < 4 * num ∧ 4 * num < (4 * m + 2) * (den * 2 ^ k))
    : rounded = m * 2 ^ k := by
  have hpos := Nat.mul_pos hden (Nat.two_pow_pos k)
  have hscale (n : Nat) : n * 2 ^ k * den = n * (den * 2 ^ k) := by ring
  have hhigh' : (4 * m + 2) * (den * 2 ^ k) = 4 * (m * (den * 2 ^ k)) + 2 * (den * 2 ^ k) := by ring
  have hlow' : (4 * m - gap) * (den * 2 ^ k)
      = 4 * (m * (den * 2 ^ k)) - gap * (den * 2 ^ k) := by
    rw [Nat.sub_mul, Nat.mul_assoc]
  have hdigits : m * (den * 2 ^ k) ≤ (2 ^ 53 - 1) * (den * 2 ^ k) := Nat.mul_le_mul_right _ (by omega)
  have hlt : num < 2 ^ 53 * 2 ^ k * den := by
    rw [hscale]
    omega
  rw [hhigh'] at hhigh hinside
  rw [hlow'] at hlow hinside
  have hupper : (2 * m + 1) * (den * 2 ^ k) = 2 * (m * (den * 2 ^ k)) + den * 2 ^ k := by ring
  by_cases hunit : k = 0 ∨ 2 ^ 52 * 2 ^ k * den ≤ num
  . rw [hrounds.eq_of_scale hunit hlt]
    congr 1
    have hmiddle : 2 * (m * (den * 2 ^ k)) ≤ 2 * num + den * 2 ^ k := by
      split at hgap
      . next hnarrow =>
        have hlarge := hunit.resolve_left hnarrow.2
        rw [hscale, ← hnarrow.1] at hlarge
        omega
      . subst hgap
        omega
    apply roundedQuotient_eq hpos
    . rw [Nat.mul_assoc]
      exact hmiddle
    . rw [hupper]
      omega
    . intro hodd
      have hgap : gap = 2 := by
        rw [hgap, if_neg]
        rintro ⟨rfl, -⟩
        omega
      have := hinside hodd
      rw [Nat.mul_assoc, hupper]
      subst hgap
      omega
  . -- the number below which the gap is narrow is the only one that has such numbers near to it
    rw [not_or, Nat.not_le] at hunit
    have hm' := hfull.resolve_right hunit.1
    have hdigits' : 2 ^ 52 * (den * 2 ^ k) ≤ m * (den * 2 ^ k) := Nat.mul_le_mul_right _ hm'
    rw [hscale] at hunit
    have hnarrow : m = 2 ^ 52 := by
      by_contra hother
      have hmore : (2 ^ 52 + 1) * (den * 2 ^ k) ≤ m * (den * 2 ^ k) :=
        Nat.mul_le_mul_right _ (by omega)
      rw [if_neg fun hnarrow => hother hnarrow.1] at hgap
      subst hgap
      omega
    rw [if_pos ⟨hnarrow, hunit.1⟩] at hgap
    subst hgap hnarrow
    rcases Nat.exists_eq_succ_of_ne_zero hunit.1 with ⟨l, rfl⟩
    have hhalf : den * 2 ^ (l + 1) = 2 * (den * 2 ^ l) := by ring
    have hscale' (n : Nat) : n * 2 ^ l * den = n * (den * 2 ^ l) := by ring
    rw [Nat.succ_eq_add_one, hhalf] at hlow hunit
    rw [hrounds.eq_of_scale (k := l) (.inr (by rw [hscale']; omega)) (by rw [hscale']; omega),
      roundedQuotient_eq (m := 2 ^ 53) (Nat.mul_pos hden (Nat.two_pow_pos l)) (by omega)
        (by omega) (fun hodd => by omega), Nat.succ_eq_add_one, Nat.pow_succ]
    omega

end Quarters

def magnitude (m : Nat) (e : Int) : Binary.Magnitude := ⟨m, e, m == 2 ^ 52 && decide (-1074 < e)⟩

theorem cast_scale {e : Int} (he : -1074 ≤ e)
    : ((2 ^ (e + 1074).toNat : Nat) : ℚ) = 2 ^ e * (unit : Nat) := by
  unfold unit
  rw [Nat.cast_pow, Nat.cast_pow, ← zpow_natCast, ← zpow_natCast, Nat.cast_ofNat,
    ← zpow_add₀ (by norm_num)]
  congr 1
  omega

theorem RoundsNearest.eq_scaled {m : Nat} {e : Int} (hm : Canonical m e) {v : ℚ}
    (hnear : (magnitude m e).IsNearest v) {num den rounded : Nat} (hden : 0 < den)
    (hvalue : (num : ℚ) = v * (unit : Nat) * den) (hrounds : RoundsNearest num den rounded)
    : rounded = scaled m e := by
  have hpos : (0 : ℚ) < (unit : Nat) * den := mul_pos (Nat.cast_pos.mpr unit_pos) (Nat.cast_pos.mpr hden)
  have hend (n : Nat) : ((n * (den * 2 ^ (e + 1074).toNat) : Nat) : ℚ)
      = n * 2 ^ e * ((unit : Nat) * den) := by
    rw [Nat.cast_mul, Nat.cast_mul, cast_scale hm.le]
    ring
  have hpoint : ((4 * num : Nat) : ℚ) = 4 * v * ((unit : Nat) * den) := by
    rw [Nat.cast_mul, hvalue, Nat.cast_ofNat]
    ring
  have hbelow : (magnitude m e).below
      = 4 * m - if m = 2 ^ 52 ∧ (e + 1074).toNat ≠ 0 then 1 else 2 := by
    have hnarrow : (m == 2 ^ 52 && decide (-1074 < e)) = true ↔ m = 2 ^ 52 ∧ (e + 1074).toNat ≠ 0 := by
      rw [Bool.and_eq_true, beq_iff_eq, decide_eq_true_iff]
      omega
    exact congrArg (4 * m - ·) (if_congr hnarrow rfl rfl)
  refine hrounds.eq_of_near hden hm.lt ?_ rfl ?_ ?_ ?_
  . refine hm.full.imp_right fun he => ?_
    omega
  . rw [← hbelow, ← Nat.cast_le (α := ℚ), hend, hpoint]
    exact mul_le_mul_of_nonneg_right hnear.low hpos.le
  . rw [← Nat.cast_le (α := ℚ), hend, hpoint]
    exact mul_le_mul_of_nonneg_right hnear.high hpos.le
  . intro hodd
    have hinside := hnear.inside hodd
    rw [← hbelow, ← Nat.cast_lt (α := ℚ), hend, hpoint, ← Nat.cast_lt (α := ℚ), hend, hpoint]
    exact ⟨mul_lt_mul_of_pos_right hinside.1 hpos, mul_lt_mul_of_pos_right hinside.2 hpos⟩

end DecodePipeline.Floating
