import DecodePipeline.Decimal.Shortest
import Mathlib

/-!
This module contains the value of the shortest decimal of a number. It is one of the reals that round to
the number.
-/

namespace DecodePipeline

def Decimal.value (d : Decimal) : ℚ := d.digits * 10 ^ d.exponent

namespace Binary.Magnitude

/-- Four times the lower end of what rounds to the number, in steps of its last digit. -/
def below (m : Magnitude) : Nat := 4 * m.significand - if m.narrowBelow then 1 else 2

def above (m : Magnitude) : Nat := 4 * m.significand + 2

/-- A real rounds to the number. The ends do so if they are halfway to a number with an odd digit. -/
structure IsNearest (m : Magnitude) (v : ℚ) : Prop where
  low : m.below * 2 ^ m.exponent ≤ 4 * v
  high : 4 * v ≤ m.above * 2 ^ m.exponent
  inside : m.significand % 2 = 1 →
    m.below * 2 ^ m.exponent < 4 * v ∧ 4 * v < m.above * 2 ^ m.exponent

theorem IsNearest.pos {m : Magnitude} {v : ℚ} (hpos : 0 < m.significand) (hnear : m.IsNearest v)
    : 0 < v := by
  have hbelow : 0 < m.below := by
    unfold below
    split <;> omega
  have hlow : (0 : ℚ) < m.below * 2 ^ m.exponent :=
    mul_pos (Nat.cast_pos.mpr hbelow) (zpow_pos (by norm_num) _)
  linarith [hnear.low]

theorem toNat_zpow {b : ℚ} (hb : b ≠ 0) (z : ℤ) : b ^ z.toNat = b ^ z * b ^ (-z).toNat := by
  rw [← zpow_natCast, ← zpow_natCast, ← zpow_add₀ hb]
  congr 1
  omega

section Grid

variable (a n : Nat) (e step : ℤ)

def gridScale : ℚ := 2 ^ (-e).toNat * 10 ^ (-step).toNat

theorem gridScale_pos : 0 < gridScale e step := by
  unfold gridScale
  positivity

theorem cast_end
    : ((a * (Nat.pow 2 e.toNat * Nat.pow 10 (-step).toNat) : ℕ) : ℚ)
        = a * 2 ^ e * gridScale e step := by
  have hpower := toNat_zpow (show (2 : ℚ) ≠ 0 by norm_num) e
  unfold gridScale
  simp only [Nat.pow_eq]
  push_cast
  rw [hpower]
  ring

theorem cast_point
    : ((n * (4 * Nat.pow 2 (-e).toNat * Nat.pow 10 step.toNat) : ℕ) : ℚ)
        = 4 * (n * 10 ^ step) * gridScale e step := by
  have hpower := toNat_zpow (show (10 : ℚ) ≠ 0 by norm_num) step
  unfold gridScale
  simp only [Nat.pow_eq]
  push_cast
  rw [hpower]
  ring

end Grid

theorem isNearest_of_identifies {m : Magnitude} {step : ℤ} {n : Nat}
    (hidentifies : (m.onGrid step).identifies n)
    : m.IsNearest (Decimal.value ⟨n, step⟩) := by
  have hscale := gridScale_pos m.exponent step
  have hlow := cast_end m.below m.exponent step
  have hhigh := cast_end m.above m.exponent step
  have hpoint := cast_point n m.exponent step
  have hpoint : ((n * (m.onGrid step).unit : ℕ) : ℚ)
      = 4 * Decimal.value ⟨n, step⟩ * gridScale m.exponent step := hpoint
  -- halfway to a neighbour is enough exactly if the significand is even
  have hstrict (hlow' : (m.onGrid step).low < n * (m.onGrid step).unit)
      (hhigh' : n * (m.onGrid step).unit < (m.onGrid step).high)
      : m.below * 2 ^ m.exponent < 4 * Decimal.value ⟨n, step⟩
        ∧ 4 * Decimal.value ⟨n, step⟩ < m.above * 2 ^ m.exponent := by
    constructor
    . apply lt_of_mul_lt_mul_right _ hscale.le
      rw [← hlow, ← hpoint]
      exact Nat.cast_lt.mpr hlow'
    . apply lt_of_mul_lt_mul_right _ hscale.le
      rw [← hhigh, ← hpoint]
      exact Nat.cast_lt.mpr hhigh'
  unfold OnGrid.identifies at hidentifies
  split at hidentifies
  . next hclosed =>
    have heven : m.significand % 2 = 0 := beq_iff_eq.mp hclosed
    rw [Bool.and_eq_true, decide_eq_true_iff, decide_eq_true_iff] at hidentifies
    refine ⟨?_, ?_, fun hodd => by omega⟩
    . apply le_of_mul_le_mul_right _ hscale
      rw [← hlow, ← hpoint]
      exact Nat.cast_le.mpr hidentifies.1
    . apply le_of_mul_le_mul_right _ hscale
      rw [← hhigh, ← hpoint]
      exact Nat.cast_le.mpr hidentifies.2
  . rw [Bool.and_eq_true, decide_eq_true_iff, decide_eq_true_iff] at hidentifies
    have hinside := hstrict hidentifies.1 hidentifies.2
    exact ⟨hinside.1.le, hinside.2.le, fun _ => hinside⟩

theorem identifies_of_pick? {g : OnGrid} {tie : Decimal.Tie} {n : Nat} (hpick : g.pick? tie = some n)
    : g.identifies n := by
  unfold OnGrid.pick? at hpick
  dsimp only at hpick
  split at hpick
  . next hbelow _ =>
    cases hpick
    exact hbelow
  . next _ habove =>
    cases hpick
    exact habove
  . cases hpick
  . next hbelow habove =>
    split at hpick <;> try split at hpick
    all_goals
      cases hpick
      assumption

end Binary.Magnitude

namespace Decimal

theorem value_exact (m : Binary.Magnitude) : (exact m).value = m.significand * 2 ^ m.exponent := by
  unfold exact value
  split
  . next hwhole =>
    simp only [Nat.pow_eq]
    push_cast
    rw [← zpow_natCast, Int.toNat_of_nonneg hwhole, mul_one]
  . next hfraction =>
    have hpower : (-m.exponent).toNat = -m.exponent := Int.toNat_of_nonneg (by omega)
    simp only [Nat.pow_eq]
    push_cast
    rw [← zpow_natCast, hpower, zpow_neg, show (10 : ℚ) = 5 * 2 by norm_num, mul_zpow]
    field_simp

theorem isNearest_exact {m : Binary.Magnitude} (hpos : 0 < m.significand)
    : m.IsNearest (exact m).value := by
  have hpower : (0 : ℚ) < 2 ^ m.exponent := zpow_pos (by norm_num) _
  have hbelow : m.below < 4 * m.significand := by
    unfold Binary.Magnitude.below
    split <;> omega
  have habove : 4 * m.significand < m.above := by
    unfold Binary.Magnitude.above
    omega
  have hbelow : (m.below : ℚ) < 4 * m.significand := by exact_mod_cast hbelow
  have habove : 4 * m.significand < (m.above : ℚ) := by exact_mod_cast habove
  have hlow := mul_lt_mul_of_pos_right hbelow hpower
  have hhigh := mul_lt_mul_of_pos_right habove hpower
  rw [value_exact]
  rw [mul_assoc] at hlow hhigh
  exact ⟨hlow.le, hhigh.le, fun _ => ⟨hlow, hhigh⟩⟩

theorem value_strip_go (fuel : Nat) (d : Decimal) : (strip.go fuel d).value = d.value := by
  induction fuel generalizing d with
  | zero => rfl
  | succ fuel ih =>
    unfold strip.go
    split
    . next hzero =>
      rw [Bool.and_eq_true, bne_iff_ne, beq_iff_eq] at hzero
      have hdigits : ((d.digits / 10 : ℕ) : ℚ) * 10 = d.digits := by
        exact_mod_cast Nat.div_mul_cancel (Nat.dvd_of_mod_eq_zero hzero.2)
      rw [ih]
      unfold value
      dsimp only
      rw [zpow_add_one₀ (by norm_num), ← hdigits]
      ring
    . rfl

theorem value_strip (d : Decimal) : d.strip.value = d.value := value_strip_go d.digits d

theorem isNearest_shortest (tie : Tie) {m : Binary.Magnitude} (hpos : 0 < m.significand)
    : m.IsNearest (shortest tie m).value := by
  unfold shortest
  rw [if_neg (by simpa using Nat.ne_of_gt hpos)]
  dsimp only
  rw [value_strip]
  cases hfound : (List.range 17).findSome? fun n =>
      ((m.onGrid (m.decimalScale - (n + 1 : Nat))).pick? tie).map fun digits =>
        (⟨digits, m.decimalScale - (n + 1 : Nat)⟩ : Decimal) with
  | none => exact isNearest_exact hpos
  | some d =>
    rcases List.exists_of_findSome?_eq_some hfound with ⟨n, -, hpick⟩
    rcases Option.map_eq_some_iff.mp hpick with ⟨digits, hdigits, rfl⟩
    exact Binary.Magnitude.isNearest_of_identifies (Binary.Magnitude.identifies_of_pick? hdigits)

theorem digits_pos_of_value {d : Decimal} (hpos : 0 < d.value) : 0 < d.digits := by
  by_contra hzero
  have hzero : d.digits = 0 := by omega
  unfold value at hpos
  rw [hzero, Nat.cast_zero, zero_mul] at hpos
  exact lt_irrefl 0 hpos

end Decimal
end DecodePipeline
