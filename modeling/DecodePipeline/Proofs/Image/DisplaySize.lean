import DecodePipeline.Image.Ratio
import Mathlib.Data.Rat.Lemmas

/-!
This module contains the pixel shape that gives a picture a wanted display size. It is the ratio of two
products in lowest terms, and a side that does not fit into a pixel dimension is left unknown. The main
result is that the display aspect comes out exactly, and that nothing on the way divides by zero, for
which Euclid's algorithm is written out with divisions that may fail.
-/

namespace DecodePipeline

namespace Ratio

theorem saturate_eq_zero {n : Nat} : saturate n = 0 ↔ n = 0 := by
  have hbound : bound ≠ 0 := by decide
  unfold saturate
  omega

def quotient? (a b : Nat) : Option Nat := if b = 0 then none else some (a / b)

def remainder? (a b : Nat) : Option Nat := if b = 0 then none else some (a % b)

theorem remainder?_of_ne_zero (a : Nat) {b : Nat} (hdivisor : b ≠ 0)
    : remainder? a b = some (a % b) := if_neg hdivisor

theorem lt_of_remainder? {a b rest : Nat} (hrest : remainder? a b = some rest) : rest < b := by
  unfold remainder? at hrest
  split at hrest
  . cases hrest
  . next hdivisor =>
    cases hrest
    exact Nat.mod_lt a (Nat.pos_of_ne_zero hdivisor)

/-- Euclid's algorithm. `none` stands for a division by zero. -/
def commonDivisor? (a b : Nat) : Option Nat :=
  if b = 0 then some a
  else
    match _ : remainder? a b with
    | none => none
    | some rest => commonDivisor? b rest
termination_by b
decreasing_by exact lt_of_remainder? ‹_›

def reduce? (numerator denominator : Nat) : Option (Nat × Nat) := do
  match ← commonDivisor? numerator denominator with
  | 0 => return (0, 0)
  | divisor => return (← quotient? numerator divisor, ← quotient? denominator divisor)

theorem commonDivisor?_eq (a b : Nat) : commonDivisor? a b = some (Nat.gcd a b) := by
  fun_induction commonDivisor? a b with
  | case1 a =>
    rw [Nat.gcd_zero_right]
  | case2 a b hdivisor hnone =>
    cases hnone.symm.trans (remainder?_of_ne_zero a hdivisor)
  | case3 a b hdivisor rest hrest ih =>
    cases hrest.symm.trans (remainder?_of_ne_zero a hdivisor)
    rw [ih, Nat.gcd_comm a b, Nat.gcd_rec b a, Nat.gcd_comm]

theorem reduce?_eq (numerator denominator : Nat)
    : reduce? numerator denominator = some (reduce numerator denominator) := by
  unfold reduce? reduce
  rw [commonDivisor?_eq, Option.bind_eq_bind, Option.bind_some]
  cases Nat.gcd numerator denominator with
  | zero => rfl
  | succ n => simp [quotient?]

theorem reduce_eq (numerator denominator : Nat)
    : reduce numerator denominator
        = (numerator / Nat.gcd numerator denominator,
          denominator / Nat.gcd numerator denominator) := by
  unfold reduce
  split
  . next hzero => rw [hzero, Nat.div_zero, Nat.div_zero]
  . rfl

theorem reduce_zero_right (numerator : Nat)
    : reduce numerator 0 = (if numerator = 0 then 0 else 1, 0) := by
  rw [reduce_eq, Nat.gcd_zero_right, Nat.zero_div]
  split
  . next hzero => rw [hzero]
  . next hpos => rw [Nat.div_self (Nat.pos_of_ne_zero hpos)]

theorem reduce_pos (numerator : Nat) {denominator : Nat} (hpos : 0 < denominator)
    : 0 < (reduce numerator denominator).2 := by
  rw [reduce_eq]
  exact Nat.div_pos (Nat.le_of_dvd hpos (Nat.gcd_dvd_right ..))
    (Nat.gcd_pos_of_pos_right numerator hpos)

theorem reduce_coprime (numerator : Nat) {denominator : Nat} (hpos : 0 < denominator)
    : Nat.Coprime (reduce numerator denominator).1 (reduce numerator denominator).2 := by
  rw [reduce_eq]
  exact Nat.coprime_div_gcd_div_gcd (Nat.gcd_pos_of_pos_right numerator hpos)

theorem reduce_cross (numerator denominator : Nat)
    : (reduce numerator denominator).1 * denominator
        = (reduce numerator denominator).2 * numerator := by
  rw [reduce_eq]
  dsimp only
  generalize hgcd : Nat.gcd numerator denominator = gcd
  have hleft : gcd ∣ numerator := hgcd ▸ Nat.gcd_dvd_left ..
  have hright : gcd ∣ denominator := hgcd ▸ Nat.gcd_dvd_right ..
  calc numerator / gcd * denominator
    _ = numerator / gcd * (denominator / gcd * gcd) := by rw [Nat.div_mul_cancel hright]
    _ = denominator / gcd * (numerator / gcd * gcd) := Nat.mul_left_comm ..
    _ = denominator / gcd * numerator := by rw [Nat.div_mul_cancel hleft]

theorem num_den_eq_reduce (numerator : Nat) {denominator : Nat} (hpos : 0 < denominator)
    : (numerator / denominator : ℚ).num = (reduce numerator denominator).1
        ∧ (numerator / denominator : ℚ).den = (reduce numerator denominator).2 := by
  have hreduced := reduce_pos numerator hpos
  have hcoprime := reduce_coprime numerator hpos
  have hcross := reduce_cross numerator denominator
  generalize reduce numerator denominator = ratio at *
  have hratio : (numerator / denominator : ℚ) = ((ratio.1 : ℤ) / (ratio.2 : ℤ) : ℚ) := by
    have hdenominator : (denominator : ℚ) ≠ 0 := Nat.cast_ne_zero.mpr (by omega)
    have hside : (ratio.2 : ℚ) ≠ 0 := Nat.cast_ne_zero.mpr (by omega)
    simp only [Int.cast_natCast]
    rw [div_eq_div_iff hdenominator hside, mul_comm]
    exact_mod_cast hcross.symm
  have hside : 0 < (ratio.2 : ℤ) := Int.natCast_pos.mpr hreduced
  rw [hratio]
  exact ⟨Rat.num_div_eq_of_coprime hside hcoprime,
    Int.ofNat.inj (Rat.den_div_eq_of_coprime hside hcoprime)⟩

end Ratio

namespace ImageParams

theorem toNat_pixelDimension (n : Nat)
    : (pixelDimension n).toNat = if n < 2 ^ 32 then n else 0 := by
  have hsize : UInt32.size = 2 ^ 32 := rfl
  unfold pixelDimension
  rw [← hsize]
  split
  . next hfits => exact UInt32.toNat_ofNat_of_lt' hfits
  . rfl

/-- The pixels have the ratio of two numbers in lowest terms, where a side that does not fit is zero. -/
structure HasPixelRatio (p : ImageParams) (across down : Nat) : Prop where
  pixelWidth : (p.pixelWidth.toNat : ℤ)
    = if (across / down : ℚ).num < 2 ^ 32 then (across / down : ℚ).num else 0
  pixelHeight : p.pixelHeight.toNat
    = if (across / down : ℚ).den < 2 ^ 32 then (across / down : ℚ).den else 0
  lowestTerms : (across / down : ℚ).num < 2 ^ 32 → (across / down : ℚ).den < 2 ^ 32 →
    Nat.Coprime p.pixelWidth.toNat p.pixelHeight.toNat
      ∧ p.pixelWidth.toNat * down = p.pixelHeight.toNat * across

theorem hasPixelRatio_of_reduce {p : ImageParams} {across down : Nat} (hdown : 0 < down)
    (hwidth : p.pixelWidth = pixelDimension (Ratio.reduce across down).1)
    (hheight : p.pixelHeight = pixelDimension (Ratio.reduce across down).2)
    : p.HasPixelRatio across down := by
  rcases Ratio.num_den_eq_reduce across hdown with ⟨hnum, hden⟩
  constructor
  . rw [hwidth, hnum, toNat_pixelDimension]
    norm_cast
  . rw [hheight, hden, toNat_pixelDimension]
  . intro hnumFits hdenFits
    rw [hnum] at hnumFits
    rw [hden] at hdenFits
    rw [hwidth, hheight, toNat_pixelDimension, toNat_pixelDimension, if_pos hdenFits,
      if_pos (by exact_mod_cast hnumFits)]
    exact ⟨Ratio.reduce_coprime across hdown, Ratio.reduce_cross across down⟩

def withDisplaySize? (p : ImageParams) (displayWidth displayHeight : Nat) : Option ImageParams := do
  let (pixelWidth, pixelHeight) ← Ratio.reduce?
    (Ratio.saturate (displayWidth * p.height.toNat))
    (Ratio.saturate (displayHeight * p.width.toNat))
  return { p with
    pixelWidth := pixelDimension pixelWidth
    pixelHeight := pixelDimension pixelHeight }

theorem withDisplaySize?_eq (p : ImageParams) (displayWidth displayHeight : Nat)
    : p.withDisplaySize? displayWidth displayHeight
        = some (p.withDisplaySize displayWidth displayHeight) := by
  unfold withDisplaySize?
  rw [Ratio.reduce?_eq]
  rfl

theorem withDisplaySize_unknown (p : ImageParams) (displayWidth : Nat) {displayHeight : Nat}
    (hdown : displayHeight * p.width.toNat = 0)
    : let q := p.withDisplaySize displayWidth displayHeight
      q.pixelWidth = (if displayWidth * p.height.toNat = 0 then 0 else 1) ∧ q.pixelHeight = 0 := by
  have hsaturate : Ratio.saturate 0 = 0 := Nat.zero_min _
  unfold withDisplaySize
  simp only [hdown, hsaturate, Ratio.reduce_zero_right, Ratio.saturate_eq_zero]
  split <;> exact ⟨rfl, rfl⟩

/--
The pixel shape for a display size is found without a division by zero, and nothing else changes. The
aspect of the display is exactly the wanted one, if the products stay below `2 ^ 64` and the sides of
their ratio below `2 ^ 32`.
-/
theorem withDisplaySize_exact (p : ImageParams) (displayWidth displayHeight : Nat)
    : let q := p.withDisplaySize displayWidth displayHeight
      let across := displayWidth * p.height.toNat
      let down := displayHeight * p.width.toNat
      p.withDisplaySize? displayWidth displayHeight = some q
        ∧ { q with pixelWidth := p.pixelWidth, pixelHeight := p.pixelHeight } = p
        ∧ (0 < down → q.HasPixelRatio (min across (2 ^ 64 - 1)) (min down (2 ^ 64 - 1)))
        ∧ (0 < down → across < 2 ^ 64 → down < 2 ^ 64 →
          q.HasPixelRatio across down
            ∧ ((across / down : ℚ).num < 2 ^ 32 → (across / down : ℚ).den < 2 ^ 32 →
              q.pixelWidth.toNat * p.width.toNat * displayHeight
                = q.pixelHeight.toNat * p.height.toNat * displayWidth))
        ∧ (down = 0 → q.pixelWidth = (if across = 0 then 0 else 1) ∧ q.pixelHeight = 0) := by
  intro q across down
  have hratio (hdown : 0 < down)
      : q.HasPixelRatio (min across (2 ^ 64 - 1)) (min down (2 ^ 64 - 1)) :=
    hasPixelRatio_of_reduce (by omega) rfl rfl
  refine ⟨p.withDisplaySize?_eq displayWidth displayHeight, rfl, hratio, ?_,
    p.withDisplaySize_unknown displayWidth⟩
  intro hdown hacrossBounded hdownBounded
  have hexact := hratio hdown
  rw [Nat.min_eq_left (by omega), Nat.min_eq_left (by omega)] at hexact
  refine ⟨hexact, fun hnumFits hdenFits => ?_⟩
  have hcross := (hexact.lowestTerms hnumFits hdenFits).2
  calc q.pixelWidth.toNat * p.width.toNat * displayHeight
    _ = q.pixelWidth.toNat * down := by rw [Nat.mul_assoc, Nat.mul_comm p.width.toNat]
    _ = q.pixelHeight.toNat * across := hcross
    _ = q.pixelHeight.toNat * p.height.toNat * displayWidth := by
      rw [Nat.mul_assoc, Nat.mul_comm p.height.toNat]

theorem sample_exact
    : let q := (ofSize 1440 1080).withDisplaySize 16 9
      let cut := (ofSize 1920 1080).withDisplaySize (2 ^ 64 - 1) 1
      let empty := (ofSize 0 480).withDisplaySize 4 3
      (0 < 9 * 1440 ∧ 16 * 1080 < 2 ^ 64 ∧ 9 * 1440 < 2 ^ 64
          ∧ ((16 * 1080 : Nat) / (9 * 1440 : Nat) : ℚ).num < 2 ^ 32
          ∧ ((16 * 1080 : Nat) / (9 * 1440 : Nat) : ℚ).den < 2 ^ 32)
        ∧ q.HasPixelRatio (16 * 1080) (9 * 1440)
        ∧ Nat.Coprime q.pixelWidth.toNat q.pixelHeight.toNat
        ∧ q.pixelWidth.toNat * 1440 * 9 = q.pixelHeight.toNat * 1080 * 16
        ∧ (q.pixelWidth, q.pixelHeight) = (4, 3)
        ∧ cut.HasPixelRatio (2 ^ 64 - 1) (1 * 1920)
        ∧ (cut.pixelWidth, cut.pixelHeight) = (0, 128)
        ∧ empty.pixelWidth = 1 ∧ empty.pixelHeight = 0 := by
  have hfits : ((16 * 1080 : Nat) / (9 * 1440 : Nat) : ℚ).num < 2 ^ 32
      ∧ ((16 * 1080 : Nat) / (9 * 1440 : Nat) : ℚ).den < 2 ^ 32 := by
    have hdown : 0 < 9 * 1440 := by decide
    rcases Ratio.num_den_eq_reduce (16 * 1080) hdown with ⟨hnum, hden⟩
    rw [hnum, hden]
    decide
  rcases (ofSize 1440 1080).withDisplaySize_exact 16 9 with ⟨-, -, -, hbounded, -⟩
  rcases (ofSize 1920 1080).withDisplaySize_exact (2 ^ 64 - 1) 1 with ⟨-, -, hcut, -, -⟩
  rcases (ofSize 0 480).withDisplaySize_exact 4 3 with ⟨-, -, -, -, hempty⟩
  rcases hbounded (by decide) (by decide) (by decide) with ⟨hratio, haspect⟩
  exact ⟨⟨by decide, by decide, by decide, hfits⟩, hratio, (hratio.lowestTerms hfits.1 hfits.2).1,
    haspect hfits.1 hfits.2, by decide +kernel, hcut (by decide), by decide +kernel,
    hempty (by decide)⟩

end ImageParams
end DecodePipeline
