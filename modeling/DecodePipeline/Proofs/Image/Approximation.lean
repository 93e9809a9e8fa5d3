import DecodePipeline.Proofs.Image.Convergents

/-!
This module contains how close the fraction for an aspect ratio comes. It is the last convergent
within the limit, so no fraction within the limit is closer if distances count once for every unit of
the denominator. A fraction with a larger denominator may still be closer to the number itself.
-/

namespace DecodePipeline

open Floating ImageParams

def Floating.rational (x : Float) : ℚ := ((place x).getD 0 : Int) / (unit : Nat)

theorem Floating.unit_cast_pos : (0 : ℚ) < (unit : Nat) := Nat.cast_pos.mpr unit_pos

theorem Floating.rational_of_place {x : Float} {a : Nat} (ha : place x = some (a : Int))
    : rational x = a / (unit : Nat) := by
  unfold rational
  rw [ha]
  rfl

namespace Ratio

/-- The number whose expansion has neighbouring convergents `a` and `b` and goes on with `x`. -/
def blend (a b : Nat × Nat) (x : ℚ) : ℚ := (b.1 * x + a.1) / (b.2 * x + a.2)

section Blend

variable {a b : Nat × Nat} {x y : ℚ}

theorem Neighbours.sign (hab : Neighbours a b)
    : ∃ s : ℤ, (s = 1 ∨ s = -1) ∧ (b.1 * a.2 - a.1 * b.2 : ℤ) = s := by
  rcases hab with hab | hab
  . have hcross : (a.1 * b.2 : ℤ) = b.1 * a.2 + 1 := by exact_mod_cast hab
    exact ⟨-1, .inr rfl, by linarith⟩
  . have hcross : (b.1 * a.2 : ℤ) = a.1 * b.2 + 1 := by exact_mod_cast hab
    exact ⟨1, .inl rfl, by linarith⟩

theorem abs_blend_sub (hab : Neighbours a b) (hx : 0 < b.2 * x + a.2) (hy : 0 < b.2 * y + a.2)
    : |blend a b x - blend a b y| = |x - y| / ((b.2 * x + a.2) * (b.2 * y + a.2)) := by
  rcases hab.sign with ⟨s, hs, hcross⟩
  have hcross : (b.1 * a.2 - a.1 * b.2 : ℚ) = s := by exact_mod_cast hcross
  have hdifference : blend a b x - blend a b y
      = s * (x - y) / ((b.2 * x + a.2) * (b.2 * y + a.2)) := by
    rw [blend, blend, div_sub_div _ _ hx.ne' hy.ne', ← hcross]
    ring
  have hone : |(s : ℚ)| = 1 := by rcases hs with rfl | rfl <;> simp
  rw [hdifference, abs_div, abs_mul, hone, one_mul, abs_of_pos (mul_pos hx hy)]

theorem abs_blend_sub_le (hab : Neighbours a b) (hx : 1 ≤ x) (hy : 0 < y) (hb : 1 ≤ b.2)
    (hnear : |y - x| ≤ y / 2 ^ 53)
    : |blend a b y - blend a b x| ≤ 1 / (b.2 * (b.2 + a.2)) / 2 ^ 53 := by
  have hk : (1 : ℚ) ≤ b.2 := by exact_mod_cast hb
  have hl : (0 : ℚ) ≤ a.2 := Nat.cast_nonneg _
  have hold : 0 < b.2 * y + a.2 := by positivity
  have hnew : (b.2 : ℚ) + a.2 ≤ b.2 * x + a.2 := by nlinarith
  rw [abs_blend_sub hab hold (by linarith)]
  calc |y - x| / ((b.2 * y + a.2) * (b.2 * x + a.2))
    _ ≤ y / 2 ^ 53 / (b.2 * y * (b.2 + a.2)) := by
      apply div_le_div₀ (by positivity) hnear (by positivity)
      exact mul_le_mul (by linarith) hnew (by linarith) (by linarith)
    _ = 1 / (b.2 * (b.2 + a.2)) / 2 ^ 53 := by
      field_simp

theorem blend_next {n : Nat} {f : ℚ} (hf : 0 < f) (hx : 0 < b.2 * (n + f) + a.2)
    : blend a b (n + f) = blend b (n * b.1 + a.1, n * b.2 + a.2) (1 / f) := by
  have hy : ((n * b.2 + a.2 : Nat) : ℚ) * (1 / f) + b.2 ≠ 0 := by
    have heq : ((n * b.2 + a.2 : Nat) : ℚ) * (1 / f) + b.2 = (b.2 * (n + f) + a.2) / f := by
      push_cast
      field_simp
      ring
    rw [heq]
    positivity
  rw [blend, blend, div_eq_div_iff hx.ne' hy]
  push_cast
  field_simp
  ring

theorem abs_mul_blend_sub (hab : Neighbours a b) (hx : 0 < b.2 * x + a.2)
    : |b.2 * blend a b x - b.1| = 1 / (b.2 * x + a.2) := by
  rcases hab.sign with ⟨s, hs, hcross⟩
  have hcross : (b.1 * a.2 - a.1 * b.2 : ℚ) = s := by exact_mod_cast hcross
  have hdifference : b.2 * blend a b x - b.1 = -s / (b.2 * x + a.2) := by
    rw [blend, eq_div_iff hx.ne', sub_mul, mul_assoc, div_mul_cancel₀ _ hx.ne', ← hcross]
    ring
  have hone : |(s : ℚ)| = 1 := by rcases hs with rfl | rfl <;> simp
  rw [hdifference, abs_div, abs_neg, hone, abs_of_pos hx]

theorem abs_mul_blend_sub_next (hab : Neighbours a b) {n : Nat} {f : ℚ} (hf : 0 ≤ f)
    (hx : 0 < b.2 * (n + f) + a.2)
    : |((n * b.2 + a.2 : Nat) : ℚ) * blend a b (n + f) - (n * b.1 + a.1 : Nat)|
        = f / (b.2 * (n + f) + a.2) := by
  rcases hab.sign with ⟨s, hs, hcross⟩
  have hcross : (b.1 * a.2 - a.1 * b.2 : ℚ) = s := by exact_mod_cast hcross
  have hdifference : ((n * b.2 + a.2 : Nat) : ℚ) * blend a b (n + f) - (n * b.1 + a.1 : Nat)
      = s * f / (b.2 * (n + f) + a.2) := by
    rw [blend, eq_div_iff hx.ne', sub_mul, mul_assoc, div_mul_cancel₀ _ hx.ne', ← hcross]
    push_cast
    ring
  have hone : |(s : ℚ)| = 1 := by rcases hs with rfl | rfl <;> simp
  rw [hdifference, abs_div, abs_mul, hone, one_mul, abs_of_nonneg hf, abs_of_pos hx]

theorem one_le_abs_combination {k l n q : Nat} {u w : ℤ} (hk : 1 ≤ k) (hq : 1 ≤ q)
    (hlt : q < n * k + l) (hcombination : (q : ℤ) = k * u + l * w) (hn : n ≤ x)
    : 1 ≤ |w * x - u| := by
  have hx : (0 : ℚ) ≤ x := le_trans (Nat.cast_nonneg n) hn
  rcases lt_trichotomy w 0 with hneg | rfl | hpos
  . have hu : 1 ≤ u := by
      have hproduct : 0 < k * u := by nlinarith
      exact (pos_iff_pos_of_mul_pos hproduct).mp (by omega)
    have hu : (1 : ℚ) ≤ u := by exact_mod_cast hu
    have hw : (w : ℚ) ≤ -1 := by exact_mod_cast Int.le_sub_one_of_lt hneg
    rw [abs_sub_comm]
    refine le_trans ?_ (le_abs_self _)
    nlinarith
  . have hu : u ≠ 0 := by
      rintro rfl
      omega
    simpa using (by exact_mod_cast Int.one_le_abs hu : (1 : ℚ) ≤ |(u : ℚ)|)
  . have hu : u < n := by
      have hproduct : k * u < k * n := by nlinarith
      exact lt_of_mul_lt_mul_left hproduct (by omega)
    have hu : (u : ℚ) ≤ n - 1 := by exact_mod_cast Int.le_sub_one_of_lt hu
    have hw : (1 : ℚ) ≤ w := by exact_mod_cast hpos
    refine le_trans ?_ (le_abs_self _)
    nlinarith

theorem le_abs_mul_blend_sub (hab : Neighbours a b) {n q : Nat} (p : ℤ) (hb : 1 ≤ b.2) (hq : 1 ≤ q)
    (hlt : q < n * b.2 + a.2) (hn : n ≤ x) (hx : 0 < b.2 * x + a.2)
    : 1 / (b.2 * x + a.2) ≤ |q * blend a b x - p| := by
  rcases hab.sign with ⟨s, hs, hcross⟩
  have hdifference : q * blend a b x - p
      = ((q * b.1 - p * b.2 : ℤ) * x - (p * a.2 - q * a.1 : ℤ)) / (b.2 * x + a.2) := by
    rw [blend, eq_div_iff hx.ne', sub_mul, mul_assoc, div_mul_cancel₀ _ hx.ne']
    push_cast
    ring
  rw [hdifference, abs_div, abs_of_pos hx]
  apply div_le_div_of_nonneg_right _ hx.le
  rcases hs with rfl | rfl
  . refine one_le_abs_combination hb hq hlt ?_ hn
    linear_combination (q : ℤ) * -hcross
  . have hcombination : (q : ℤ) = b.2 * -(p * a.2 - q * a.1) + a.2 * -(q * b.1 - p * b.2) := by
      linear_combination (q : ℤ) * hcross
    calc (1 : ℚ)
      _ ≤ |(-(q * b.1 - p * b.2) : ℤ) * x - (-(p * a.2 - q * a.1) : ℤ)| :=
        one_le_abs_combination hb hq hlt hcombination hn
      _ = |(q * b.1 - p * b.2 : ℤ) * x - (p * a.2 - q * a.1 : ℤ)| := by
        rw [← abs_neg]
        congr 1
        push_cast
        ring

end Blend

namespace Expansion

variable {e : Expansion} {a : Nat} {value : Float}

theorem rational_rest (hrest : Positive e.rest a) (hle : a ≤ 2 ^ 30 * unit)
    : rational e.rest = e.part + rational e.fraction := by
  have hwhole := Nat.div_add_mod' a unit
  have hpos := unit_cast_pos
  rw [rational_of_place hrest.place, rational_of_place (fraction_place hrest), part_eq hrest hle]
  rw [eq_comm, ← sub_eq_zero]
  nth_rewrite 3 [← hwhole]
  push_cast
  field_simp
  ring

theorem fraction_nonneg (hrest : Positive e.rest a) : 0 ≤ rational e.fraction := by
  rw [rational_of_place (fraction_place hrest)]
  positivity

theorem abs_reciprocal_sub {r u b : Nat} (hr : 0 < r) (hu : 0 < u)
    (hhigh : 2 ^ 53 * (b * r) ≤ (2 ^ 53 + 1) * (u * u))
    (hlow : (2 ^ 53 - 1) * (u * u) ≤ 2 ^ 53 * (b * r))
    : |1 / (r / u : ℚ) - b / u| ≤ 1 / (r / u : ℚ) / 2 ^ 53 := by
  have hr : (0 : ℚ) < r := Nat.cast_pos.mpr hr
  have hu : (0 : ℚ) < u := Nat.cast_pos.mpr hu
  have hhigh : (2 ^ 53 * (b * r) : ℚ) ≤ (2 ^ 53 + 1) * (u * u) := by exact_mod_cast hhigh
  have hlow : (9007199254740991 * (u * u) : ℚ) ≤ 2 ^ 53 * (b * r) := by exact_mod_cast hlow
  rw [abs_le, one_div_div]
  constructor
  . rw [← sub_nonneg]
    have heq : u / r - b / u - -(u / r / 2 ^ 53)
        = ((2 ^ 53 + 1) * (u * u) - 2 ^ 53 * (b * r)) / (2 ^ 53 * (r * u) : ℚ) := by
      field_simp
      ring
    rw [heq]
    exact div_nonneg (by linarith) (by positivity)
  . rw [← sub_nonneg]
    have heq : u / r / 2 ^ 53 - (u / r - b / u)
        = (2 ^ 53 * (b * r) - (2 ^ 53 - 1) * (u * u)) / (2 ^ 53 * (r * u) : ℚ) := by
      field_simp
      ring
    rw [heq]
    exact div_nonneg (by linarith) (by positivity)

theorem abs_next_rest_sub (hrest : Positive e.rest a) (hcoarse : ¬ e.fraction < 1e-9)
    : 0 < rational e.fraction
        ∧ |1 / rational e.fraction - rational e.next.rest| ≤ 1 / rational e.fraction / 2 ^ 53 := by
  have hle := Nat.le_of_lt (Nat.mod_lt a unit_pos)
  have hr : 0 < a % unit :=
    Nat.lt_of_lt_of_le (by decide +kernel) (billionth_le hrest hcoarse)
  rcases next_rest hrest hcoarse with ⟨b, hb, -, -, hrounds⟩
  have hsquare : 2 ^ 2148 = unit * unit := by decide +kernel
  have hlarge : 2 ^ 52 * (a % unit) ≤ unit * unit := Nat.mul_le_mul (by decide +kernel) hle
  rw [hsquare] at hrounds
  have hnear := hrounds.near hr hlarge
  rw [rational_of_place (fraction_place hrest), rational_of_place hb.place]
  exact ⟨div_pos (Nat.cast_pos.mpr hr) unit_cast_pos, abs_reciprocal_sub hr unit_pos hnear.1 hnear.2⟩

structure Regular (e : Expansion) : Prop where
  rest : ∃ a, Positive e.rest a ∧ a ≤ 2 ^ 30 * unit
  neighbours : Neighbours e.before e.last
  exact : e.convergent = e.unbounded
  pos : 1 ≤ e.convergent.2

theorem Later.regular (he : Later e) : Regular e where
  rest := by
    rcases he.rest with ⟨a, hrest, -, hle⟩
    exact ⟨a, hrest, hle⟩
  neighbours := he.neighbours
  exact := he.convergent_eq
  pos := Nat.le_trans he.pos (Nat.le_trans (Nat.le_add_right ..) he.convergent_grows)

theorem start_regular (hvalue : Positive value a) (hle : a ≤ 10 * unit)
    : Regular (start value) where
  rest := ⟨a, hvalue, Nat.le_trans hle (Nat.mul_le_mul_right unit (by decide))⟩
  neighbours := .inr rfl
  exact := by
    rw [start_convergent hvalue hle]
    simp [unbounded, start]
  pos := by rw [start_convergent hvalue hle]

namespace Regular

variable (he : Regular e)
include he

theorem rest_eq : rational e.rest = e.part + rational e.fraction := by
  rcases he.rest with ⟨a, hrest, hle⟩
  exact rational_rest hrest hle

theorem fraction_nonneg : 0 ≤ rational e.fraction := by
  rcases he.rest with ⟨a, hrest, -⟩
  exact Expansion.fraction_nonneg hrest

theorem part_le_rest : e.part ≤ rational e.rest := by
  have := he.fraction_nonneg
  rw [he.rest_eq]
  linarith

theorem denominator_le
    : (e.convergent.2 : ℚ) ≤ e.last.2 * rational e.rest + e.before.2 := by
  have hpart := mul_le_mul_of_nonneg_left he.part_le_rest (Nat.cast_nonneg (α := ℚ) e.last.2)
  rw [he.exact]
  unfold unbounded
  push_cast
  linarith

theorem denominator_pos : 0 < e.last.2 * rational e.rest + e.before.2 := by
  have hpos : (1 : ℚ) ≤ e.convergent.2 := by exact_mod_cast he.pos
  have := he.denominator_le
  linarith

theorem abs_blend_sub_next (hcoarse : ¬ e.fraction < 1e-9) (hone : 1 ≤ rational e.next.rest)
    : |blend e.before e.last (rational e.rest) - blend e.last e.convergent (rational e.next.rest)|
        ≤ 1 / (e.convergent.2 * (e.convergent.2 + e.last.2)) / 2 ^ 53 := by
  rcases he.rest with ⟨a, hrest, hle⟩
  rcases abs_next_rest_sub hrest hcoarse with ⟨hfraction, hnear⟩
  have hpos := he.denominator_pos
  have hneighbours : Neighbours e.last e.convergent := by
    rw [he.exact]
    exact he.neighbours.next e.part
  have hnext : blend e.before e.last (rational e.rest)
      = blend e.last e.convergent (1 / rational e.fraction) := by
    rw [he.rest_eq] at hpos ⊢
    rw [blend_next hfraction hpos, he.exact]
    rfl
  rw [hnext]
  exact abs_blend_sub_le hneighbours hone (one_div_pos.mpr hfraction) he.pos hnear

end Regular

theorem Later.one_le_rest (he : Later e) : 1 ≤ rational e.rest := by
  rcases he.rest with ⟨a, hrest, hone, -⟩
  rw [rational_of_place hrest.place, one_le_div unit_cast_pos]
  exact Nat.cast_le.mpr hone

def drift (value : Float) (e : Expansion) : ℚ :=
  |rational value - blend e.before e.last (rational e.rest)|

theorem drift_start : drift value (start value) = 0 := by
  simp [drift, blend, start]

theorem drift_next (value : Float) (he : Regular e) (hcoarse : ¬ e.fraction < 1e-9)
    (hone : 1 ≤ rational e.next.rest)
    : drift value e.next
        ≤ drift value e + 1 / (e.convergent.2 * (e.convergent.2 + e.last.2)) / 2 ^ 53 :=
  le_trans (abs_sub_le ..) (add_le_add_right (he.abs_blend_sub_next hcoarse hone) _)

theorem drift_bound_step {k l m : ℚ} (hl : 0 ≤ l) (hsum : 1 ≤ k + l) (hk : 1 ≤ k)
    (hgrows : k + l ≤ m)
    : 2 - 1 / (k + l) + 1 / (m * (m + k)) ≤ 2 - 1 / (m + k) := by
  have hm : 1 ≤ m := by linarith
  have hdifference : 2 - 1 / (m + k) - (2 - 1 / (k + l) + 1 / (m * (m + k)))
      = (m * (m - l) - (k + l)) / (m * (m + k) * (k + l)) := by
    field_simp
    ring
  rw [← sub_nonneg, hdifference]
  apply div_nonneg _ (by positivity)
  nlinarith

theorem le_two_of_bound {d : ℚ} {k l : Nat} (hd : d ≤ (2 - 1 / (k + l)) / 2 ^ 53)
    : d ≤ 2 / 2 ^ 53 := by
  have hreciprocal : 0 ≤ 1 / (k + l : ℚ) := by positivity
  linarith

theorem reached_drift (hvalue : Positive value a) (hle : a ≤ 10 * unit)
    (he : Reached value movieAspectLimit e)
    : e = start value ∨ (Later e ∧ drift value e ≤ (2 - 1 / (e.last.2 + e.before.2)) / 2 ^ 53) := by
  induction he with
  | start => exact .inl rfl
  | @next e _ hwithin hcoarse ih =>
    right
    rcases ih with rfl | ⟨hlater, hdrift⟩
    . have hnext := later_start hvalue hle hcoarse
      have hstep := drift_next value (start_regular hvalue hle) hcoarse hnext.one_le_rest
      have hdenominator : (start value).convergent.2 = 1 := by rw [start_convergent hvalue hle]
      have hlast : (start value).next.last.2 = 1 := hdenominator
      have hbefore : (start value).next.before.2 = 0 := rfl
      refine ⟨hnext, le_trans hstep ?_⟩
      rw [drift_start, hdenominator, hlast, hbefore]
      norm_num [start]
    . have hnext := hlater.next hwithin hcoarse
      have hstep := drift_next value hlater.regular hcoarse hnext.one_le_rest
      have hk : (1 : ℚ) ≤ e.last.2 := by exact_mod_cast hlater.pos
      have hl : (0 : ℚ) ≤ e.before.2 := Nat.cast_nonneg _
      have hgrows : (e.last.2 + e.before.2 : ℚ) ≤ e.convergent.2 := by
        exact_mod_cast hlater.convergent_grows
      have hbound := drift_bound_step hl (by linarith) hk hgrows
      refine ⟨hnext, le_trans hstep ?_⟩
      change _ ≤ (2 - 1 / ((e.convergent.2 : ℚ) + e.last.2)) / 2 ^ 53
      linarith

theorem abs_mul_sub_le {n : Nat} {c d : ℚ} (hn : n ≤ c) (m : ℤ) (hdrift : drift value e ≤ d)
    : |(n * rational value - m) - (n * blend e.before e.last (rational e.rest) - m)| ≤ c * d := by
  rw [sub_sub_sub_cancel_right, ← mul_sub, abs_mul, Nat.abs_cast]
  exact mul_le_mul hn hdrift (abs_nonneg _) (le_trans (Nat.cast_nonneg n) hn)

theorem abs_le_of_near {x x' y y' d : ℚ} (hx : |x - x'| ≤ d) (hy : |y - y'| ≤ d) (hle : |x'| ≤ |y'|)
    : |x| ≤ |y| + 2 * d := by
  have hdown := abs_sub_abs_le_abs_sub x x'
  have hup := abs_sub_abs_le_abs_sub y' y
  rw [abs_sub_comm y' y] at hup
  linarith

theorem best_at_limit (he : Later e) (hover : movieAspectLimit < e.convergent.2)
    (hdrift : drift value e ≤ 2 / 2 ^ 53) (p : ℤ) {q : Nat} (hq : 1 ≤ q) (hq' : q ≤ movieAspectLimit)
    : |e.last.2 * rational value - e.last.1| ≤ |q * rational value - p| + 1 / 10 ^ 9 := by
  have hregular := he.regular
  have hpos := hregular.denominator_pos
  have hlast := abs_mul_blend_sub hregular.neighbours hpos
  have hother : 1 / (e.last.2 * rational e.rest + e.before.2)
      ≤ |q * blend e.before e.last (rational e.rest) - p| := by
    apply le_abs_mul_blend_sub hregular.neighbours p he.pos hq _ hregular.part_le_rest hpos
    rw [hregular.exact] at hover
    exact Nat.lt_of_le_of_lt hq' hover
  have hlast' := abs_mul_sub_le (c := 10000) (Nat.cast_le.mpr he.within) e.last.1 hdrift
  have hother' := abs_mul_sub_le (c := 10000) (Nat.cast_le.mpr hq') p hdrift
  rw [← hlast] at hother
  have hbest := abs_le_of_near hlast' hother' hother
  push_cast at hbest
  linarith

theorem billionth_rational : ((4835703278458516 * 2 ^ 992 : Nat) : ℚ) / (unit : Nat) < 1 / 10 ^ 9 := by
  have hunit : unit = 2 ^ 82 * 2 ^ 992 := by decide +kernel
  rw [hunit, Nat.cast_mul, Nat.cast_mul, mul_div_mul_right _ _ (by positivity)]
  norm_num

theorem fraction_lt (hrest : Positive e.rest a) (hclose : e.fraction < 1e-9)
    : a % unit < billionth := by
  rcases lt_iff.mp hclose with ⟨x, y, hx, hy, hlt⟩
  have hx : x = (a % unit : Nat) := Option.some.inj (hx.symm.trans (fraction_place hrest))
  have hy : y = billionth := Option.some.inj (hy.symm.trans place_billionth)
  omega

theorem rational_fraction_lt (hrest : Positive e.rest a) (hclose : e.fraction < 1e-9)
    : rational e.fraction < 1 / 10 ^ 9 := by
  have hlt := fraction_lt hrest hclose
  -- `1e-9` is a little more than a billionth, but no number lies between them.
  have hle : a % unit ≤ 4835703278458516 * 2 ^ 992 := by
    rcases representable_mod_unit hrest.place hrest.pos hrest.finite with ⟨m, k, hm, hmod⟩
    rw [Int.natAbs_natCast] at hmod
    unfold billionth at hlt
    rw [hmod] at hlt ⊢
    rcases multiple_or_lt k 992 hm with ⟨n, hn⟩ | ⟨-, hsmall⟩
    . rw [hn] at hlt ⊢
      have hn : n < 4835703278458517 := Nat.lt_of_mul_lt_mul_right hlt
      exact Nat.mul_le_mul_right _ (by omega)
    . exact Nat.le_trans (Nat.le_of_lt hsmall) (Nat.mul_le_mul_right _ (by decide))
  rw [rational_of_place (fraction_place hrest)]
  refine lt_of_le_of_lt (div_le_div_of_nonneg_right (Nat.cast_le.mpr hle) unit_cast_pos.le) ?_
  exact billionth_rational

theorem rational_fraction_le (hrest : Positive e.rest a) (hone : unit ≤ a)
    (hclose : e.fraction < 1e-9)
    : rational e.fraction ≤ 4503599 / 2 ^ 52 := by
  have hlt := fraction_lt hrest hclose
  have hunit : unit = 2 ^ 52 * 2 ^ 1022 := by decide +kernel
  -- A number from one on has no digits behind the fifty-second place.
  have hle : a % unit ≤ 4503599 * 2 ^ 1022 := by
    rcases finite_of_place_pos hrest.place hrest.pos hrest.finite
      with ⟨m, x, -, -, hcanonical, -, rfl⟩
    rcases multiple_or_lt (x + 1074).toNat 1022 hcanonical.lt with ⟨n, hn⟩ | ⟨-, hsmall⟩
    . unfold scaled billionth at hlt
      unfold scaled
      rw [hn, hunit, Nat.mul_mod_mul_right] at hlt ⊢
      have hbound : 4835703278458517 * 2 ^ 992 < 4503600 * 2 ^ 1022 := by decide +kernel
      have hn : n % 2 ^ 52 < 4503600 := Nat.lt_of_mul_lt_mul_right (Nat.lt_trans hlt hbound)
      exact Nat.mul_le_mul_right _ (by omega)
    . rw [hunit] at hone
      exact absurd hone (Nat.not_le_of_lt hsmall)
  rw [rational_of_place (fraction_place hrest)]
  refine le_trans (div_le_div_of_nonneg_right (Nat.cast_le.mpr hle) unit_cast_pos.le) ?_
  rw [hunit, Nat.cast_mul, Nat.cast_mul, mul_div_mul_right _ _ (by positivity)]
  norm_num

theorem best_when_close (he : Later e) (hwithin : e.convergent.2 ≤ movieAspectLimit)
    (hclose : e.fraction < 1e-9)
    (hdrift : drift value e ≤ (2 - 1 / (e.last.2 + e.before.2)) / 2 ^ 53)
    : |e.convergent.2 * rational value - e.convergent.1| ≤ 1 / 10 ^ 9 := by
  have hregular := he.regular
  have hnonneg := hregular.fraction_nonneg
  have hpos := hregular.denominator_pos
  have hdenominator := hregular.denominator_le
  have hfraction : rational e.fraction ≤ 4503599 / 2 ^ 52 := by
    rcases he.rest with ⟨a, hrest, hone, -⟩
    exact rational_fraction_le hrest hone hclose
  have hconvergent : |e.convergent.2 * blend e.before e.last (rational e.rest) - e.convergent.1|
      = rational e.fraction / (e.last.2 * rational e.rest + e.before.2) := by
    rw [hregular.exact, hregular.rest_eq]
    rw [hregular.rest_eq] at hpos
    exact abs_mul_blend_sub_next hregular.neighbours hnonneg hpos
  have hquotient : rational e.fraction / (e.last.2 * rational e.rest + e.before.2)
      ≤ rational e.fraction / e.convergent.2 :=
    div_le_div_of_nonneg_left hnonneg (Nat.cast_pos.mpr hregular.pos) hdenominator
  have hk : (1 : ℚ) ≤ e.last.2 := by exact_mod_cast he.pos
  have hl : (0 : ℚ) ≤ e.before.2 := Nat.cast_nonneg _
  have hmove {c d : ℚ} (hc : e.convergent.2 ≤ c) (hd : drift value e ≤ d)
      : |e.convergent.2 * rational value - e.convergent.1|
          ≤ rational e.fraction / e.convergent.2 + c * d := by
    have hnear := abs_mul_sub_le hc e.convergent.1 hd
    have htriangle := abs_sub_abs_le_abs_sub
      (e.convergent.2 * rational value - (e.convergent.1 : ℤ))
      (e.convergent.2 * blend e.before e.last (rational e.rest) - (e.convergent.1 : ℤ))
    push_cast at hnear htriangle
    linarith
  rcases Nat.eq_or_lt_of_le hregular.pos with hone | htwo
  . -- a denominator of one follows on the first step only, and there the drift is smallest
    have hgrows := he.convergent_grows
    have hfirst := he.pos
    have hlast : e.last.2 = 1 := by omega
    have hbefore : e.before.2 = 0 := by omega
    rw [hlast, hbefore] at hdrift
    refine le_trans (hmove (Nat.cast_le.mpr (Nat.le_of_eq hone.symm)) hdrift) ?_
    rw [← hone]
    norm_num
    linarith
  . have htwo : (2 : ℚ) ≤ e.convergent.2 := by exact_mod_cast htwo
    have hhalf : rational e.fraction / e.convergent.2 ≤ rational e.fraction / 2 :=
      div_le_div_of_nonneg_left hnonneg (by norm_num) htwo
    have hlimit := hmove (c := 10000) (Nat.cast_le.mpr hwithin) (le_two_of_bound hdrift)
    linarith

theorem start_close (hvalue : Positive value a) (hle : a ≤ 10 * unit)
    (hclose : (start value).fraction < 1e-9)
    : |(start value).convergent.2 * rational value - (start value).convergent.1| ≤ 1 / 10 ^ 9 := by
  have hrest : rational value = (start value).part + rational (start value).fraction :=
    (start_regular hvalue hle).rest_eq
  have hnonneg := (start_regular hvalue hle).fraction_nonneg
  have hsmall := rational_fraction_lt (e := start value) hvalue hclose
  rw [start_convergent hvalue hle, hrest]
  dsimp only
  rw [Nat.cast_one, one_mul, add_sub_cancel_left, abs_of_nonneg hnonneg]
  exact le_of_lt hsmall

theorem run_best (hvalue : Positive value a) (hle : a ≤ 10 * unit) {steps : Nat}
    {ratio : Nat × Nat} (hrun : run movieAspectLimit steps (start value) = some ratio) (p : ℤ)
    {q : Nat} (hq : 1 ≤ q) (hq' : q ≤ movieAspectLimit)
    : |ratio.2 * rational value - ratio.1| ≤ |q * rational value - p| + 1 / 10 ^ 9 := by
  have hnonneg := abs_nonneg (q * rational value - p)
  rcases run_some .start hrun with ⟨e, he, ⟨hover, rfl⟩ | ⟨hwithin, hclose, rfl⟩⟩
  . rcases reached_drift hvalue hle he with rfl | ⟨hlater, hdrift⟩
    . rw [start_convergent hvalue hle] at hover
      exact absurd hover (Nat.not_lt_of_le (Nat.le_of_ble_eq_true rfl))
    . exact best_at_limit hlater hover (le_two_of_bound hdrift) p hq hq'
  . rcases reached_drift hvalue hle he with rfl | ⟨hlater, hdrift⟩
    . have hstart := start_close hvalue hle hclose
      linarith
    . have hlimit := best_when_close hlater hwithin hclose hdrift
      linarith

end Expansion

theorem abs_sub_le_of_second_kind {v d : ℚ} {h k q : Nat} {p : ℤ} (hq : 1 ≤ q) (hqk : q ≤ k)
    (hd : 0 ≤ d) (hbest : |k * v - h| ≤ |q * v - p| + d)
    : |v - h / k| ≤ |v - p / q| + d := by
  have hq : (1 : ℚ) ≤ q := by exact_mod_cast hq
  have hqk : (q : ℚ) ≤ k := by exact_mod_cast hqk
  have hk : (1 : ℚ) ≤ k := le_trans hq hqk
  have hscaled (n : ℚ) (hn : 1 ≤ n) (m : ℚ) : |n * v - m| = n * |v - m / n| := by
    have hpos : 0 < n := by linarith
    have hfactor : n * v - m = n * (v - m / n) := by
      rw [mul_sub, mul_div_cancel₀ m hpos.ne']
    rw [hfactor, abs_mul, abs_of_pos hpos]
  rw [hscaled k hk, hscaled q hq] at hbest
  have hother := mul_le_mul_of_nonneg_right hqk (abs_nonneg (v - p / q))
  have hmore := le_mul_of_one_le_left hd hk
  refine le_of_mul_le_mul_left ?_ (show (0 : ℚ) < k by linarith)
  linarith

/--
The fraction for an aspect ratio is best of the second kind: no fraction within the limit is closer if
distances count once for every unit of the denominator. So none with a denominator up to its own is
closer to the number itself.
-/
theorem approximate_best {value : Float} (hpos : 0 < value) (hle : value ≤ 10) (p : ℤ) {q : Nat}
    (hq : 1 ≤ q) (hq' : q ≤ movieAspectLimit)
    : let ratio := approximate value movieAspectLimit
      |ratio.2 * rational value - ratio.1| ≤ |q * rational value - p| + 1 / 10 ^ 9
        ∧ (q ≤ ratio.2 →
          |rational value - ratio.1 / ratio.2| ≤ |rational value - p / q| + 1 / 10 ^ 9) := by
  rcases positive_le_ten hpos hle with ⟨a, hvalue, hten⟩
  have hbest := Expansion.run_best hvalue hten (run_approximate hvalue hten) p hq hq'
  exact ⟨hbest, fun hqk => abs_sub_le_of_second_kind hq hqk (by norm_num) hbest⟩

theorem sample_best
    : 0 < (2.718281828459045 : Float) ∧ (2.718281828459045 : Float) ≤ 10
        ∧ approximate 2.718281828459045 movieAspectLimit = (25946, 9545) ∧ 8544 ≤ movieAspectLimit
        ∧ |9545 * rational 2.718281828459045 - 25946|
          ≤ |8544 * rational 2.718281828459045 - 23225| + 1 / 10 ^ 9
        ∧ |rational 2.718281828459045 - 25946 / 9545|
          ≤ |rational 2.718281828459045 - 23225 / 8544| + 1 / 10 ^ 9 := by
  have hpos : 0 < (2.718281828459045 : Float) := by decide +kernel
  have hle : (2.718281828459045 : Float) ≤ 10 := by decide +kernel
  have hratio : approximate 2.718281828459045 movieAspectLimit = (25946, 9545) := by decide +kernel
  have hlimit : 8544 ≤ movieAspectLimit := Nat.le_of_ble_eq_true rfl
  have hbest := approximate_best hpos hle 23225 (by decide) hlimit
  rw [hratio] at hbest
  exact ⟨hpos, hle, hratio, hlimit, hbest.1, hbest.2 (by decide)⟩

theorem rational_of_digits {x : Float} {m k : Nat} (hk : k ≤ 1074)
    (hx : place x = some ((m * 2 ^ (1074 - k) : Nat) : Int))
    : rational x = m / 2 ^ k := by
  have hunit : unit = 2 ^ k * 2 ^ (1074 - k) := by
    rw [← Nat.pow_add, Nat.add_sub_cancel' hk]
    rfl
  rw [rational_of_place hx, hunit]
  push_cast
  rw [mul_div_mul_right _ _ (by positivity)]

theorem rational_slightly_wide : rational 1.00009 = 4504004951336959 / 2 ^ 52 :=
  rational_of_digits (by decide) (by decide +kernel)

/-- The fraction for a number slightly above one is one, though a closer one is within the limit. -/
theorem nearer_fraction_within_limit
    : 0 < (1.00009 : Float) ∧ (1.00009 : Float) ≤ 10 ∧ 10000 ≤ movieAspectLimit
        ∧ approximate 1.00009 movieAspectLimit = (1, 1)
        ∧ ¬ |rational 1.00009 - 1 / 1| ≤ |rational 1.00009 - 10001 / 10000| + 1 / 10 ^ 9 := by
  refine ⟨by decide +kernel, by decide +kernel, Nat.le_refl 10000, by decide +kernel, ?_⟩
  rw [rational_slightly_wide]
  norm_num [abs_le]

end Ratio

end DecodePipeline
