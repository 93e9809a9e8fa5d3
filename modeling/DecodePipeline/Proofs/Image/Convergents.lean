import DecodePipeline.Proofs.Image.Derivation

/-!
This module contains what the expansion of an aspect ratio comes through: neighbouring convergents,
which are in lowest terms, with parts that no bound cuts off. The main result is that every expansion
ends, and that the fraction for an aspect ratio of a user is small enough for every picture size.
-/

namespace DecodePipeline.Ratio

open Floating ImageParams

theorem saturate_eq {n : Nat} (hn : n < UInt64.size) : saturate n = n := by
  unfold saturate bound
  omega

def Neighbours (a b : Nat × Nat) : Prop :=
  a.1 * b.2 = b.1 * a.2 + 1 ∨ b.1 * a.2 = a.1 * b.2 + 1

theorem Neighbours.coprime {a b : Nat × Nat} (hab : Neighbours a b) : Nat.Coprime b.1 b.2 := by
  have hdvd (n : Nat) (hn : n ∣ 1) : n = 1 := Nat.dvd_one.mp hn
  apply hdvd
  have hleft : Nat.gcd b.1 b.2 ∣ b.1 * a.2 := Dvd.dvd.mul_right (Nat.gcd_dvd_left ..) _
  have hright : Nat.gcd b.1 b.2 ∣ a.1 * b.2 := Dvd.dvd.mul_left (Nat.gcd_dvd_right ..) _
  rcases hab with hab | hab
  . rw [hab] at hright
    exact (Nat.dvd_add_right hleft).mp hright
  . rw [hab] at hleft
    exact (Nat.dvd_add_right hright).mp hleft

theorem Neighbours.next {a b : Nat × Nat} (hab : Neighbours a b) (n : Nat)
    : Neighbours b (n * b.1 + a.1, n * b.2 + a.2) := by
  have hleft : b.1 * (n * b.2 + a.2) = n * (b.1 * b.2) + b.1 * a.2 := by ring
  have hright : (n * b.1 + a.1) * b.2 = n * (b.1 * b.2) + a.1 * b.2 := by ring
  unfold Neighbours at hab ⊢
  dsimp only
  omega

theorem saturate_mul_dimension {n : Nat} (hn : n ≤ 11 * movieAspectLimit) (dimension : UInt32)
    : saturate (n * dimension.toNat) = n * dimension.toNat := by
  apply saturate_eq
  calc n * dimension.toNat
    _ ≤ 11 * movieAspectLimit * 2 ^ 32 := Nat.mul_le_mul hn (Nat.le_of_lt dimension.toNat_lt)
    _ < UInt64.size := by decide

namespace Expansion

def part (e : Expansion) : Nat := e.rest.toUInt64.toNat

def unbounded (e : Expansion) : Nat × Nat :=
  (e.part * e.last.1 + e.before.1, e.part * e.last.2 + e.before.2)

inductive Reached (value : Float) (limit : Nat) : Expansion → Prop where
  | start : Reached value limit (start value)
  | next {e : Expansion} (he : Reached value limit e) (hwithin : e.convergent.2 ≤ limit)
      (hcoarse : ¬ e.fraction < 1e-9) : Reached value limit e.next

variable {e : Expansion} {a : Nat} {value : Float} {limit steps : Nat} {ratio : Nat × Nat}

theorem run_more (hrun : run limit steps e = some ratio) {more : Nat} (hmore : steps ≤ more)
    : run limit more e = some ratio := by
  induction steps generalizing e more with
  | zero => cases hrun
  | succ steps ih =>
    cases more with
    | zero => omega
    | succ more =>
      unfold run at hrun ⊢
      split
      . next hover => rwa [if_pos hover] at hrun
      . next hover =>
        rw [if_neg hover] at hrun
        split
        . next hclose => rwa [if_pos hclose] at hrun
        . next hclose =>
          rw [if_neg hclose] at hrun
          exact ih hrun (Nat.le_of_succ_le_succ hmore)

theorem run_some (he : Reached value limit e) (hrun : run limit steps e = some ratio)
    : ∃ e', Reached value limit e'
        ∧ ((limit < e'.convergent.2 ∧ ratio = e'.last)
          ∨ (e'.convergent.2 ≤ limit ∧ e'.fraction < 1e-9 ∧ ratio = e'.convergent)) := by
  induction steps generalizing e with
  | zero => cases hrun
  | succ steps ih =>
    unfold run at hrun
    split at hrun
    . next hover => exact ⟨e, he, .inl ⟨hover, (Option.some.inj hrun).symm⟩⟩
    . next hwithin =>
      split at hrun
      . next hclose =>
        exact ⟨e, he, .inr ⟨Nat.le_of_not_lt hwithin, hclose, (Option.some.inj hrun).symm⟩⟩
      . next hcoarse => exact ih (he.next (Nat.le_of_not_lt hwithin) hcoarse) hrun

theorem part_eq (hrest : Positive e.rest a) (hle : a ≤ 2 ^ 30 * unit) : e.part = a / unit := by
  have hwhole : a / unit ≤ 2 ^ 30 := Nat.div_le_of_le_mul (by rwa [Nat.mul_comm])
  unfold part
  rw [toUInt64_toNat hrest.place hrest.pos hrest.finite]
  omega

theorem part_le (hrest : Positive e.rest a) (hle : a ≤ 2 ^ 30 * unit) : e.part ≤ 2 ^ 30 := by
  rw [part_eq hrest hle]
  exact Nat.div_le_of_le_mul (by rwa [Nat.mul_comm])

theorem convergent_eq (hnumerator : e.unbounded.1 < UInt64.size)
    (hdenominator : e.unbounded.2 < UInt64.size)
    : e.convergent = e.unbounded := by
  unfold unbounded part at *
  unfold convergent
  dsimp only at *
  rw [saturate_eq (Nat.lt_of_le_of_lt (Nat.le_add_right ..) hnumerator), saturate_eq hnumerator,
    saturate_eq (Nat.lt_of_le_of_lt (Nat.le_add_right ..) hdenominator), saturate_eq hdenominator]

structure Later (e : Expansion) : Prop where
  rest : ∃ a, Positive e.rest a ∧ unit ≤ a ∧ a ≤ 2 ^ 30 * unit
  pos : 1 ≤ e.last.2
  within : e.last.2 ≤ movieAspectLimit
  grows : e.before.2 ≤ e.last.2
  small : e.last.1 ≤ 11 * e.last.2
  sum_small : e.last.1 + e.before.1 ≤ 11 * (e.last.2 + e.before.2)
  neighbours : Neighbours e.before e.last

theorem Later.one_le_part (he : Later e) : 1 ≤ e.part := by
  rcases he.rest with ⟨a, hrest, hone, -⟩
  exact Expansion.one_le_part hrest hone

theorem Later.convergent_eq (he : Later e) : e.convergent = e.unbounded := by
  rcases he.rest with ⟨a, hrest, -, hle⟩
  have hpart := part_le hrest hle
  have hsmall := he.small
  have hsum := he.sum_small
  have hgrows := he.grows
  have hwithin : e.last.2 ≤ 10000 := he.within
  have hnumerator := Nat.mul_le_mul hpart (show e.last.1 ≤ 110000 by omega)
  have hdenominator := Nat.mul_le_mul hpart hwithin
  apply Expansion.convergent_eq
  . unfold unbounded
    rw [UInt64.size]
    omega
  . unfold unbounded
    rw [UInt64.size]
    omega

theorem Later.convergent_small (he : Later e) : e.convergent.1 ≤ 11 * e.convergent.2 := by
  have hsmall := Nat.mul_le_mul_left (e.part - 1) he.small
  have hsum := he.sum_small
  have hnumerator : e.part * e.last.1 = (e.part - 1) * e.last.1 + e.last.1 := by
    rw [← Nat.succ_mul, Nat.succ_eq_add_one, Nat.sub_add_cancel he.one_le_part]
  have hdenominator : e.part * e.last.2 = (e.part - 1) * e.last.2 + e.last.2 := by
    rw [← Nat.succ_mul, Nat.succ_eq_add_one, Nat.sub_add_cancel he.one_le_part]
  have hproduct : (e.part - 1) * (11 * e.last.2) = 11 * ((e.part - 1) * e.last.2) := by ring
  rw [he.convergent_eq]
  unfold unbounded
  dsimp only
  omega

theorem Later.convergent_grows (he : Later e) : e.last.2 + e.before.2 ≤ e.convergent.2 := by
  have hpart := Nat.mul_le_mul_right e.last.2 he.one_le_part
  rw [he.convergent_eq]
  unfold unbounded
  omega

theorem Later.next (he : Later e) (hwithin : e.convergent.2 ≤ movieAspectLimit)
    (hcoarse : ¬ e.fraction < 1e-9)
    : Later e.next where
  rest := by
    rcases he.rest with ⟨a, hrest, -⟩
    rcases next_rest hrest hcoarse with ⟨b, hb, hone, hle, -⟩
    exact ⟨b, hb, hone, hle⟩
  pos := Nat.le_trans he.pos (Nat.le_trans (Nat.le_add_right ..) he.convergent_grows)
  within := hwithin
  grows := Nat.le_trans (Nat.le_add_right ..) he.convergent_grows
  small := he.convergent_small
  sum_small := by
    have hnew := he.convergent_small
    have hlast := he.small
    change e.convergent.1 + e.last.1 ≤ 11 * (e.convergent.2 + e.last.2)
    omega
  neighbours := by
    have hneighbours := he.neighbours.next e.part
    change Neighbours e.last e.convergent
    rwa [he.convergent_eq]

section Start

variable (hvalue : Positive value a) (hle : a ≤ 10 * unit)
include hvalue hle

theorem start_part : (start value).part ≤ 10 := by
  have hlarge : a ≤ 2 ^ 30 * unit := Nat.le_trans hle (Nat.mul_le_mul_right unit (by decide))
  rw [part_eq (e := start value) hvalue hlarge]
  exact Nat.div_le_of_le_mul (by omega)

theorem start_convergent : (start value).convergent = ((start value).part, 1) := by
  have hpart := start_part hvalue hle
  have hunbounded : (start value).unbounded = ((start value).part, 1) := by
    simp [unbounded, start]
  rw [convergent_eq, hunbounded]
  . rw [hunbounded, UInt64.size]
    omega
  . rw [hunbounded, UInt64.size]
    omega

theorem later_start (hcoarse : ¬ (start value).fraction < 1e-9) : Later (start value).next := by
  have hpart := start_part hvalue hle
  have hfirst : (start value).next.last = ((start value).part, 1) := start_convergent hvalue hle
  have hbefore : (start value).next.before = (1, 0) := rfl
  constructor
  case rest =>
    rcases next_rest (e := start value) hvalue hcoarse with ⟨b, hb, hone, hle, -⟩
    exact ⟨b, hb, hone, hle⟩
  all_goals rw [hfirst]
  case within => exact Nat.le_of_ble_eq_true rfl
  case neighbours =>
    rw [hbefore]
    exact .inl (by simp)
  all_goals try rw [hbefore]
  all_goals omega

theorem reached_cases (he : Reached value movieAspectLimit e) : e = start value ∨ Later e := by
  induction he with
  | start => exact .inl rfl
  | next _ hwithin hcoarse ih =>
    right
    rcases ih with rfl | hlater
    . exact later_start hvalue hle hcoarse
    . exact hlater.next hwithin hcoarse

end Start

theorem run_lowestTerms (hvalue : Positive value a) (hle : a ≤ 10 * unit)
    (hrun : run movieAspectLimit steps (start value) = some ratio)
    : Nat.Coprime ratio.1 ratio.2 ∧ 1 ≤ ratio.2 ∧ ratio.2 ≤ movieAspectLimit
        ∧ ratio.1 ≤ 11 * ratio.2 := by
  rcases run_some .start hrun with ⟨e, he, ⟨hover, rfl⟩ | ⟨hwithin, -, rfl⟩⟩
  . rcases reached_cases hvalue hle he with rfl | hlater
    . rw [start_convergent hvalue hle] at hover
      exact absurd hover (Nat.not_lt_of_le (Nat.le_of_ble_eq_true rfl))
    . exact ⟨hlater.neighbours.coprime, hlater.pos, hlater.within, hlater.small⟩
  . rcases reached_cases hvalue hle he with rfl | hlater
    . have hpart := start_part hvalue hle
      rw [start_convergent hvalue hle] at hwithin ⊢
      exact ⟨Nat.coprime_one_right _, Nat.le_refl 1, hwithin, by omega⟩
    . have hneighbours := hlater.neighbours.next e.part
      have hgrows := hlater.convergent_grows
      have hpos := hlater.pos
      refine ⟨?_, by omega, hwithin, hlater.convergent_small⟩
      rw [hlater.convergent_eq]
      exact hneighbours.coprime

theorem reached_exact (hvalue : Positive value a) (hle : a ≤ 10 * unit)
    (he : Reached value movieAspectLimit e)
    : (∃ b : Nat, place e.rest = some (b : Int) ∧ e.part = b / unit)
        ∧ e.convergent = (e.part * e.last.1 + e.before.1, e.part * e.last.2 + e.before.2) := by
  rcases reached_cases hvalue hle he with rfl | hlater
  . have hlarge : a ≤ 2 ^ 30 * unit := Nat.le_trans hle (Nat.mul_le_mul_right unit (by decide))
    refine ⟨⟨a, hvalue.place, part_eq (e := start value) hvalue hlarge⟩, ?_⟩
    rw [start_convergent hvalue hle]
    simp [start]
  . rcases hlater.rest with ⟨b, hrest, -, hlarge⟩
    exact ⟨⟨b, hrest.place, part_eq hrest hlarge⟩, hlater.convergent_eq⟩

end Expansion

theorem isFinite_of_place {x : Float} {a : Nat} (hx : Positive x a) : x.isFinite := by
  rcases finite_of_place_pos hx.place hx.pos hx.finite with ⟨m, e, hm, hunpack, -⟩
  unfold Float.isFinite Float.Model.isFinite
  rw [hunpack]
  rfl

theorem positive_of_isFinite {x : Float} (hfinite : x.isFinite) (hpos : ¬ x ≤ 0)
    : ∃ a, Positive x a := by
  unfold Float.isFinite Float.Model.isFinite at hfinite
  have hplace : ∃ n : Int, place x = some n ∧ n < infinite := by
    have hstored := stored_unpack x
    unfold place
    cases hunpack : x.toModel.unpack with
    | notANumber => rw [hunpack] at hfinite; cases hfinite
    | infinity sign => rw [hunpack] at hfinite; cases hfinite
    | zero sign => exact ⟨0, rfl, Int.natCast_pos.mpr infinite_pos⟩
    | finite sign m e hm =>
      rw [hunpack] at hstored
      have hlt := hstored.1.scaled_lt_infinite hstored.2
      refine ⟨_, rfl, ?_⟩
      cases sign <;> simp only [Float.Model.UnpackedFloat.Sign.apply] <;> omega
  rcases hplace with ⟨n, hn, hlt⟩
  have hgt : 0 < n := by
    by_contra hle
    exact hpos (le_iff.mpr ⟨n, 0, hn, place_zero, by omega⟩)
  have hcast : n = (n.toNat : Int) := by omega
  rw [hcast] at hn
  exact ⟨n.toNat, hn, by omega, by omega⟩

theorem positive_le_ten {value : Float} (hpos : 0 < value) (hle : value ≤ 10)
    : ∃ a, Positive value a ∧ a ≤ 10 * unit := by
  have hten : 10 * unit < infinite := mul_unit_lt_infinite (by decide)
  rcases lt_iff.mp hpos with ⟨z, n, hz, hn, hlt⟩
  rcases le_iff.mp hle with ⟨n', t, hn', ht, hle⟩
  have hz : z = 0 := Option.some.inj (hz.symm.trans place_zero)
  have ht : t = (10 * unit : Nat) := Option.some.inj (ht.symm.trans place_maxMovieAspect)
  have hsame : n' = n := Option.some.inj (hn'.symm.trans hn)
  have hcast : n = (n.toNat : Int) := by omega
  rw [hcast] at hn
  exact ⟨n.toNat, ⟨hn, by omega, by omega⟩, by omega⟩

theorem approximate_of_run {value : Float} {limit a : Nat} {ratio : Nat × Nat}
    (hvalue : Positive value a)
    (hrun : (Expansion.start value).run limit (limit + 3) = some ratio)
    : approximate value limit = if ratio.2 = 0 then (0, 1) else ratio := by
  have hguard : (!value.isFinite || decide (value ≤ 0)) = false := by
    have hle : ¬ value ≤ 0 := by
      intro hle
      rcases le_iff.mp hle with ⟨n, z, hn, hz, hle⟩
      have hz : z = 0 := Option.some.inj (hz.symm.trans place_zero)
      have hn : n = (a : Int) := Option.some.inj (hn.symm.trans hvalue.place)
      have hpos := hvalue.pos
      omega
    rw [isFinite_of_place hvalue, decide_eq_false hle]
    rfl
  unfold approximate
  rw [hguard, hrun]
  rcases ratio with ⟨h, k⟩
  cases k <;> rfl

theorem run_approximate {value : Float} {a : Nat} (hvalue : Positive value a) (hle : a ≤ 10 * unit)
    : (Expansion.start value).run movieAspectLimit (movieAspectLimit + 3)
        = some (approximate value movieAspectLimit) := by
  have hlimit : movieAspectLimit < bound := by decide
  rcases Option.ne_none_iff_exists'.mp (Expansion.run_start hvalue hlimit) with ⟨ratio, hrun⟩
  have hlowest := Expansion.run_lowestTerms hvalue hle hrun
  rw [approximate_of_run hvalue hrun, if_neg (Nat.one_le_iff_ne_zero.mp hlowest.2.1), hrun]

/--
The expansion of every number ends, however large the limit. For a number up to ten that a user may
want as an aspect, no integer of the expansion is cut off, and the fraction is in lowest terms and
small enough for every picture size.
-/
theorem approximate_ends_in_lowest_terms (value : Float)
    : (∀ limit < bound,
          ((!value.isFinite || value ≤ 0) ∧ approximate value limit = (0, 1))
            ∨ ∃ ratio, (∀ steps ≥ limit + 3, (Expansion.start value).run limit steps = some ratio)
              ∧ approximate value limit = if ratio.2 = 0 then (0, 1) else ratio)
        ∧ (0 < value → value ≤ 10 →
          (∀ e, Expansion.Reached value movieAspectLimit e →
            (∃ a : Nat, place e.rest = some (a : Int) ∧ e.rest.toUInt64.toNat = a / unit)
              ∧ e.convergent = (e.rest.toUInt64.toNat * e.last.1 + e.before.1,
                e.rest.toUInt64.toNat * e.last.2 + e.before.2))
            ∧ let ratio := approximate value movieAspectLimit
              Nat.Coprime ratio.1 ratio.2 ∧ 1 ≤ ratio.2 ∧ ratio.2 ≤ 10000 ∧ ratio.1 ≤ 11 * ratio.2
                ∧ ∀ width height : UInt32,
                  saturate (ratio.1 * height.toNat) = ratio.1 * height.toNat
                    ∧ saturate (ratio.2 * width.toNat) = ratio.2 * width.toNat) := by
  constructor
  . intro limit hlimit
    cases hguard : (!value.isFinite || decide (value ≤ 0)) with
    | true =>
      refine .inl ⟨rfl, ?_⟩
      unfold approximate
      rw [hguard]
      rfl
    | false =>
      simp only [Bool.or_eq_false_iff, Bool.not_eq_false', decide_eq_false_iff_not] at hguard
      rcases positive_of_isFinite hguard.1 hguard.2 with ⟨a, hvalue⟩
      rcases Option.ne_none_iff_exists'.mp (Expansion.run_start hvalue hlimit) with ⟨ratio, hrun⟩
      exact .inr
        ⟨ratio, fun steps hsteps => Expansion.run_more hrun hsteps, approximate_of_run hvalue hrun⟩
  . intro hpos hle
    rcases positive_le_ten hpos hle with ⟨a, hvalue, hten⟩
    refine ⟨fun e he => Expansion.reached_exact hvalue hten he, ?_⟩
    have hlowest := Expansion.run_lowestTerms hvalue hten (run_approximate hvalue hten)
    have hwithin : (approximate value movieAspectLimit).2 ≤ 10000 := hlowest.2.2.1
    have hlimit : movieAspectLimit = 10000 := rfl
    refine ⟨hlowest.1, hlowest.2.1, hwithin, hlowest.2.2.2, fun width height => ⟨?_, ?_⟩⟩
    . exact saturate_mul_dimension (by omega) height
    . exact saturate_mul_dimension (by omega) width

theorem sample_ends_in_lowest_terms
    : movieAspectLimit < bound ∧ 0 < (2.718281828459045 : Float) ∧ (2.718281828459045 : Float) ≤ 10
        ∧ (∃ ratio, (∀ steps ≥ movieAspectLimit + 3,
            (Expansion.start 2.718281828459045).run movieAspectLimit steps = some ratio)
          ∧ approximate 2.718281828459045 movieAspectLimit = if ratio.2 = 0 then (0, 1) else ratio)
        ∧ approximate 2.718281828459045 movieAspectLimit = (25946, 9545)
        ∧ Nat.Coprime 25946 9545 ∧ 25946 ≤ 11 * 9545 := by
  have hlimit : movieAspectLimit < bound := by decide
  have hpos : 0 < (2.718281828459045 : Float) := by decide +kernel
  have hle : (2.718281828459045 : Float) ≤ 10 := by decide +kernel
  have hratio : approximate 2.718281828459045 movieAspectLimit = (25946, 9545) := by decide +kernel
  have hends := (approximate_ends_in_lowest_terms 2.718281828459045).1 movieAspectLimit hlimit
  have hlowest := (approximate_ends_in_lowest_terms 2.718281828459045).2 hpos hle
  rw [hratio] at hlowest
  refine ⟨hlimit, hpos, hle, ?_, hratio, hlowest.2.1, hlowest.2.2.2.2.1⟩
  rcases hends with ⟨hguard, -⟩ | hends
  . exact absurd hguard (by decide +kernel)
  . exact hends

end DecodePipeline.Ratio
