import DecodePipeline.Proofs.Float.Rounding

/-!
This module contains the number line. Every floating point number has a place on it, the infinities
included, and two numbers compare as their places do. Zero and negative zero share a place, and what is
not a number has none.
-/

namespace DecodePipeline.Floating

open Float.Model Float.Model.UnpackedFloat

def infinite : Nat := scaled (2 ^ 52) 972

def placeOf : UnpackedFloat → Option Int
  | .notANumber => none
  | .infinity sign => some (sign.apply infinite)
  | .zero _ => some 0
  | .finite sign m e _ => some (sign.apply (scaled m e))

theorem Canonical.scaled_lt_scaled {m n : Nat} {e f : Int} (hm : Canonical m e) (hn : Canonical n f)
    (hlt : e < f)
    : scaled m e < scaled n f := by
  have hfull : 2 ^ 52 ≤ n := by
    rcases hn.full with hfull | rfl
    . exact hfull
    . have := hm.le
      omega
  have hle := hm.le
  unfold scaled
  calc m * 2 ^ (e + 1074).toNat
    _ < 2 ^ 52 * 2 ^ (f + 1074).toNat := mul_two_pow_lt hm.lt (by omega)
    _ ≤ n * 2 ^ (f + 1074).toNat := Nat.mul_le_mul_right _ hfull

theorem Canonical.scaled_pos {m : Nat} {e : Int} (hm : Canonical m e) : 0 < scaled m e :=
  Nat.mul_pos hm.pos (Nat.two_pow_pos _)

theorem Canonical.place_pos {m : Nat} {e : Int} (hm : Canonical m e)
    : 0 < Sign.positive.apply (scaled m e) := Int.ofNat_lt.mpr hm.scaled_pos

theorem Canonical.place_neg {m : Nat} {e : Int} (hm : Canonical m e)
    : Sign.negative.apply (scaled m e) < 0 := Int.neg_neg_of_pos hm.place_pos

theorem Canonical.scaled_lt_infinite {m : Nat} {e : Int} (hm : Canonical m e) (he : e ≤ 971)
    : scaled m e < infinite :=
  hm.scaled_lt_scaled ⟨by decide, by decide, .inl (by decide), by decide⟩ (by omega)

theorem Canonical.infinite_le {m : Nat} {e : Int} (hm : Canonical m e) (he : 972 ≤ e)
    : infinite ≤ scaled m e := by
  rcases Int.lt_or_eq_of_le he with hlt | rfl
  . exact Nat.le_of_lt
      (Canonical.scaled_lt_scaled ⟨by decide, by decide, .inl (by decide), by decide⟩ hm hlt)
  . rcases hm.full with hfull | hsmall
    . exact Nat.mul_le_mul_right _ hfull
    . omega

theorem Canonical.compare_scaled {m n : Nat} {e f : Int} (hm : Canonical m e) (hn : Canonical n f)
    : (compare e f).then (compare m n) = compare (scaled m e) (scaled n f) := by
  rcases Int.lt_trichotomy e f with hlt | rfl | hgt
  . rw [compare_lt_iff_lt.mpr hlt, compare_lt_iff_lt.mpr (hm.scaled_lt_scaled hn hlt)]
    rfl
  . have hpos := Nat.two_pow_pos (e + 1074).toNat
    have hscale : compare m n = compare (scaled m e) (scaled n e) := by
      unfold scaled
      rcases Nat.lt_trichotomy m n with hlt | rfl | hgt
      . rw [compare_lt_iff_lt.mpr hlt,
          compare_lt_iff_lt.mpr (Nat.mul_lt_mul_of_pos_right hlt hpos)]
      . rw [compare_eq_iff_eq.mpr rfl, compare_eq_iff_eq.mpr rfl]
      . rw [compare_gt_iff_gt.mpr hgt,
          compare_gt_iff_gt.mpr (Nat.mul_lt_mul_of_pos_right hgt hpos)]
    rw [compare_eq_iff_eq.mpr rfl, hscale]
    rfl
  . rw [compare_gt_iff_gt.mpr hgt, compare_gt_iff_gt.mpr (hn.scaled_lt_scaled hm hgt)]
    rfl

theorem compare_cast (a b : Nat) : compare (a : Int) b = compare a b := by
  rcases Nat.lt_trichotomy a b with hlt | rfl | hgt
  . rw [compare_lt_iff_lt.mpr hlt, compare_lt_iff_lt.mpr (Int.ofNat_lt.mpr hlt)]
  . rw [compare_eq_iff_eq.mpr rfl, compare_eq_iff_eq.mpr rfl]
  . rw [compare_gt_iff_gt.mpr hgt, compare_gt_iff_gt.mpr (Int.ofNat_lt.mpr hgt)]

theorem compare_neg_cast (a b : Nat) : compare (-a : Int) (-b) = (compare a b).swap := by
  rcases Nat.lt_trichotomy a b with hlt | rfl | hgt
  . rw [compare_lt_iff_lt.mpr hlt, compare_gt_iff_gt.mpr (by omega)]
    rfl
  . rw [compare_eq_iff_eq.mpr rfl, compare_eq_iff_eq.mpr rfl]
    rfl
  . rw [compare_gt_iff_gt.mpr hgt, compare_lt_iff_lt.mpr (by omega)]
    rfl

def Stored (u : UnpackedFloat) : Prop := Rounded u ∧ Fits u

theorem infinite_pos : 0 < infinite := Nat.mul_pos (by decide) (Nat.two_pow_pos _)

theorem placeOf_finite {u : UnpackedFloat} (hu : Stored u) (hnumber : u = .notANumber → False)
    (hfinite : ∀ sign, u = .infinity sign → False)
    : ∃ a, placeOf u = some a ∧ -infinite < a ∧ a < infinite := by
  have hpos := infinite_pos
  cases u with
  | notANumber => exact absurd rfl hnumber
  | infinity sign => exact absurd rfl (hfinite sign)
  | zero sign => exact ⟨0, rfl, by omega, by omega⟩
  | finite sign m e hm =>
    have hlt := hu.1.scaled_lt_infinite hu.2
    refine ⟨_, rfl, ?_⟩
    cases sign <;> simp only [Sign.apply] <;> omega

theorem compare_eq {u v : UnpackedFloat} (hu : Stored u) (hv : Stored v)
    : u.compare v
        = (placeOf u).bind fun a => (placeOf v).bind fun b => some (compare a b) := by
  have hpos := infinite_pos
  fun_cases UnpackedFloat.compare u v with
  | case1 v => rfl
  | case2 u _ => cases u <;> rfl
  | case3 s t =>
    cases s <;> cases t <;> apply congrArg some <;> symm
    . exact compare_eq_iff_eq.mpr rfl
    . apply compare_lt_iff_lt.mpr
      simp only [Sign.apply]
      omega
    . apply compare_gt_iff_gt.mpr
      simp only [Sign.apply]
      omega
    . exact compare_eq_iff_eq.mpr rfl
  | case4 v hnumber hfinite =>
    rcases placeOf_finite hv hnumber hfinite with ⟨b, hb, -, hlt⟩
    rw [hb]
    exact congrArg some (compare_gt_iff_gt.mpr hlt).symm
  | case5 v hnumber hfinite =>
    rcases placeOf_finite hv hnumber hfinite with ⟨b, hb, hlt, -⟩
    rw [hb]
    exact congrArg some (compare_lt_iff_lt.mpr hlt).symm
  | case6 u hnumber hfinite =>
    rcases placeOf_finite hu hnumber hfinite with ⟨a, ha, -, hlt⟩
    rw [ha]
    exact congrArg some (compare_lt_iff_lt.mpr hlt).symm
  | case7 u hnumber hfinite =>
    rcases placeOf_finite hu hnumber hfinite with ⟨a, ha, hlt, -⟩
    rw [ha]
    exact congrArg some (compare_gt_iff_gt.mpr hlt).symm
  | case8 m e hm t => exact congrArg some (compare_gt_iff_gt.mpr hu.1.place_pos).symm
  | case9 m e hm t => exact congrArg some (compare_lt_iff_lt.mpr hu.1.place_neg).symm
  | case10 s n f hn => exact congrArg some (compare_lt_iff_lt.mpr hv.1.place_pos).symm
  | case11 s n f hn => exact congrArg some (compare_gt_iff_gt.mpr hv.1.place_neg).symm
  | case12 s t => exact congrArg some (compare_eq_iff_eq.mpr rfl).symm
  | case13 m e hm n f hn =>
    rw [hu.1.compare_scaled hv.1]
    exact congrArg some (compare_neg_cast ..).symm
  | case14 m e hm n f hn =>
    have hlt := Int.lt_trans hu.1.place_neg hv.1.place_pos
    exact congrArg some (compare_lt_iff_lt.mpr hlt).symm
  | case15 m e hm n f hn =>
    have hlt := Int.lt_trans hv.1.place_neg hu.1.place_pos
    exact congrArg some (compare_gt_iff_gt.mpr hlt).symm
  | case16 m e hm n f hn =>
    rw [hu.1.compare_scaled hv.1]
    exact congrArg some (compare_cast ..).symm

def place (x : Float) : Option Int := placeOf x.toModel.unpack

theorem stored_unpack (x : Float) : Stored x.toModel.unpack := rounded_unpack _

theorem unpack_of_place_pos {x : Float} {a : Int} (ha : place x = some a) (hpos : 0 < a)
    : (x.toModel.unpack = .infinity .positive ∧ a = infinite)
        ∨ ∃ m e hm, x.toModel.unpack = .finite .positive m e hm ∧ Canonical m e ∧ e ≤ 971
          ∧ a = scaled m e := by
  have hstored := stored_unpack x
  unfold place at ha
  generalize x.toModel.unpack = u at *
  cases u with
  | notANumber => cases ha
  | zero sign =>
    have ha : 0 = a := Option.some.inj ha
    omega
  | infinity sign =>
    have ha : sign.apply infinite = a := Option.some.inj ha
    cases sign with
    | negative =>
      simp only [Sign.apply] at ha
      omega
    | positive => exact .inl ⟨rfl, ha.symm⟩
  | finite sign m e hm =>
    have ha : sign.apply (scaled m e) = a := Option.some.inj ha
    cases sign with
    | negative =>
      simp only [Sign.apply] at ha
      omega
    | positive => exact .inr ⟨m, e, hm, rfl, hstored.1, hstored.2, ha.symm⟩

theorem finite_of_place_pos {x : Float} {a : Nat} (ha : place x = some (a : Int)) (hpos : 0 < a)
    (hfinite : a < infinite)
    : ∃ m e hm, x.toModel.unpack = .finite .positive m e hm ∧ Canonical m e ∧ e ≤ 971
        ∧ a = scaled m e := by
  rcases unpack_of_place_pos ha (by omega)
    with ⟨-, hinfinite⟩ | ⟨m, e, hm, hunpack, hm', he, hplace⟩
  . omega
  . exact ⟨m, e, hm, hunpack, hm', he, by omega⟩

theorem compare_toModel (x y : Float)
    : x.toModel.unpack.compare y.toModel.unpack
        = (place x).bind fun a => (place y).bind fun b => some (compare a b) :=
  compare_eq (stored_unpack x) (stored_unpack y)

theorem lt_iff {x y : Float} : x < y ↔ ∃ a b, place x = some a ∧ place y = some b ∧ a < b := by
  have hlt : x < y ↔ x.toModel.unpack.compare y.toModel.unpack = some .lt :=
    decide_eq_true_iff.trans beq_iff_eq
  rw [hlt, compare_toModel]
  cases place x <;> cases place y <;> simp [compare_lt_iff_lt]

theorem le_iff {x y : Float} : x ≤ y ↔ ∃ a b, place x = some a ∧ place y = some b ∧ a ≤ b := by
  have hle : x ≤ y ↔ (x.toModel.unpack.compare y.toModel.unpack).any (·.isLE) :=
    decide_eq_true_iff
  rw [hle, compare_toModel]
  cases place x <;> cases place y <;> simp [Int.isLE_compare]

theorem beq_iff {x y : Float} : x == y ↔ ∃ a, place x = some a ∧ place y = some a := by
  have heq : x == y ↔ x.toModel.unpack.compare y.toModel.unpack = some .eq := by
    change (x.toModel.unpack.compare y.toModel.unpack == some .eq) = true ↔ _
    exact beq_iff_eq
  rw [heq, compare_toModel]
  cases place x <;> cases place y <;> simp
  exact eq_comm

end DecodePipeline.Floating
