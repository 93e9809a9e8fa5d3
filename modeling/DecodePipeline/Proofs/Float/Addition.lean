import DecodePipeline.Proofs.Float.Order

/-!
This module contains what sums and quotients do to the order of numbers. Rounding and overflow never
take a sum across a number, so a negative summand leads to a smaller number or leaves the number.
-/

namespace DecodePipeline.Floating

open Float.Model Float.Model.UnpackedFloat

def Representable (w : Int) : Prop := ∃ m k, m < 2 ^ 53 ∧ w.natAbs = m * 2 ^ k

theorem natAbs_apply (sign : Sign) (n : Nat) : (sign.apply n).natAbs = n := by
  cases sign <;> simp only [Sign.apply] <;> omega

theorem Canonical.representable {m : Nat} {e : Int} (hm : Canonical m e) (sign : Sign)
    : Representable (sign.apply (scaled m e)) := ⟨m, _, hm.lt, natAbs_apply ..⟩

theorem round_between (sign : Sign) {m : Nat} {e : Int} (hm : 0 < m) (he : -1074 ≤ e)
    : ∃ r, placeOf (round Format.binary64 sign m e) = some r ∧ Rounded (round Format.binary64 sign m e)
        ∧ ∀ w, Representable w →
          (sign.apply (scaled m e) ≤ w → r ≤ w) ∧ (w ≤ sign.apply (scaled m e) → w ≤ r) := by
  rcases round_spec sign hm he with ⟨m', e', hm', hround, hcanonical, hrounds⟩
  have hsides := hrounds.roundsTo Nat.one_pos
  rw [hround]
  refine ⟨_, rfl, hcanonical, ?_⟩
  rintro w ⟨n, k, hn, hw⟩
  have hle : scaled m e ≤ w.natAbs → scaled m' e' ≤ w.natAbs := by
    rw [hw]
    intro hexact
    exact hsides.le_of_le Nat.one_pos hn (by rwa [Nat.mul_one])
  have hge : w.natAbs ≤ scaled m e → w.natAbs ≤ scaled m' e' := by
    rw [hw]
    intro hexact
    exact hsides.le_of_ge Nat.one_pos hn (by rwa [Nat.mul_one])
  cases sign <;> simp only [Sign.apply] <;> omega

theorem apply_scaled (sign : Sign) {n : Int} {m : Nat} (e : Int) (hn : n = sign.apply m)
    : sign.apply (scaled m e) = n * 2 ^ (e + 1074).toNat := by
  subst hn
  cases sign <;> simp [Sign.apply, scaled]

theorem normalize_between (n : Int) {e : Int} (he : -1074 ≤ e)
    : ∃ r, placeOf (normalize Format.binary64 n e .positive) = some r
        ∧ Rounded (normalize Format.binary64 n e .positive)
        ∧ ∀ w, Representable w →
          (n * 2 ^ (e + 1074).toNat ≤ w → r ≤ w) ∧ (w ≤ n * 2 ^ (e + 1074).toNat → w ≤ r) := by
  unfold UnpackedFloat.normalize
  rcases Int.lt_trichotomy n 0 with hlt | rfl | hgt
  . have hn : n = Sign.negative.apply (-n).toNat := by
      simp only [Sign.apply]
      omega
    rw [compare_lt_iff_lt.mpr hlt, ← apply_scaled .negative e hn]
    exact round_between .negative (by omega) he
  . refine ⟨0, rfl, trivial, ?_⟩
    intro w _
    rw [Int.zero_mul]
    exact ⟨id, id⟩
  . have hn : n = Sign.positive.apply n.toNat := by
      simp only [Sign.apply]
      omega
    rw [compare_gt_iff_gt.mpr hgt, ← apply_scaled .positive e hn]
    exact round_between .positive (by omega) he

theorem apply_decreaseExponent (sign : Sign) (m : Nat) {e f : Int} (hf : -1074 ≤ f) (hle : f ≤ e)
    : sign.apply (decreaseExponent m e f).1 * 2 ^ (f + 1074).toNat = sign.apply (scaled m e) := by
  have hexponent : (e + 1074).toNat = (e - f).toNat + (f + 1074).toNat := by omega
  have hscaled : scaled m e = (decreaseExponent m e f).1 * 2 ^ (f + 1074).toNat := by
    rw [scaled, hexponent, Nat.pow_add, decreaseExponent, Nat.shiftLeft_eq, Nat.mul_assoc]
  rw [hscaled]
  cases sign <;> simp [Sign.apply]

theorem add_finite (s t : Sign) {m n : Nat} {e f : Int} (hm : Canonical m e) (hn : Canonical n f)
    : ∃ r, placeOf (add Format.binary64 (.finite s m e hm.pos) (.finite t n f hn.pos)) = some r
        ∧ Rounded (add Format.binary64 (.finite s m e hm.pos) (.finite t n f hn.pos))
        ∧ ∀ w, Representable w →
          (s.apply (scaled m e) + t.apply (scaled n f) ≤ w → r ≤ w)
            ∧ (w ≤ s.apply (scaled m e) + t.apply (scaled n f) → w ≤ r) := by
  have hmin : -1074 ≤ min e f := Int.le_min.mpr ⟨hm.le, hn.le⟩
  have hsum : s.apply (scaled m e) + t.apply (scaled n f)
      = (s.apply (decreaseExponent m e (min e f)).1 + t.apply (decreaseExponent n f (min e f)).1)
          * 2 ^ (min e f + 1074).toNat := by
    rw [Int.add_mul, apply_decreaseExponent s m hmin (Int.min_le_left e f),
      apply_decreaseExponent t n hmin (Int.min_le_right e f)]
  rw [hsum]
  exact normalize_between _ hmin

theorem add_side {u v : UnpackedFloat} (hu : Stored u) (hv : Stored v) {b : Int}
    (hb : placeOf v = some b)
    : Rounded (add Format.binary64 u v)
        ∧ ∀ c, placeOf (add Format.binary64 u v) = some c →
          ∃ a, placeOf u = some a ∧ (b ≤ 0 → c ≤ a) ∧ (0 ≤ b → a ≤ c) := by
  have hpos := infinite_pos
  have hsame {w : UnpackedFloat} (c : Int) (hc : placeOf w = some c)
      : ∃ a, placeOf w = some a ∧ (b ≤ 0 → c ≤ a) ∧ (0 ≤ b → a ≤ c) :=
    ⟨c, hc, fun _ => Int.le_refl c, fun _ => Int.le_refl c⟩
  fun_cases add Format.binary64 u v with
  | case1 v => exact ⟨trivial, fun c hc => by cases hc⟩
  | case2 u _ => exact ⟨trivial, fun c hc => by cases hc⟩
  | case3 s t _ => exact ⟨trivial, hsame⟩
  | case4 s t hother => exact ⟨trivial, fun c hc => by cases hc⟩
  | case5 s v _ _ => exact ⟨trivial, hsame⟩
  | case6 u t hnumber hfinite =>
    rcases placeOf_finite hu hnumber hfinite with ⟨a, ha, hlow, hhigh⟩
    refine ⟨trivial, fun c hc => ⟨a, ha, ?_⟩⟩
    have hcb : c = b := Option.some.inj (hc.symm.trans hb)
    cases t with
    | negative =>
      have hc : -infinite = c := Option.some.inj hc
      omega
    | positive =>
      have hc : infinite = c := Option.some.inj hc
      omega
  | case7 s t _ => exact ⟨trivial, hsame⟩
  | case8 s t _ => exact ⟨trivial, hsame⟩
  | case9 v s _ _ _ =>
    refine ⟨hv.1, fun c hc => ⟨0, rfl, ?_⟩⟩
    have hcb : c = b := Option.some.inj (hc.symm.trans hb)
    omega
  | case10 u t _ _ _ => exact ⟨hu.1, hsame⟩
  | case11 s m e hm t n f hn emin m' em hm' n' fn hn' mantissa =>
    have hadd : add Format.binary64 (.finite s m e hm) (.finite t n f hn)
        = normalize Format.binary64 mantissa emin .positive := by
      simp only [UnpackedFloat.add, mantissa, emin]
      rw [hm', hn']
    rcases add_finite s t hu.1 hv.1 with ⟨r, hr, hrounded, hbetween⟩
    rw [hadd] at hr hrounded
    refine ⟨hrounded, fun c hc => ⟨_, rfl, ?_⟩⟩
    have hcr : c = r := Option.some.inj (hc.symm.trans hr)
    have hb : t.apply (scaled n f) = b := Option.some.inj hb
    have hu := hbetween _ (hu.1.representable s)
    rw [hcr]
    exact ⟨fun hneg => hu.1 (by omega), fun hpos => hu.2 (by omega)⟩

theorem placeOf_pack {u : UnpackedFloat} (hu : Rounded u)
    : placeOf (unpack Format.binary64 (pack Format.binary64 u))
        = (placeOf u).map fun a => max (-(infinite : Int)) (min infinite a) := by
  have hpos := infinite_pos
  by_cases hfits : Fits u
  . rw [unpack_pack hu hfits]
    cases u with
    | notANumber => rfl
    | infinity s =>
      apply congrArg some
      cases s <;> simp only [Sign.apply] <;> omega
    | zero s =>
      apply congrArg some
      dsimp only
      omega
    | finite s m e hm =>
      have hlt := hu.scaled_lt_infinite hfits
      apply congrArg some
      cases s <;> simp only [Sign.apply] <;> omega
  . cases u with
    | finite s m e hm =>
      have hlarge : 972 ≤ e := by
        simp only [Fits] at hfits
        omega
      have hle := hu.infinite_le hlarge
      rw [pack_large s hm hlarge, unpack_pack (x := .infinity s) trivial trivial]
      apply congrArg some
      cases s <;> simp only [Sign.apply] <;> omega
    | _ => exact absurd trivial hfits

theorem place_of_positive {x : Float} {m : Nat} {e : Int} (hm : Canonical m e)
    (hx : x.toModel.unpack
      = unpack Format.binary64 (pack Format.binary64 (.finite .positive m e hm.pos)))
    : place x = some (min infinite (scaled m e) : Int) := by
  have hpack : place x = _ := (congrArg placeOf hx).trans (placeOf_pack hm)
  rw [hpack]
  apply congrArg some
  change max (-(infinite : Int)) (min infinite (scaled m e : Int)) = _
  omega

theorem placeOf_bounds {u : UnpackedFloat} (hu : Stored u) {a : Int} (ha : placeOf u = some a)
    : -infinite ≤ a ∧ a ≤ infinite := by
  have hpos := infinite_pos
  cases u with
  | notANumber => cases ha
  | infinity s =>
    have ha : s.apply infinite = a := Option.some.inj ha
    cases s <;> simp only [Sign.apply] at ha <;> omega
  | zero s =>
    have ha : 0 = a := Option.some.inj ha
    omega
  | finite s m e hm =>
    have hlt := hu.1.scaled_lt_infinite hu.2
    have ha : s.apply (scaled m e) = a := Option.some.inj ha
    cases s <;> simp only [Sign.apply] at ha <;> omega

theorem place_zero : place 0 = some 0 := by decide +kernel

theorem add_place_side {x y : Float} {b c : Int} (hb : place y = some b) (hc : place (x + y) = some c)
    : ∃ a, place x = some a ∧ (b ≤ 0 → c ≤ a) ∧ (0 ≤ b → a ≤ c) := by
  rcases add_side (stored_unpack x) (stored_unpack y) hb with ⟨hrounded, hside⟩
  have hpack : place (x + y) = _ := placeOf_pack hrounded
  rw [hpack, Option.map_eq_some_iff] at hc
  rcases hc with ⟨exact, hexact, rfl⟩
  rcases hside exact hexact with ⟨a, ha, hle, hge⟩
  have hbounds := placeOf_bounds (stored_unpack x) ha
  refine ⟨a, ha, ?_, ?_⟩
  . intro hneg
    have := hle hneg
    omega
  . intro hpos
    have := hge hpos
    omega

theorem lt_of_lt_add {t x y : Float} (hy : y < 0) (ht : t < x + y) : t < x := by
  rw [lt_iff] at hy ht ⊢
  rcases ht with ⟨a, c, ha, hc, hlt⟩
  rcases hy with ⟨b, z, hb, hz, hneg⟩
  have hz : z = 0 := Option.some.inj (hz.symm.trans place_zero)
  rcases add_place_side hb hc with ⟨d, hd, hle, -⟩
  have hle := hle (by omega)
  exact ⟨a, d, ha, hd, by omega⟩

theorem not_add_lt {x y : Float} (hy : ∀ b, place y = some b → 0 ≤ b) (hnumber : place y ≠ none)
    : ¬ x + y < x := by
  rw [lt_iff]
  rintro ⟨c, a, hc, ha, hlt⟩
  rcases Option.ne_none_iff_exists'.mp hnumber with ⟨b, hb⟩
  rcases add_place_side hb hc with ⟨a', ha', -, hge⟩
  have hsame : a' = a := Option.some.inj (ha'.symm.trans ha)
  have hge := hge (hy b hb)
  omega

theorem ext {x y : Float} (hunpack : x.toModel.unpack = y.toModel.unpack) : x = y := by
  rcases x with ⟨⟨a, ha⟩⟩
  rcases y with ⟨⟨b, hb⟩⟩
  have hpack := congrArg (UnpackedFloat.pack Format.binary64) hunpack
  unfold Float.Model.unpack at hpack
  rw [pack_unpack_of_valid ha, pack_unpack_of_valid hb] at hpack
  have hbits : a = b := UInt64.toBitVec_inj.mp hpack
  subst hbits
  rfl

theorem toModel_unpack_add (x y : Float)
    : (x + y).toModel.unpack
        = unpack Format.binary64 (pack Format.binary64
            (UnpackedFloat.add Format.binary64 x.toModel.unpack y.toModel.unpack)) := rfl

theorem toModel_unpack_div (x y : Float)
    : (x / y).toModel.unpack
        = unpack Format.binary64 (pack Format.binary64
            (UnpackedFloat.div Format.binary64 x.toModel.unpack y.toModel.unpack)) := rfl

theorem add_negative_zero (x : Float) {y : Float} (hy : y.toModel.unpack = .zero .negative)
    : x + y = x := by
  apply ext
  have hx := stored_unpack x
  have hadd : UnpackedFloat.add Format.binary64 x.toModel.unpack (.zero .negative)
      = x.toModel.unpack := by
    cases x.toModel.unpack with
    | zero s => cases s <;> rfl
    | _ => rfl
  rw [toModel_unpack_add, hy, hadd, unpack_pack hx.1 hx.2]

theorem negative_zero_div {x y : Float} (hx : x.toModel.unpack = .zero .negative) (hy : 0 < y)
    : (x / y).toModel.unpack = .zero .negative := by
  have hdiv : UnpackedFloat.div Format.binary64 (.zero .negative) y.toModel.unpack
      = .zero .negative := by
    rcases lt_iff.mp hy with ⟨z, b, hz, hb, hlt⟩
    have hzero : z = 0 := Option.some.inj (hz.symm.trans place_zero)
    rcases unpack_of_place_pos hb (by omega) with ⟨hy, -⟩ | ⟨m, e, hm, hy, -⟩
    . rw [hy]
      rfl
    . rw [hy]
      rfl
  rw [toModel_unpack_div, hx, hdiv]
  exact unpack_pack (x := .zero .negative) trivial trivial

end DecodePipeline.Floating
