import DecodePipeline.Proofs.Float.Addition

/-!
This module contains quotients: a quotient is the number nearest to the exact one.
-/

namespace DecodePipeline.Floating

open Float.Model Float.Model.UnpackedFloat

theorem divCore_full {m n : Nat} {e f : Int} (hfull : 2 ^ 52 ≤ m) (hlt : m < 2 ^ 53)
    (hle : -1074 ≤ e - f)
    : divCore Format.binary64 m e n f
        = let shift := min (n.log2 + 1) (e - f + 1074).toNat
          (m * 2 ^ shift / n, e - f - shift, accuracyOfFraction (m * 2 ^ shift % n) n) := by
  have hlog : m.log2 = 52 := (Nat.log2_eq_iff (by omega)).mpr ⟨hfull, hlt⟩
  -- The dividend is shifted far enough to give all digits that there are.
  unfold divCore totalExponent
  rw [targetExponent_eq, hlog]
  dsimp only
  generalize hshift : min (n.log2 + 1) (e - f + 1074).toNat = shift
  have htarget : min (e - f) (max (((52 : Nat) : Int) + 1 + e - (n.log2 + 1 + f) - 53) (-1074))
      = e - f - shift := by omega
  have hback : (e - f - (e - f - (shift : Int))).toNat = shift := by omega
  rw [htarget, hback, Nat.shiftLeft_eq]

theorem quotient_bounds {m n : Nat} (shift : Nat) (hfull : 2 ^ 52 ≤ m) (hn : 0 < n) (hlt : n < 2 ^ 53)
    (hshift : 1 ≤ shift)
    : 0 < m * 2 ^ shift / n ∧ (shift = n.log2 + 1 → 2 ^ 52 ≤ m * 2 ^ shift / n) := by
  constructor
  . apply Nat.div_pos _ hn
    calc n
      _ ≤ 2 ^ 52 * 2 ^ 1 := Nat.le_of_lt hlt
      _ ≤ m * 2 ^ shift := Nat.mul_le_mul hfull (Nat.pow_le_pow_right Nat.two_pos hshift)
  . rintro rfl
    rw [Nat.le_div_iff_mul_le hn]
    exact Nat.mul_le_mul hfull (Nat.le_of_lt Nat.lt_log2_self)

theorem div_spec (s t : Sign) {m n : Nat} {e f : Int} (hm : Canonical m e) (hn : Canonical n f)
    (hfull : 2 ^ 52 ≤ m) (hef : -1073 ≤ e - f)
    : ∃ m' e' hm',
        div Format.binary64 (.finite s m e hm.pos) (.finite t n f hn.pos) = .finite (s / t) m' e' hm'
        ∧ Canonical m' e' ∧ RoundsNearest (scaled m e * 2 ^ 1074) (scaled n f) (scaled m' e') := by
  have hle := hn.le
  have hle' := hm.le
  have hdiv : div Format.binary64 (.finite s m e hm.pos) (.finite t n f hn.pos)
      = let (m', e', accuracy) := divCore Format.binary64 m e n f
        roundWithAccuracy Format.binary64 (s / t) m' e' accuracy := rfl
  rw [hdiv, divCore_full hfull hm.lt (by omega)]
  dsimp only
  generalize hshift : min (n.log2 + 1) (e - f + 1074).toNat = shift
  have hquotient := quotient_bounds shift hfull hn.pos hn.lt (by omega)
  have hdigits (hfull : 2 ^ 52 ≤ m * 2 ^ shift / n) : 52 ≤ (m * 2 ^ shift / n).log2 :=
    (Nat.le_log2 (Nat.ne_of_gt hquotient.1)).mpr hfull
  have htarget : e - f - shift ≤ max ((m * 2 ^ shift / n).log2 + (e - f - shift) - 52) (-1074) := by
    rcases Nat.eq_or_lt_of_le (show shift ≤ n.log2 + 1 by omega) with hfull | hclipped
    . have := hdigits (hquotient.2 hfull)
      omega
    . omega
  rcases roundWithAccuracy_spec (s / t) hquotient.1 (Nat.mod_lt (m * 2 ^ shift) hn.pos)
    (by omega) htarget with ⟨m', e', hm', hround, hcanonical, hrounds⟩
  refine ⟨m', e', hm', hround, hcanonical, ?_⟩
  have hnum : scaled (m * 2 ^ shift / n * n + m * 2 ^ shift % n) (e - f - shift)
      = m * 2 ^ (e - f + 1074).toNat := by
    have hexponent : shift + (e - f - shift + 1074).toNat = (e - f + 1074).toNat := by omega
    rw [Nat.div_add_mod', scaled, Nat.mul_assoc, ← Nat.pow_add, hexponent]
  have hwhole : m * 2 ^ (e - f + 1074).toNat * 2 ^ (f + 1074).toNat = scaled m e * 2 ^ 1074 := by
    have hexponent : (e - f + 1074).toNat + (f + 1074).toNat = (e + 1074).toNat + 1074 := by omega
    rw [scaled, Nat.mul_assoc, Nat.mul_assoc, ← Nat.pow_add, ← Nat.pow_add, hexponent]
  rw [hnum] at hrounds
  rw [← hwhole]
  exact hrounds.of_mul (Nat.two_pow_pos _)

theorem one_div_spec (sign : Sign) {n : Nat} {f : Int} (hn : Canonical n f) (hfits : f ≤ 971)
    : ∃ m e hm,
        div Format.binary64 (.finite .positive (2 ^ 52) (-52) (Nat.two_pow_pos 52))
            (.finite sign n f hn.pos)
          = .finite (.positive / sign) m e hm
        ∧ Canonical m e ∧ RoundsNearest (2 ^ 2148) (scaled n f) (scaled m e) := by
  have hone : Canonical (2 ^ 52) (-52) := ⟨by decide, by decide, .inl (Nat.le_refl _), by decide⟩
  have hnum : scaled (2 ^ 52) (-52) * 2 ^ 1074 = 2 ^ 2148 := by decide +kernel
  rw [← hnum]
  exact div_spec .positive sign hone hn (Nat.le_refl _) (by omega)

theorem one_div_place {x y : Float} {b : Nat}
    (hx : x.toModel.unpack = .finite .positive (2 ^ 52) (-52) (Nat.two_pow_pos 52))
    (hb : place y = some (b : Int)) (hpos : 0 < b) (hfinite : b < infinite)
    : ∃ r : Nat, place (x / y) = some (min infinite r : Int) ∧ RoundsNearest (2 ^ 2148) b r := by
  rcases finite_of_place_pos hb hpos hfinite with ⟨n, f, hn, hunpack, hcanonical, hfits, rfl⟩
  rcases one_div_spec .positive hcanonical hfits with ⟨m, e, hm, hdiv, hquotient, hrounds⟩
  refine ⟨scaled m e, place_of_positive hquotient ?_, hrounds⟩
  rw [toModel_unpack_div, hx, hunpack, hdiv]
  rfl

theorem one_div_nonneg {x y : Float}
    (hx : x.toModel.unpack = .finite .positive (2 ^ 52) (-52) (Nat.two_pow_pos 52)) (hy : 0 < y)
    : ∃ r, place (x / y) = some r ∧ 0 ≤ r := by
  rcases lt_iff.mp hy with ⟨z, b, hz, hb, hlt⟩
  have hz : z = 0 := Option.some.inj (hz.symm.trans place_zero)
  rcases unpack_of_place_pos hb (by omega)
    with ⟨hunpack, -⟩ | ⟨n, f, hn, -, hcanonical, hfits, rfl⟩
  . have hdiv : (x / y).toModel.unpack = .zero .positive := by
      rw [toModel_unpack_div, hx, hunpack]
      exact unpack_pack (x := .zero .positive) trivial trivial
    exact ⟨0, congrArg placeOf hdiv, Int.le_refl 0⟩
  . rcases one_div_place hx hb hcanonical.scaled_pos (hcanonical.scaled_lt_infinite hfits)
      with ⟨r, hr, -⟩
    exact ⟨_, hr, by omega⟩

end DecodePipeline.Floating
