import DecodePipeline.Image.Ratio
import DecodePipeline.Proofs.Float.Truncation

/-!
This module contains the end of the expansion of a number into a fraction. After the first step every
part is at least one, so the denominators grow until they exceed the limit.
-/

namespace DecodePipeline.Ratio

open Floating

theorem place_wholeBound : place 9007199254740992.0 = some ((2 ^ 53 * unit : Nat) : Int) := by
  decide +kernel

def billionth : Nat := 4835703278458517 * 2 ^ 992

theorem place_billionth : place 1e-9 = some (billionth : Int) := by decide +kernel

theorem unpack_one
    : (1.0 : Float).toModel.unpack
        = .finite .positive (2 ^ 52) (-52) (Nat.two_pow_pos 52) := by rfl

structure Positive (x : Float) (a : Nat) : Prop where
  place : place x = some (a : Int)
  pos : 0 < a
  finite : a < infinite

namespace Expansion

variable {e : Expansion} {a : Nat}

theorem fraction_place (hrest : Positive e.rest a)
    : place e.fraction = some ((a % unit : Nat) : Int) := by
  have hlarge := unit_lt_infinite
  have hlt := Nat.mod_lt a unit_pos
  have hwhole := Nat.div_add_mod' a unit
  have hrepresentable := representable_mod_unit hrest.place hrest.pos hrest.finite
  have hexact (hb : place (floor e.rest) = some ((a / unit * unit : Nat) : Int))
      : place e.fraction = some ((a % unit : Nat) : Int) := by
    rcases sub_between hrest.place hb (Nat.div_mul_le_self ..) hrest.finite with ⟨r, hr, hbetween⟩
    have hrest := hbetween (a % unit) hrepresentable
    refine hr.trans (congrArg some ?_)
    omega
  apply hexact
  by_cases hsmall : e.rest < 9007199254740992.0
  . have hfloor : floor e.rest = e.rest.toUInt64.toFloat := if_pos hsmall
    have hlt : a < 2 ^ 53 * unit := by
      rcases lt_iff.mp hsmall with ⟨x, y, hx, hy, hlt⟩
      have hx : x = a := Option.some.inj (hx.symm.trans hrest.place)
      have hy : y = (2 ^ 53 * unit : Nat) := Option.some.inj (hy.symm.trans place_wholeBound)
      omega
    have hwhole : a / unit < 2 ^ 53 := (Nat.div_lt_iff_lt_mul unit_pos).mpr hlt
    have hpart : e.rest.toUInt64.toNat = a / unit := by
      rw [toUInt64_toNat hrest.place hrest.pos hrest.finite]
      omega
    rw [hfloor, place_toFloat (representable_of_lt (by rwa [hpart])), hpart]
  . have hfloor : floor e.rest = e.rest := if_neg hsmall
    have hge : 2 ^ 53 * unit ≤ a := by
      by_contra hlt
      exact hsmall (lt_iff.mpr ⟨a, _, hrest.place, place_wholeBound, by omega⟩)
    rw [hfloor, hrest.place, div_mul_unit_of_large hrest.place hrest.pos hrest.finite hge]

theorem billionth_le (hrest : Positive e.rest a) (hcoarse : ¬ e.fraction < 1e-9)
    : billionth ≤ a % unit := by
  by_contra hlt
  exact hcoarse (lt_iff.mpr ⟨_, billionth, fraction_place hrest, place_billionth, by omega⟩)

theorem next_rest (hrest : Positive e.rest a) (hcoarse : ¬ e.fraction < 1e-9)
    : ∃ b, Positive e.next.rest b ∧ unit ≤ b ∧ b ≤ 2 ^ 30 * unit
        ∧ RoundsNearest (2 ^ 2148) (a % unit) b := by
  have hge := billionth_le hrest hcoarse
  have hle := Nat.le_of_lt (Nat.mod_lt a unit_pos)
  have hpos : 0 < a % unit := Nat.lt_of_lt_of_le (by decide +kernel) hge
  have hfinite : a % unit < infinite := Nat.lt_of_le_of_lt hle unit_lt_infinite
  rcases one_div_place unpack_one (fraction_place hrest) hpos hfinite with ⟨b, hb, hrounds⟩
  have hsides := hrounds.roundsTo hpos
  have hlow : unit ≤ b := by
    have hone : 1 * 2 ^ 1074 * (a % unit) ≤ 2 ^ 2148 := by
      calc 1 * 2 ^ 1074 * (a % unit)
        _ ≤ 1 * 2 ^ 1074 * unit := Nat.mul_le_mul_left _ hle
        _ = 2 ^ 2148 := by decide +kernel
    exact Nat.le_trans (by decide +kernel) (hsides.le_of_ge hpos (by decide) hone)
  have hhigh : b ≤ 2 ^ 30 * unit := by
    have hbillion : 2 ^ 2148 ≤ 1 * 2 ^ 1104 * (a % unit) := by
      calc 2 ^ 2148
        _ ≤ 1 * 2 ^ 1104 * billionth := by decide +kernel
        _ ≤ 1 * 2 ^ 1104 * (a % unit) := Nat.mul_le_mul_left _ hge
    exact Nat.le_trans (hsides.le_of_le hpos (by decide) hbillion) (by decide +kernel)
  have hnumber : b < infinite := Nat.lt_of_le_of_lt hhigh (mul_unit_lt_infinite (by decide))
  refine ⟨b, ⟨hb.trans (congrArg some ?_), Nat.lt_of_lt_of_le unit_pos hlow, hnumber⟩, hlow, hhigh,
    hrounds⟩
  omega

theorem le_convergent {limit : Nat} (hlimit : limit < bound) (hwithin : e.convergent.2 ≤ limit)
    : e.convergent.2 = e.rest.toUInt64.toNat * e.last.2 + e.before.2 := by
  unfold convergent saturate at hwithin ⊢
  dsimp only at hwithin ⊢
  omega

theorem one_le_part (hrest : Positive e.rest a) (hone : unit ≤ a) : 1 ≤ e.rest.toUInt64.toNat := by
  have hwhole : 1 ≤ a / unit := (Nat.le_div_iff_mul_le unit_pos).mpr (by rwa [Nat.one_mul])
  rw [toUInt64_toNat hrest.place hrest.pos hrest.finite]
  omega

theorem run_cases {limit steps : Nat} (hrest : Positive e.rest a)
    (hnext : ∀ b, Positive e.next.rest b → unit ≤ b → e.convergent.2 ≤ limit
      → run limit steps e.next ≠ none)
    : run limit (steps + 1) e ≠ none := by
  unfold run
  split
  . simp
  . next hwithin =>
    split
    . simp
    . next hcoarse =>
      rcases next_rest hrest hcoarse with ⟨b, hb, hone, -⟩
      exact hnext b hb hone (Nat.le_of_not_lt hwithin)

theorem run_growing {limit steps : Nat} (hlimit : limit < bound) (hrest : Positive e.rest a)
    (hone : unit ≤ a) (hbefore : 1 ≤ e.before.2) (hlast : 1 ≤ e.last.2)
    (hsteps : limit < e.last.2 + steps)
    : run limit (steps + 1) e ≠ none := by
  -- Every denominator is larger than the one before, as both so far are at least one.
  induction steps generalizing e a with
  | zero =>
    apply run_cases hrest
    intro b _ _ hwithin
    have hgrows := le_convergent hlimit hwithin
    have hpart := Nat.mul_le_mul_right e.last.2 (one_le_part hrest hone)
    omega
  | succ steps ih =>
    apply run_cases hrest
    intro b hb hone' hwithin
    have hgrows := le_convergent hlimit hwithin
    have hpart := Nat.mul_le_mul_right e.last.2 (one_le_part hrest hone)
    have hdenominator : e.next.last.2 = e.convergent.2 := rfl
    exact ih hb hone' hlast (by omega) (by omega)

theorem run_start {value : Float} {limit : Nat} (hvalue : Positive value a) (hlimit : limit < bound)
    : (start value).run limit (limit + 3) ≠ none := by
  apply run_cases (e := start value) hvalue
  intro b hb hone hwithin
  have hfirst : (start value).next.last.2 = 1 := by
    refine (le_convergent hlimit hwithin).trans ?_
    simp [start]
  have hzero : (start value).next.before.2 = 0 := rfl
  apply run_cases hb
  intro c hc hone' hwithin'
  have hgrows := le_convergent hlimit hwithin'
  have hpart := one_le_part hb hone
  rw [hfirst, hzero] at hgrows
  have hsecond : (start value).next.next.last.2 = (start value).next.convergent.2 := rfl
  have hbefore : (start value).next.next.before.2 = (start value).next.last.2 := rfl
  exact run_growing hlimit hc hone' (by omega) (by omega) (by omega)

end Expansion

end DecodePipeline.Ratio
