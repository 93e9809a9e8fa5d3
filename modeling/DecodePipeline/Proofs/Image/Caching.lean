import DecodePipeline.Image.Cache
import Mathlib

/-!
This module contains what the cache of parameters may be relied on for: it gives the parameters that
would be derived anew, although parameters count as the same when they only compare equal, and it
derives parameters that repeat only once, unless a part of them is not a number.
-/

namespace DecodePipeline

theorem eq_or_zeros_of_beq {x y : Float32} (hxy : (x == y) = true)
    : x = y ∨ ((x == 0) = true ∧ (y == 0) = true) := by
  rcases (Float32.beq_iff_ne_nan_and_eq.mp hxy).2.2 with hsame | ⟨rfl, rfl⟩ | ⟨rfl, rfl⟩
  . exact .inl hsame
  . exact .inr (by decide +kernel)
  . exact .inr (by decide +kernel)

theorem isNaN_of_beq {x y : Float32} (hxy : (x == y) = true) : y.isNaN = false := by
  rw [Float32.isNaN_eq_decide_eq_nan]
  exact decide_eq_false (Float32.beq_iff_ne_nan_and_eq.mp hxy).2.1

theorem beq_self_eq_not_isNaN (x : Float32) : (x == x) = !x.isNaN := by
  rw [Float32.isNaN_eq_decide_eq_nan, Bool.eq_iff_iff, Float32.beq_self_iff]
  simp

namespace ColorParams

theorem beq_eq (a b : ColorParams)
    : (a == b)
        = (a.space == b.space && (a.levels == b.levels && (a.primaries == b.primaries
            && (a.transfer == b.transfer && a.peak == b.peak)))) := rfl

theorem merge_of_beq {a b : ColorParams} (hab : (a == b) = true) (other : ColorParams)
    : a.merge other = b.merge other := by
  rw [beq_eq] at hab
  simp only [Bool.and_eq_true, beq_iff_eq] at hab
  rcases hab with ⟨hspace, hlevels, hprimaries, htransfer, hpeak⟩
  unfold merge
  rw [hspace, hlevels, hprimaries, htransfer]
  rcases eq_or_zeros_of_beq hpeak with hsame | ⟨ha, hb⟩
  . rw [hsame]
  -- A peak of either zero is one that is not known.
  . rw [ha, hb]
    rfl

end ColorParams

theorem Spherical.beq_eq (a b : Spherical)
    : (a == b)
        = (a.kind == b.kind && (a.yaw == b.yaw && (a.pitch == b.pitch && a.roll == b.roll))) := rfl

namespace ImageParams

def hasNaN (p : ImageParams) : Bool :=
  p.color.peak.isNaN || p.spherical.yaw.isNaN || p.spherical.pitch.isNaN || p.spherical.roll.isNaN

theorem beq_eq (a b : ImageParams)
    : (a == b)
        = (a.pixelFormat == b.pixelFormat && (a.width == b.width && (a.height == b.height
            && (a.pixelWidth == b.pixelWidth && (a.pixelHeight == b.pixelHeight
            && (a.color == b.color && (a.rotate == b.rotate && (a.stereoIn == b.stereoIn
            && (a.stereoOut == b.stereoOut && a.spherical == b.spherical))))))))) := rfl

theorem beq_self_eq_not_hasNaN (p : ImageParams) : (p == p) = !p.hasNaN := by
  rw [beq_eq, ColorParams.beq_eq, Spherical.beq_eq]
  simp [beq_self_eq_not_isNaN, hasNaN, Bool.and_assoc]

theorem hasNaN_of_beq {p q : ImageParams} (hpq : (p == q) = true) : q.hasNaN = false := by
  rw [beq_eq, ColorParams.beq_eq, Spherical.beq_eq] at hpq
  simp only [Bool.and_eq_true] at hpq
  rcases hpq with ⟨-, -, -, -, -, ⟨-, -, -, -, hpeak⟩, -, -, -, -, hyaw, hpitch, hroll⟩
  unfold hasNaN
  rw [isNaN_of_beq hpeak, isNaN_of_beq hyaw, isNaN_of_beq hpitch, isNaN_of_beq hroll]
  rfl

section Derivation

variable (p : ImageParams) (color : ColorParams) (spherical : Spherical) (codec : CodecParams)
  (options : DecoderOptions)

-- The shape of the pixels depends neither on the colors nor on the projection.

theorem withContainerAspect_of_look
    : { p with color, spherical }.withContainerAspect codec options
        = { p.withContainerAspect codec options with color, spherical } := by
  unfold withContainerAspect
  change (if p.usesContainer codec options then _ else _) = _
  split <;> rfl

theorem withUserAspect_of_look
    : { p with color, spherical }.withUserAspect options
        = { p.withUserAspect options with color, spherical } := by
  unfold withUserAspect
  cases userAspect options with
  | none => rfl
  | some aspect =>
    dsimp only
    split <;> rfl

theorem withKnownAspect_of_look
    : { p with color, spherical }.withKnownAspect
        = { p.withKnownAspect with color, spherical } := by
  unfold withKnownAspect
  dsimp only
  split <;> rfl

theorem derive_of_look
    : { p with color, spherical }.derive codec options
        = { p.derive codec options with
            color := (color.merge codec.color).withoutInvalidPeak } := by
  unfold derive
  rw [withContainerAspect_of_look, withUserAspect_of_look, withKnownAspect_of_look]

end Derivation

theorem derive_of_beq {p q : ImageParams} (hpq : (p == q) = true) (codec : CodecParams)
    (options : DecoderOptions)
    : p.derive codec options = q.derive codec options := by
  rw [beq_eq] at hpq
  simp only [Bool.and_eq_true, beq_iff_eq] at hpq
  rcases hpq with ⟨hformat, hwidth, hheight, hpixelWidth, hpixelHeight, hcolor, hrotate, hin, hout, -⟩
  have hlook : p = { q with color := p.color, spherical := p.spherical } := by
    rw [← hformat, ← hwidth, ← hheight, ← hpixelWidth, ← hpixelHeight, ← hrotate, ← hin, ← hout]
  rw [hlook, derive_of_look, ColorParams.merge_of_beq hcolor]
  rfl

end ImageParams

namespace ParamsCache

variable {cache : ParamsCache} {incoming : ImageParams} {codec : CodecParams}
  {options : DecoderOptions}

theorem apply_of_hit (hhit : cache.hit incoming = true)
    : cache.apply incoming codec options = (cache.derived, cache) := if_pos hhit

theorem apply_of_miss (hmiss : cache.hit incoming = false)
    : cache.apply incoming codec options
        = (incoming.derive codec options,
            { last := some incoming
              derived := incoming.derive codec options
              format := incoming
              updates := cache.updates + 1 }) :=
  if_neg (by simp [hmiss])

theorem hit_eq_true (hhit : cache.hit incoming = true)
    : ∃ last, cache.last = some last ∧ (last == incoming) = true := by
  unfold hit at hhit
  cases hlast : cache.last with
  | none =>
    rw [hlast] at hhit
    cases hhit
  | some last =>
    rw [hlast] at hhit
    exact ⟨last, rfl, hhit⟩

theorem hit_of_hasNaN (cache : ParamsCache) (hnan : incoming.hasNaN = true)
    : cache.hit incoming = false := by
  by_contra hhit
  rcases hit_eq_true (Bool.not_eq_false _ ▸ hhit) with ⟨last, -, hsame⟩
  rw [ImageParams.hasNaN_of_beq hsame] at hnan
  cases hnan

section Coherence

structure Coherent (cache : ParamsCache) (codec : CodecParams) (options : DecoderOptions) : Prop where
  derived : ∀ last, cache.last = some last → cache.derived = last.derive codec options
  format : ∀ last, cache.last = some last → cache.format = last

theorem coherent_of_last_none (hlast : cache.last = none) (codec : CodecParams)
    (options : DecoderOptions)
    : cache.Coherent codec options := by
  refine ⟨?_, ?_⟩
  all_goals
    intro last hsome
    rw [hlast] at hsome
    cases hsome

theorem coherent_empty (codec : CodecParams) (options : DecoderOptions)
    : ({} : ParamsCache).Coherent codec options :=
  coherent_of_last_none rfl codec options

theorem coherent_invalidate (cache : ParamsCache) (codec : CodecParams) (options : DecoderOptions)
    : cache.invalidate.Coherent codec options :=
  coherent_of_last_none rfl codec options

theorem Coherent.apply (hcache : cache.Coherent codec options) (incoming : ImageParams)
    : (cache.apply incoming codec options).2.Coherent codec options := by
  cases hhit : cache.hit incoming with
  | true =>
    rw [apply_of_hit hhit]
    exact hcache
  | false =>
    rw [apply_of_miss hhit]
    refine ⟨?_, ?_⟩
    all_goals
      rintro last ⟨⟩
      rfl

theorem Coherent.derived_apply (hcache : cache.Coherent codec options) (incoming : ImageParams)
    : (cache.apply incoming codec options).1 = incoming.derive codec options := by
  cases hhit : cache.hit incoming with
  | true =>
    rcases hit_eq_true hhit with ⟨last, hlast, hsame⟩
    rw [apply_of_hit hhit, hcache.derived last hlast]
    exact ImageParams.derive_of_beq hsame codec options
  | false => rw [apply_of_miss hhit]

theorem Coherent.format_apply (hcache : cache.Coherent codec options)
    (hnumeric : incoming.hasNaN = false)
    : ((cache.apply incoming codec options).2.format == incoming) = true := by
  cases hhit : cache.hit incoming with
  | true =>
    rcases hit_eq_true hhit with ⟨last, hlast, hsame⟩
    rw [apply_of_hit hhit, hcache.format last hlast]
    exact hsame
  | false =>
    rw [apply_of_miss hhit, ImageParams.beq_self_eq_not_hasNaN, hnumeric]
    rfl

end Coherence

section Repetition

theorem updates_apply (cache : ParamsCache) (incoming : ImageParams) (codec : CodecParams)
    (options : DecoderOptions)
    : (cache.apply incoming codec options).2.updates
        = cache.updates + if cache.hit incoming then 0 else 1 := by
  cases hhit : cache.hit incoming with
  | true =>
    rw [apply_of_hit hhit]
    rfl
  | false =>
    rw [apply_of_miss hhit]
    rfl

theorem hit_apply (cache : ParamsCache) (incoming : ImageParams) (codec : CodecParams)
    (options : DecoderOptions)
    : (cache.apply incoming codec options).2.hit incoming = !incoming.hasNaN := by
  cases hhit : cache.hit incoming with
  | true =>
    rcases hit_eq_true hhit with ⟨last, -, hsame⟩
    rw [apply_of_hit hhit, hhit, ImageParams.hasNaN_of_beq hsame]
    rfl
  | false =>
    rw [apply_of_miss hhit]
    exact incoming.beq_self_eq_not_hasNaN

def warnings (notices : List Notice) : Nat := notices.countP (· matches .invalidPeak _)

theorem warnings_notices (cache : ParamsCache) (incoming : ImageParams) (codec : CodecParams)
    (options : DecoderOptions)
    : warnings (cache.notices incoming codec options)
        = if cache.hit incoming || isValidPeak (incoming.color.merge codec.color).peak then 0
          else 1 := by
  have hquiet (condition : Bool) (notice : Notice)
      (hother : (notice matches .invalidPeak _) = false)
      : (if condition then [notice] else []).countP (· matches .invalidPeak _) = 0 := by
    cases condition <;> simp [hother]
  unfold warnings notices ImageParams.derivationNotices
  cases cache.hit incoming with
  | true => rfl
  | false =>
    rw [if_neg (by simp), List.countP_cons_of_neg (by simp)]
    dsimp only
    simp only [List.countP_append, hquiet]
    cases isValidPeak (incoming.color.merge codec.color).peak <;> rfl

/-- The same parameters come a number of times. The result has everything that is said meanwhile. -/
def repeated (cache : ParamsCache) (incoming : ImageParams) (codec : CodecParams)
    (options : DecoderOptions) : Nat → ParamsCache × List Notice
  | 0 => (cache, [])
  | n + 1 =>
    let (before, said) := cache.repeated incoming codec options n
    ((before.apply incoming codec options).2, said ++ before.notices incoming codec options)

theorem hit_repeated (cache : ParamsCache) (incoming : ImageParams) (codec : CodecParams)
    (options : DecoderOptions) (n : Nat)
    : (cache.repeated incoming codec options (n + 1)).1.hit incoming = !incoming.hasNaN :=
  hit_apply _ incoming codec options

def derivations (cache : ParamsCache) (incoming : ImageParams) (n : Nat) : Nat :=
  if incoming.hasNaN then n else if cache.hit incoming then 0 else min n 1

theorem derivations_succ (cache : ParamsCache) (incoming : ImageParams) (codec : CodecParams)
    (options : DecoderOptions) (n : Nat)
    : cache.derivations incoming (n + 1)
        = cache.derivations incoming n
          + if (cache.repeated incoming codec options n).1.hit incoming then 0 else 1 := by
  unfold derivations
  cases hnan : incoming.hasNaN with
  | true =>
    rw [hit_of_hasNaN (cache.repeated incoming codec options n).1 hnan]
    rfl
  | false =>
    cases n with
    | zero =>
      change _ = _ + if cache.hit incoming then 0 else 1
      cases cache.hit incoming <;> rfl
    | succ n =>
      rw [hit_repeated, hnan]
      cases cache.hit incoming <;> simp

theorem repeated_updates (cache : ParamsCache) (incoming : ImageParams) (codec : CodecParams)
    (options : DecoderOptions) (n : Nat)
    : (cache.repeated incoming codec options n).1.updates
        = cache.updates + cache.derivations incoming n := by
  induction n with
  | zero => simp [repeated, derivations]
  | succ n ih =>
    refine (updates_apply ..).trans ?_
    rw [ih, derivations_succ cache incoming codec options, Nat.add_assoc]

theorem repeated_warnings (cache : ParamsCache) (incoming : ImageParams) (codec : CodecParams)
    (options : DecoderOptions) (n : Nat)
    : warnings (cache.repeated incoming codec options n).2
        = if isValidPeak (incoming.color.merge codec.color).peak then 0
          else cache.derivations incoming n := by
  induction n with
  | zero => simp [repeated, derivations, warnings]
  | succ n ih =>
    refine (List.countP_append ..).trans ?_
    refine (congrArg₂ (· + ·) ih (warnings_notices ..)).trans ?_
    rw [derivations_succ cache incoming codec options]
    cases isValidPeak (incoming.color.merge codec.color).peak <;> simp

/--
Parameters that come again and again are derived at most once, with at most one warning about their peak,
if all their parts are numbers. Otherwise they are derived each time, and a warning that is due is given
each time.
-/
theorem repeated_derives_once_or_always (cache : ParamsCache) (incoming : ImageParams)
    (codec : CodecParams) (options : DecoderOptions) (n : Nat)
    : let (after, said) := cache.repeated incoming codec options n
      if incoming.hasNaN then
        after.updates = cache.updates + n
          ∧ warnings said = if isValidPeak (incoming.color.merge codec.color).peak then 0 else n
      else after.updates ≤ cache.updates + 1 ∧ warnings said ≤ 1 := by
  have hupdates := cache.repeated_updates incoming codec options n
  have hwarnings := cache.repeated_warnings incoming codec options n
  unfold derivations at hupdates hwarnings
  dsimp only
  split
  . next hnan =>
    rw [if_pos hnan] at hupdates hwarnings
    exact ⟨hupdates, hwarnings⟩
  . next hnumeric =>
    rw [if_neg hnumeric] at hupdates hwarnings
    rw [hupdates, hwarnings]
    split <;> split <;> omega

-- A peak that is not a number is never the peak that was seen before.
theorem nan_peak_derived_again
    : let cache : ParamsCache := {}
      let (after, said) := cache.repeated { color := { peak := Float32.nan } } {} {} 2
      cache.updates + 1 < after.updates ∧ 1 < warnings said := by
  decide +kernel

end Repetition

end ParamsCache
end DecodePipeline
