import DecodePipeline.Image.Derivation
import DecodePipeline.Proofs.Image.Ratio

/-!
This module contains what every derivation of parameters makes sure of, whatever the bitstream, the
container and the user say: pixels have a shape, rotations are less than a full turn, and the peak and
the projection are settled.
-/

namespace DecodePipeline

open Floating

theorem isValidPeak_iff {peak : Float32}
    : isValidPeak peak ↔ peak == 0 ∨ (1 ≤ peak ∧ peak ≤ 100) := by
  simp [isValidPeak]

theorem isValidPeak_zero : isValidPeak 0 := by decide +kernel

theorem ColorParams.isValidPeak_withoutInvalidPeak (color : ColorParams)
    : isValidPeak color.withoutInvalidPeak.peak := by
  unfold withoutInvalidPeak
  split
  . assumption
  . exact isValidPeak_zero

theorem ColorParams.withoutInvalidPeak_eq (color : ColorParams)
    : { color.withoutInvalidPeak with peak := 0 } = { color with peak := 0 } := by
  unfold withoutInvalidPeak
  split <;> rfl

namespace ImageParams

structure SamePicture (p q : ImageParams) : Prop where
  pixelFormat : q.pixelFormat = p.pixelFormat
  width : q.width = p.width
  height : q.height = p.height

theorem withContainerAspect_samePicture (p : ImageParams) (codec : CodecParams)
    (options : DecoderOptions)
    : p.SamePicture (p.withContainerAspect codec options) := by
  unfold withContainerAspect
  split <;> exact ⟨rfl, rfl, rfl⟩

theorem withUserAspect_samePicture (p : ImageParams) (options : DecoderOptions)
    : p.SamePicture (p.withUserAspect options) := by
  unfold withUserAspect
  split
  . exact ⟨rfl, rfl, rfl⟩
  . split <;> exact ⟨rfl, rfl, rfl⟩

theorem withKnownAspect_samePicture (p : ImageParams) : p.SamePicture p.withKnownAspect := by
  unfold withKnownAspect
  split <;> exact ⟨rfl, rfl, rfl⟩

theorem derive_samePicture (p : ImageParams) (codec : CodecParams) (options : DecoderOptions)
    : p.SamePicture (p.derive codec options) := by
  have hcontainer := p.withContainerAspect_samePicture codec options
  have huser := (p.withContainerAspect codec options).withUserAspect_samePicture options
  have hknown :=
    ((p.withContainerAspect codec options).withUserAspect options).withKnownAspect_samePicture
  exact ⟨hknown.pixelFormat.trans (huser.pixelFormat.trans hcontainer.pixelFormat),
    hknown.width.trans (huser.width.trans hcontainer.width),
    hknown.height.trans (huser.height.trans hcontainer.height)⟩

theorem withKnownAspect_known (p : ImageParams)
    : 1 ≤ p.withKnownAspect.pixelWidth ∧ 1 ≤ p.withKnownAspect.pixelHeight := by
  unfold withKnownAspect
  split
  . exact ⟨UInt32.le_refl 1, UInt32.le_refl 1⟩
  . next hknown =>
    simp only [Bool.or_eq_true, beq_iff_eq, not_or, ← UInt32.toNat_inj] at hknown
    simp only [UInt32.le_iff_toNat_le]
    exact ⟨Nat.pos_of_ne_zero hknown.1, Nat.pos_of_ne_zero hknown.2⟩

theorem rotation_toNat (codec : CodecParams) (options : DecoderOptions)
    : (rotation codec options).toNat
        = match options.videoRotate with
          | some user => (codec.rotate.toNat + user.toNat) % 360
          | none => 0 := by
  unfold rotation
  cases options.videoRotate with
  | none => rfl
  | some user =>
    simp
    omega

theorem projection_kind (spherical : Spherical) : (projection spherical).kind ≠ .auto := by
  unfold projection
  split
  . simp
  . next hkind => simpa using hkind

section Aspect

theorem place_maxMovieAspect : place maxMovieAspect = some ((10 * unit : Nat) : Int) := by
  decide +kernel

theorem positive_bounded {aspect : Float} (hpos : 0 < aspect)
    : ∃ a, Ratio.Positive (if maxMovieAspect < aspect then maxMovieAspect else aspect) a := by
  have hfinite : 10 * unit < infinite := mul_unit_lt_infinite (by decide)
  split
  . exact ⟨10 * unit, place_maxMovieAspect, Nat.mul_pos (by decide) unit_pos, hfinite⟩
  . next hbounded =>
    rcases lt_iff.mp hpos with ⟨z, a, hz, ha, hlt⟩
    have hz : z = 0 := Option.some.inj (hz.symm.trans place_zero)
    have hcast : a = (a.toNat : Int) := by omega
    have hle : ¬ ((10 * unit : Nat) : Int) < a := by
      intro hlarge
      exact hbounded (lt_iff.mpr ⟨_, a, place_maxMovieAspect, ha, hlarge⟩)
    rw [hcast] at ha
    exact ⟨a.toNat, ha, by omega, by omega⟩

theorem pos_of_userAspect {options : DecoderOptions} {aspect : Float}
    (haspect : userAspect options = some aspect) (hsquare : (aspect == 0) = false)
    : 0 < aspect := by
  have hle : 0 ≤ aspect := by simpa using (Option.filter_eq_some_iff.mp haspect).2
  rcases le_iff.mp hle with ⟨z, a, hz, ha, hza⟩
  have hne : a ≠ 0 := by
    rintro rfl
    rw [beq_iff.mpr ⟨0, ha, place_zero⟩] at hsquare
    cases hsquare
  have hz : z = 0 := Option.some.inj (hz.symm.trans place_zero)
  exact lt_iff.mpr ⟨0, a, place_zero, ha, by omega⟩

end Aspect

/--
The parameters of every picture are well formed, and the approximation of the aspect that the user
wants comes to an end.
-/
theorem derive_wellFormed (p : ImageParams) (codec : CodecParams) (options : DecoderOptions)
    : let q := p.derive codec options
      (1 ≤ q.pixelWidth ∧ 1 ≤ q.pixelHeight)
        ∧ (∀ aspect, userAspect options = some aspect → (aspect == 0) = false →
          (Ratio.Expansion.start (if maxMovieAspect < aspect then maxMovieAspect else aspect)).run
            movieAspectLimit (movieAspectLimit + 3) ≠ none)
        ∧ q.rotate.toNat < 360
        ∧ q.rotate.toNat
          = (match options.videoRotate with
            | some user => (codec.rotate.toNat + user.toNat) % 360
            | none => 0)
        ∧ (∀ user : UInt32, (codec.rotate % 360).toNat + (user % 360).toNat < UInt32.size)
        ∧ (q.color.peak == 0 ∨ (1 ≤ q.color.peak ∧ q.color.peak ≤ 100))
        ∧ q.spherical.kind ≠ .auto
        ∧ q.pixelFormat = p.pixelFormat ∧ q.width = p.width ∧ q.height = p.height
        ∧ q.color.space = (p.color.space <|> codec.color.space)
        ∧ q.color.levels = (p.color.levels <|> codec.color.levels)
        ∧ q.color.primaries = (p.color.primaries <|> codec.color.primaries)
        ∧ q.color.transfer = (p.color.transfer <|> codec.color.transfer) := by
  have hsame := p.derive_samePicture codec options
  have hrotation : (p.derive codec options).rotate.toNat = _ := rotation_toNat codec options
  have hpeak := isValidPeak_iff.mp (p.color.merge codec.color).isValidPeak_withoutInvalidPeak
  have hcolor := (p.color.merge codec.color).withoutInvalidPeak_eq
  refine ⟨withKnownAspect_known _, ?_, ?_, hrotation, ?_, ?_, projection_kind codec.spherical,
    hsame.pixelFormat, hsame.width, hsame.height, ?_, ?_, ?_, ?_⟩
  . intro aspect haspect hsquare
    rcases positive_bounded (pos_of_userAspect haspect hsquare) with ⟨a, ha⟩
    exact Ratio.Expansion.run_start ha (by decide)
  . rw [hrotation]
    cases options.videoRotate with
    | none => exact Nat.zero_lt_succ _
    | some user => exact Nat.mod_lt _ (by decide)
  . intro user
    have hcodec : (codec.rotate % 360).toNat < 360 := by
      rw [UInt32.toNat_mod]
      exact Nat.mod_lt _ (by decide)
    have huser : (user % 360).toNat < 360 := by
      rw [UInt32.toNat_mod]
      exact Nat.mod_lt _ (by decide)
    rw [UInt32.size]
    omega
  . exact hpeak
  . exact congrArg (·.space) hcolor
  . exact congrArg (·.levels) hcolor
  . exact congrArg (·.primaries) hcolor
  . exact congrArg (·.transfer) hcolor

end ImageParams

end DecodePipeline
