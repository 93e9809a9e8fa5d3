import DecodePipeline.Pipeline.Input
import DecodePipeline.Proofs.Float.Addition
import DecodePipeline.Timeline.Reconciler

/-!
This module contains what the number line says about times: equal bounds exclude the same times, times
that lie before the start with a margin lie before the start, and no delay is taken out exactly.
-/

namespace DecodePipeline

theorem Timestamp.beq_iff {a b : Timestamp}
    : a == b ↔ ∃ n, Floating.place a.seconds = some n ∧ Floating.place b.seconds = some n :=
  Floating.beq_iff

theorem Timestamp.lt_congr {a b : Timestamp} (heq : a == b) (t : Timestamp) : t < a ↔ t < b := by
  rcases Timestamp.beq_iff.mp heq with ⟨n, ha, hb⟩
  refine Floating.lt_iff.trans (Iff.trans ?_ Floating.lt_iff.symm)
  rw [ha, hb]

theorem Timestamp.le_congr {a b : Timestamp} (heq : a == b) (t : Timestamp) : a ≤ t ↔ b ≤ t := by
  rcases Timestamp.beq_iff.mp heq with ⟨n, ha, hb⟩
  refine Floating.le_iff.trans (Iff.trans ?_ Floating.le_iff.symm)
  rw [ha, hb]

theorem Timestamp.beq_self {a : Timestamp} (hnumber : a.seconds.isNaN = false) : a == a := by
  rw [Timestamp.beq_iff]
  unfold Floating.place
  unfold Float.isNaN Float.Model.isNaN at hnumber
  cases hunpack : a.seconds.toModel.unpack with
  | notANumber =>
    rw [hunpack] at hnumber
    cases hnumber
  | infinity sign => exact ⟨_, rfl, rfl⟩
  | zero sign => exact ⟨_, rfl, rfl⟩
  | finite sign m e hm => exact ⟨_, rfl, rfl⟩

theorem any_congr {a b : Option Timestamp} {f : Timestamp → Bool} (heq : a == b)
    (hf : ∀ s t : Timestamp, s == t → f s = f t)
    : a.any f = b.any f := by
  cases a with
  | none =>
    cases b with
    | none => rfl
    | some t => cases heq
  | some s =>
    cases b with
    | none => cases heq
    | some t => exact hf s t heq

theorem SegmentBounds.isBeforeStart_congr {a b : SegmentBounds} (heq : a.start == b.start)
    (t : Timestamp)
    : a.isBeforeStart t = b.isBeforeStart t := by
  apply any_congr heq
  intro s s' hs
  exact decide_eq_decide.mpr (Timestamp.lt_congr hs t)

theorem SegmentBounds.isPastEnd_congr {a b : SegmentBounds} (heq : a.stop == b.stop) (t : Timestamp)
    : a.isPastEnd t = b.isPastEnd t := by
  apply any_congr heq
  intro s s' hs
  exact decide_eq_decide.mpr (Timestamp.le_congr hs t)

theorem lt_of_frameDropFor_hard {pts start : Option Timestamp} {framedrop trusted : Bool}
    (hhard : frameDropFor pts start framedrop trusted = .hard)
    : ∃ t s, pts = some t ∧ start = some s ∧ t < s := by
  have hmargin : -hardDropMargin < 0 := by decide +kernel
  have hother : (if framedrop then FrameDrop.soft else .none) ≠ .hard := by
    cases framedrop <;> decide
  unfold frameDropFor at hhard
  dsimp only at hhard
  split at hhard
  . next t s =>
    split at hhard
    . next hdrop =>
      simp only [Bool.and_eq_true, decide_eq_true_eq] at hdrop
      exact ⟨t, s, rfl, rfl, Floating.lt_of_lt_add hmargin hdrop.2⟩
    . exact absurd hhard hother
  . exact absurd hhard hother

theorem compensateDelay_zero (pts : Timestamp) {fps : Float} (hfps : 0 < fps)
    : compensateDelay pts 0 fps = pts := by
  have hzero : (-Float.ofInt (max 0 0)).toModel.unpack = .zero .negative := by rfl
  unfold compensateDelay Timestamp.offset
  rw [Floating.add_negative_zero pts.seconds (Floating.negative_zero_div hzero hfps)]

end DecodePipeline
