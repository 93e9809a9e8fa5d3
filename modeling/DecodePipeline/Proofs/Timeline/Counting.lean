import Mathlib.Data.List.Induction
import DecodePipeline.Proofs.Timeline.History

/-!
This module contains what a reconciler decides about a frame, as a function of all frames since it was
last reset. The reconciler keeps only the last times and two counts, and these are enough.
-/

namespace DecodePipeline.Reconciler

def countSteps (relates : Timestamp → Timestamp → Bool) (times : List Timestamp) : Nat :=
  (times.zip times.tail).countP fun (last, next) => relates last next

def descents (times : List Timestamp) : Nat := countSteps (fun last next => next < last) times

def stalls (times : List Timestamp) : Nat := countSteps (fun last next => next ≤ last) times

theorem countSteps_cons_cons (relates : Timestamp → Timestamp → Bool) (last next : Timestamp)
    (times : List Timestamp)
    : countSteps relates (last :: next :: times)
        = countSteps relates (next :: times) + if relates last next then 1 else 0 :=
  List.countP_cons

theorem countSteps_concat (relates : Timestamp → Timestamp → Bool) (times : List Timestamp)
    (next : Timestamp)
    : countSteps relates (times ++ [next])
        = countSteps relates times
          + if times.getLast?.any fun last => relates last next then 1 else 0 := by
  induction times with
  | nil => rfl
  | cons first rest ih =>
    cases rest with
    | nil => exact countSteps_cons_cons relates first next []
    | cons second rest =>
      rw [List.cons_append, List.cons_append, countSteps_cons_cons, ← List.cons_append, ih,
        countSteps_cons_cons, List.getLast?_cons_cons, Nat.add_right_comm]

theorem countSteps_eq_zero {relates : Timestamp → Timestamp → Bool} {times : List Timestamp}
    (hchain : times.IsChain fun last next => relates last next = false)
    : countSteps relates times = 0 := by
  induction times with
  | nil => rfl
  | cons first rest ih =>
    cases rest with
    | nil => rfl
    | cons second rest =>
      rw [List.isChain_cons_cons] at hchain
      rw [countSteps_cons_cons, ih hchain.2, hchain.1]
      rfl

def ptsOf (frames : List (Option Timestamp × Option Timestamp)) : List Timestamp :=
  frames.filterMap (·.1)

def dtsOf (frames : List (Option Timestamp × Option Timestamp)) : List Timestamp :=
  frames.filterMap (·.2)

structure Remembers (r : Reconciler) (frames : List (Option Timestamp × Option Timestamp)) : Prop where
  lastPts : r.lastPts = (ptsOf frames).getLast?
  lastDts : r.lastDts = (dtsOf frames).getLast?
  ptsProblems : r.ptsProblems = descents (ptsOf frames)
  dtsProblems : r.dtsProblems = stalls (dtsOf frames)

theorem ptsOf_concat (frames : List (Option Timestamp × Option Timestamp)) (pts dts : Option Timestamp)
    : ptsOf (frames ++ [(pts, dts)]) = ptsOf frames ++ pts.toList := by
  unfold ptsOf
  rw [List.filterMap_append]
  cases pts <;> rfl

theorem dtsOf_concat (frames : List (Option Timestamp × Option Timestamp)) (pts dts : Option Timestamp)
    : dtsOf (frames ++ [(pts, dts)]) = dtsOf frames ++ dts.toList := by
  unfold dtsOf
  rw [List.filterMap_append]
  cases dts <;> rfl

theorem Remembers.track {r : Reconciler} {frames : List (Option Timestamp × Option Timestamp)}
    (hremembers : r.Remembers frames) (pts dts : Option Timestamp)
    : (r.track pts dts).Remembers (frames ++ [(pts, dts)]) := by
  rw [track_eq]
  refine ⟨?_, ?_, ?_, ?_⟩
  . rw [ptsOf_concat, trackPts_lastPts, hremembers.lastPts]
    cases pts <;> simp
  . rw [dtsOf_concat, trackDts_lastDts, hremembers.lastDts]
    cases dts <;> simp
  . rw [ptsOf_concat, trackPts_ptsProblems, hremembers.ptsProblems, hremembers.lastPts]
    cases pts with
    | none => simp
    | some next => exact (countSteps_concat _ (ptsOf frames) next).symm
  . rw [dtsOf_concat, trackDts_dtsProblems, hremembers.dtsProblems, hremembers.lastDts]
    cases dts with
    | none => simp
    | some next => exact (countSteps_concat _ (dtsOf frames) next).symm

theorem remembers_after (requests : List Request)
    : (({} : Reconciler).after requests).Remembers (frames requests) := by
  induction requests using List.reverseRecOn with
  | nil => exact ⟨rfl, rfl, rfl, rfl⟩
  | append_singleton requests request ih =>
    rw [after_concat]
    cases request with
    | note pts dts =>
      rw [frames_concat_of_not_frame requests (by simp) rfl]
      exact { ih with }
    | reconcile pts dts correctPts fps =>
      rcases Reconciler.serve_frame _ pts dts correctPts fps with ⟨warnings, decoded, hserve⟩
      rw [hserve, frames_concat requests (by simp)]
      exact { ih.track pts dts with }
    | reset =>
      rw [frames_concat_reset]
      exact ⟨rfl, rfl, rfl, rfl⟩
    | restartProbe =>
      rw [frames_concat_of_not_frame requests (by simp) rfl]
      exact { ih with }

/--
The time that a frame came with and that it keeps, by all frames up to it: its decode time if it has no
other or if presentation times have more problems than decode times, else its presentation time.
-/
def nativeTime (frames : List (Option Timestamp × Option Timestamp)) (pts dts : Option Timestamp) :
    Option Timestamp :=
  if dts.isSome ∧ (pts = none ∨ stalls (dtsOf frames) < descents (ptsOf frames)) then dts else pts

theorem nativeTime_eq_none_iff (frames : List (Option Timestamp × Option Timestamp))
    (pts dts : Option Timestamp)
    : nativeTime frames pts dts = none ↔ pts = none ∧ dts = none := by
  unfold nativeTime
  cases pts with
  | none => cases dts <;> simp
  | some pts => cases dts <;> simp [ite_eq_iff]

theorem Remembers.chosen {r : Reconciler} {frames : List (Option Timestamp × Option Timestamp)}
    (hremembers : r.Remembers frames) (pts dts : Option Timestamp)
    : r.chosen pts dts = nativeTime frames pts dts := by
  unfold Reconciler.chosen nativeTime
  rw [hremembers.ptsProblems, hremembers.dtsProblems]
  apply if_congr
  . simp [and_comm, or_comm]
  . rfl
  . rfl

theorem reconcile_corrected (r : Reconciler) (pts dts : Option Timestamp) (fps : Float)
    : (r.reconcile pts dts true fps).1
        = match (r.track pts dts).chosen pts dts with
          | some time => ⟨time, false⟩
          | none => ⟨r.synthesized fps, true⟩ := by
  have hsynthesized : (r.track pts dts).synthesized fps = r.synthesized fps := by
    rw [track_eq]
    rfl
  unfold reconcile
  dsimp only
  cases (r.track pts dts).chosen pts dts with
  | some time => rfl
  | none => exact congrArg (Reconciled.mk · true) hsynthesized

/--
Whatever was asked of a reconciler before, a frame that it corrects is decided by the frames since it was
last reset: it counts how often a presentation time ran backwards and how often a decode time did not
advance, takes the time of the kind with fewer problems, and makes a time up only if the frame has none.
Presentation times that never run backwards are kept as they are.
-/
theorem reconcile_from_history (requests : List Request) (pts dts : Option Timestamp) (fps : Float)
    : let r := ({} : Reconciler).after requests
      let shown := frames requests ++ [(pts, dts)]
      let reconciled := r.reconcile pts dts true fps
      reconciled.2.ptsProblems = descents (ptsOf shown)
        ∧ reconciled.2.dtsProblems = stalls (dtsOf shown)
        ∧ reconciled.1.pts = (nativeTime shown pts dts).getD (r.synthesized fps)
        ∧ (reconciled.1.synthesized ↔ pts = none ∧ dts = none)
        ∧ ((ptsOf shown).IsChain (fun last next => ¬next < last) →
          reconciled.2.ptsProblems = 0
            ∧ ∀ time, pts = some time → reconciled.1 = ⟨time, false⟩) := by
  intro r shown reconciled
  have hremembers : (r.track pts dts).Remembers shown := (remembers_after requests).track pts dts
  have hresult := r.reconcile_corrected pts dts fps
  rw [hremembers.chosen] at hresult
  have hafter : reconciled.2.Remembers shown := by
    have hnext := remembers_after (requests ++ [.reconcile pts dts true fps])
    rw [after_concat, frames_concat requests (by simp)] at hnext
    exact hnext
  refine ⟨hafter.ptsProblems, hafter.dtsProblems, ?_, ?_, ?_⟩
  . refine (congrArg Reconciled.pts hresult).trans ?_
    cases nativeTime shown pts dts <;> rfl
  . rw [← nativeTime_eq_none_iff shown pts dts]
    refine (congrArg (fun result => result.synthesized = true ↔ _) hresult).mpr ?_
    cases nativeTime shown pts dts <;> simp
  . intro hchain
    have hzero : descents (ptsOf shown) = 0 := countSteps_eq_zero (by simpa using hchain)
    refine ⟨hafter.ptsProblems.trans hzero, ?_⟩
    rintro time rfl
    have hnative : nativeTime shown (some time) dts = some time := by
      unfold nativeTime
      rw [hzero]
      simp
    rw [hnative] at hresult
    exact hresult

-- A frame without decode time in between does not hide that decode times stand still.
example
    : let r := ({} : Reconciler).after
        [.reconcile (some ⟨2⟩) (some ⟨1⟩) true 25, .reconcile (some ⟨3⟩) none true 25]
      let (result, r) := r.reconcile (some ⟨1⟩) (some ⟨1⟩) true 25
      result = ⟨⟨1⟩, false⟩ ∧ r.ptsProblems = 1 ∧ r.dtsProblems = 1 := by
  decide +kernel

end DecodePipeline.Reconciler
