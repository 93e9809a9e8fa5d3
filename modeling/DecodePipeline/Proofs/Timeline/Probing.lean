import Mathlib.Data.List.Induction
import DecodePipeline.Proofs.Timeline.History

/-!
This module contains what the trust in packet times comes from: nothing but what was asked of the
reconciler since the probe was last started. One doubt in that time breaks the trust, and without any the
number of frames in that time decides.
-/

namespace DecodePipeline.Reconciler

/-- The request that led to `r` gives reason to doubt the times of packets. -/
def Doubts (r : Reconciler) : Request → Prop
  | .note pts _ => pts = none
  | .reconcile .. => 0 < r.ptsProblems
  | .reset | .restartProbe => False

def Doubted (requests : List Request) : Prop :=
  ∃ earlier request later, requests = earlier ++ request :: later
    ∧ .restartProbe ∉ request :: later
    ∧ (({} : Reconciler).after (earlier ++ [request])).Doubts request

def countdown (frames : Nat) : Trust :=
  if probeFrames ≤ frames then .fine else .probing (probeFrames - frames)

def probedFrames (requests : List Request) : Nat := (sinceRestart requests).countP (·.isFrame)

theorem advance_countdown (frames : Nat) : (countdown frames).advance = countdown (frames + 1) := by
  unfold countdown Trust.advance probeFrames
  grind

theorem countdown_eq_fine_iff (frames : Nat) : countdown frames = .fine ↔ probeFrames ≤ frames := by
  unfold countdown
  split <;> simp [*]

theorem countdown_ne_broken (frames : Nat) : countdown frames ≠ .broken := by
  unfold countdown
  split <;> simp

theorem not_doubted_nil : ¬Doubted [] := by
  rintro ⟨earlier, request, later, hsplit, -, -⟩
  simp at hsplit

theorem doubted_concat (requests : List Request) (request : Request)
    : Doubted (requests ++ [request])
        ↔ request ≠ .restartProbe
          ∧ (Doubted requests ∨ (({} : Reconciler).after (requests ++ [request])).Doubts request) := by
  constructor
  . rintro ⟨earlier, doubtful, later, hsplit, hprobe, hdoubts⟩
    rcases List.eq_nil_or_concat later with rfl | ⟨later, last, rfl⟩
    . rcases List.append_inj' hsplit rfl with ⟨rfl, hlast⟩
      cases hlast
      exact ⟨by simpa [eq_comm] using hprobe, .inr hdoubts⟩
    . rw [List.concat_eq_append, ← List.cons_append, ← List.append_assoc] at hsplit
      rcases List.append_inj' hsplit rfl with ⟨rfl, hlast⟩
      cases hlast
      simp only [List.concat_eq_append, List.mem_cons, List.mem_append, not_or] at hprobe
      refine ⟨by simpa [eq_comm] using hprobe.2.2, .inl ⟨earlier, doubtful, later, rfl, ?_, hdoubts⟩⟩
      simpa using ⟨hprobe.1, hprobe.2.1⟩
  . rintro ⟨hkept, ⟨earlier, doubtful, later, rfl, hprobe, hdoubts⟩ | hdoubts⟩
    . refine ⟨earlier, doubtful, later ++ [request], by simp, ?_, hdoubts⟩
      rw [← List.cons_append, List.mem_append, not_or]
      exact ⟨hprobe, by simpa [eq_comm] using hkept⟩
    . exact ⟨requests, request, [], rfl, by simpa [eq_comm] using hkept, hdoubts⟩

theorem probedFrames_restart (requests : List Request)
    : probedFrames (requests ++ [.restartProbe]) = 0 := by
  unfold probedFrames sinceRestart
  rw [List.rtakeWhile_concat_neg]
  . rfl
  . simp

theorem probedFrames_concat (requests : List Request) {request : Request}
    (hkept : request ≠ .restartProbe)
    : probedFrames (requests ++ [request])
        = probedFrames requests + if request.isFrame then 1 else 0 := by
  unfold probedFrames sinceRestart
  rw [List.rtakeWhile_concat_pos _ _ _ (by simpa using hkept), List.countP_append,
    List.countP_singleton]

inductive Probed (requests : List Request) (r : Reconciler) : Prop where
  | doubted (hdoubted : Doubted requests) (htrust : r.trust = .broken)
  | undoubted (hdoubted : ¬Doubted requests) (htrust : r.trust = countdown (probedFrames requests))
    -- A reconciler whose probe was just restarted may still remember problems.
    (hproblems : 0 < probedFrames requests → r.ptsProblems = 0)

theorem serve_frame_trust (r : Reconciler) (pts dts : Option Timestamp) (correctPts : Bool)
    (fps : Float)
    : (r.serve (.reconcile pts dts correctPts fps)).trust
        = if 0 < (r.serve (.reconcile pts dts correctPts fps)).ptsProblems then .broken
          else r.trust.advance := by
  rcases r.serve_frame pts dts correctPts fps with ⟨warnings, decoded, hserve⟩
  simp only [hserve, track_eq]

theorem Doubts.trust {r : Reconciler} {request : Request} (hdoubts : (r.serve request).Doubts request)
    : (r.serve request).trust = .broken := by
  cases request with
  | note pts dts =>
    have hpts : pts = none := hdoubts
    rw [hpts]
    rfl
  | reconcile pts dts correctPts fps =>
    rw [serve_frame_trust]
    exact if_pos hdoubts
  | reset | restartProbe => exact hdoubts.elim

theorem serve_of_not_doubts {r : Reconciler} {request : Request} (hkept : request ≠ .restartProbe)
    (hclean : ¬(r.serve request).Doubts request)
    : (r.serve request).trust = (if request.isFrame then r.trust.advance else r.trust)
        ∧ (request.isFrame ∨ r.ptsProblems = 0 → (r.serve request).ptsProblems = 0) := by
  cases request with
  | note pts dts =>
    have hsome : pts.isNone = false := by
      rw [← Bool.not_eq_true, Option.isNone_iff_eq_none]
      exact hclean
    refine ⟨?_, ?_⟩
    . unfold serve notePacket
      dsimp only
      rw [hsome]
      rfl
    . rintro (hframe | hproblems)
      . cases hframe
      . exact hproblems
  | reconcile pts dts correctPts fps =>
    have hproblems : (r.serve (.reconcile pts dts correctPts fps)).ptsProblems = 0 :=
      Nat.eq_zero_of_not_pos hclean
    rw [serve_frame_trust, hproblems]
    exact ⟨rfl, fun _ => rfl⟩
  | reset => exact ⟨rfl, fun _ => rfl⟩
  | restartProbe => exact absurd rfl hkept

theorem serve_of_broken {r : Reconciler} {request : Request} (hkept : request ≠ .restartProbe)
    (hbroken : r.trust = .broken)
    : (r.serve request).trust = .broken := by
  by_cases hdoubts : (r.serve request).Doubts request
  . exact hdoubts.trust
  . rw [(serve_of_not_doubts hkept hdoubts).1, hbroken]
    split <;> rfl

theorem Probed.serve {requests : List Request} {r : Reconciler} (hprobed : Probed requests r)
    (hafter : r = ({} : Reconciler).after requests) (request : Request)
    : Probed (requests ++ [request]) (r.serve request) := by
  have hnext : ({} : Reconciler).after (requests ++ [request]) = r.serve request := by
    rw [after_concat, hafter]
  by_cases hkept : request = .restartProbe
  . rw [hkept]
    refine .undoubted ?_ ?_ ?_
    . simp [doubted_concat]
    . rw [probedFrames_restart]
      rfl
    . simp [probedFrames_restart]
  by_cases hdoubts : (r.serve request).Doubts request
  . refine .doubted ?_ hdoubts.trust
    rw [doubted_concat, hnext]
    exact ⟨hkept, .inr hdoubts⟩
  cases hprobed with
  | doubted hdoubted htrust =>
    refine .doubted ?_ (serve_of_broken hkept htrust)
    rw [doubted_concat]
    exact ⟨hkept, .inl hdoubted⟩
  | undoubted hdoubted htrust hproblems =>
    rcases serve_of_not_doubts hkept hdoubts with ⟨htrust', hproblems'⟩
    refine .undoubted ?_ ?_ ?_
    . rw [doubted_concat, hnext]
      exact fun hnow => hnow.2.elim hdoubted hdoubts
    . rw [htrust', htrust, probedFrames_concat requests hkept]
      split
      . exact advance_countdown _
      . rfl
    . rw [probedFrames_concat requests hkept]
      intro hpos
      apply hproblems'
      by_cases hframe : request.isFrame
      . exact .inl hframe
      . rw [if_neg hframe] at hpos
        exact .inr (hproblems hpos)

theorem probed_after (requests : List Request)
    : Probed requests (({} : Reconciler).after requests) := by
  induction requests using List.reverseRecOn with
  | nil => exact .undoubted not_doubted_nil rfl fun _ => rfl
  | append_singleton requests request ih =>
    rw [after_concat]
    exact ih.serve rfl request

theorem after_of_broken {r : Reconciler} (hbroken : r.trust = .broken) (later : List Request)
    (hprobe : .restartProbe ∉ later)
    : (r.after later).trust = .broken := by
  induction later generalizing r with
  | nil => exact hbroken
  | cons request later ih =>
    rw [List.mem_cons, not_or] at hprobe
    exact ih (serve_of_broken (Ne.symm hprobe.1) hbroken) hprobe.2

/--
Whatever is asked of a reconciler, only what was asked since the probe was last started decides about the
trust in packet times: a doubt breaks it, and without one the frames are counted down. Trusted times have
no problems, and trust that is broken stays so until the probe is started again.
-/
theorem trust_from_history (requests : List Request)
    : let r := ({} : Reconciler).after requests
      (r.trust = .broken ↔ Doubted requests)
        ∧ (¬Doubted requests →
          (r.trust = .fine ↔ probeFrames ≤ probedFrames requests)
            ∧ (probedFrames requests < probeFrames →
              r.trust = .probing (probeFrames - probedFrames requests)))
        ∧ (r.trust.isTrusted → r.ptsProblems = 0)
        ∧ (r.trust = .broken → ∀ later, .restartProbe ∉ later → (r.after later).trust = .broken) := by
  intro r
  have hprobed : Probed requests r := probed_after requests
  refine ⟨?_, ?_, ?_, fun hbroken => after_of_broken hbroken⟩
  . cases hprobed with
    | doubted hdoubted htrust => exact iff_of_true htrust hdoubted
    | undoubted hdoubted htrust => exact iff_of_false (htrust ▸ countdown_ne_broken _) hdoubted
  . intro hclean
    cases hprobed with
    | doubted hdoubted => exact absurd hdoubted hclean
    | undoubted _ htrust =>
      rw [htrust]
      exact ⟨countdown_eq_fine_iff _, fun hfew => if_neg (Nat.not_le_of_gt hfew)⟩
  . intro htrusted
    have hfine : r.trust = .fine := eq_of_beq htrusted
    cases hprobed with
    | doubted _ htrust => simp [htrust] at hfine
    | undoubted _ htrust hproblems =>
      rw [htrust, countdown_eq_fine_iff] at hfine
      exact hproblems (Nat.lt_of_lt_of_le (by decide) hfine)

-- The problems outlast the start of a new probe, and break the trust again with its first frame.
example
    : let frame := fun seconds => Request.reconcile (some ⟨seconds⟩) none true 25
      let r := ({} : Reconciler).after [frame 2, frame 1, .restartProbe]
      r.ptsProblems = 1 ∧ r.trust = .fresh ∧ (r.serve (frame 3)).trust = .broken := by
  decide +kernel

end DecodePipeline.Reconciler
