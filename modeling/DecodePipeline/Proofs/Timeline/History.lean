import Mathlib.Data.List.DropRight
import DecodePipeline.Timeline.Reconciler

/-!
This module contains the history of a reconciler: what was asked of it, as data. The reconciler itself
remembers only the last times and a few counters, so what it knows is stated about its history.
-/

namespace DecodePipeline.Reconciler

inductive Request where
  | note (pts dts : Option Timestamp)
  | reconcile (pts dts : Option Timestamp) (correctPts : Bool) (fps : Float)
  | reset
  | restartProbe
  deriving DecidableEq

namespace Request

def isFrame : Request → Bool
  | reconcile .. => true
  | _ => false

def frame? : Request → Option (Option Timestamp × Option Timestamp)
  | reconcile pts dts _ _ => some (pts, dts)
  | _ => none

end Request

def serve (r : Reconciler) : Request → Reconciler
  | .note pts dts => r.notePacket pts dts
  | .reconcile pts dts correctPts fps => (r.reconcile pts dts correctPts fps).2
  | .reset => r.reset
  | .restartProbe => r.restartProbe

def after (r : Reconciler) (requests : List Request) : Reconciler := requests.foldl serve r

theorem after_concat (r : Reconciler) (requests : List Request) (request : Request)
    : r.after (requests ++ [request]) = (r.after requests).serve request := by
  unfold after
  rw [List.foldl_append]
  rfl

def sinceRestart (requests : List Request) : List Request :=
  requests.rtakeWhile (· ≠ .restartProbe)

def sinceReset (requests : List Request) : List Request := requests.rtakeWhile (· ≠ .reset)

def frames (requests : List Request) : List (Option Timestamp × Option Timestamp) :=
  (sinceReset requests).filterMap Request.frame?

theorem frames_concat_reset (requests : List Request) : frames (requests ++ [.reset]) = [] := by
  unfold frames sinceReset
  rw [List.rtakeWhile_concat_neg]
  . rfl
  . simp

theorem frames_concat (requests : List Request) {request : Request} (hkept : request ≠ .reset)
    : frames (requests ++ [request]) = frames requests ++ request.frame?.toList := by
  unfold frames sinceReset
  rw [List.rtakeWhile_concat_pos _ _ _ (by simpa using hkept), List.filterMap_append]
  cases request <;> rfl

theorem frames_concat_of_not_frame (requests : List Request) {request : Request}
    (hkept : request ≠ .reset) (hframe : request.frame? = none)
    : frames (requests ++ [request]) = frames requests := by
  rw [frames_concat requests hkept, hframe, Option.toList_none, List.append_nil]

section Track

variable (r : Reconciler) (pts dts : Option Timestamp) (correctPts : Bool) (fps : Float)

theorem serve_frame
    : ∃ warnings decoded,
        r.serve (.reconcile pts dts correctPts fps)
          = { r.track pts dts with warnings, decoded } := by
  unfold serve reconcile
  dsimp only
  split <;> exact ⟨_, _, rfl⟩

theorem trackPts_ptsProblems
    : (r.trackPts pts).ptsProblems
        = r.ptsProblems + if pts.any fun next => r.lastPts.any (next < ·) then 1 else 0 := by
  cases pts <;> rfl

theorem trackPts_lastPts : (r.trackPts pts).lastPts = (pts <|> r.lastPts) := by cases pts <;> rfl

theorem trackDts_dtsProblems
    : (r.trackDts dts).dtsProblems
        = r.dtsProblems + if dts.any fun next => r.lastDts.any (next ≤ ·) then 1 else 0 := by
  cases dts <;> rfl

theorem trackDts_lastDts : (r.trackDts dts).lastDts = (dts <|> r.lastDts) := by cases dts <;> rfl

theorem track_eq
    : r.track pts dts
        = { r with
            lastPts := (r.trackPts pts).lastPts
            ptsProblems := (r.trackPts pts).ptsProblems
            lastDts := (r.trackDts dts).lastDts
            dtsProblems := (r.trackDts dts).dtsProblems
            trust := if 0 < (r.trackPts pts).ptsProblems then .broken else r.trust.advance } := by
  unfold track updateTrust
  cases pts <;> cases dts <;> rfl

end Track

end DecodePipeline.Reconciler
