import DecodePipeline.Notice

/-!
This module contains the recovery of presentation times. Decoders and containers often get times
wrong, so the reconciler counts for both times of a frame how often they run backwards, prefers the
one with fewer problems, and makes a time up from the frame rate where there is none.
-/

namespace DecodePipeline

def probeFrames : Nat := 10

inductive Trust where
  | probing (left : Nat)
  | broken
  | fine
  deriving DecidableEq, Inhabited

namespace Trust

def fresh : Trust := .probing probeFrames

def advance : Trust → Trust
  | probing left => if left ≤ 1 then fine else probing (left - 1)
  | decided => decided

/-- Only a probe that passed makes the times trustworthy. -/
def isTrusted (trust : Trust) : Bool := trust == fine

end Trust

structure Reconciled where
  pts : Timestamp
  synthesized : Bool
  deriving DecidableEq

structure Reconciler where
  lastPts : Option Timestamp := none
  lastDts : Option Timestamp := none
  ptsProblems : Nat := 0
  dtsProblems : Nat := 0
  trust : Trust := .fresh
  warnings : Nat := 0
  decoded : Option Timestamp := none
  firstPacket : Option Timestamp := none
  deriving DecidableEq, Inhabited

namespace Reconciler

def notePacket (r : Reconciler) (pts dts : Option Timestamp) : Reconciler :=
  { r with
    trust := if pts.isNone then .broken else r.trust
    firstPacket := r.firstPacket <|> pts <|> dts }

def trackPts (r : Reconciler) : Option Timestamp → Reconciler
  -- Follow the presentation times, which are reordered and should not run backwards.
  | none => r
  | some pts =>
    { r with
      lastPts := some pts
      ptsProblems := r.ptsProblems + if r.lastPts.any (pts < ·) then 1 else 0 }

def trackDts (r : Reconciler) : Option Timestamp → Reconciler
  -- Follow the decode times, which should advance with every frame.
  | none => r
  | some dts =>
    { r with
      lastDts := some dts
      dtsProblems := r.dtsProblems + if r.lastDts.any (dts ≤ ·) then 1 else 0 }

def updateTrust (r : Reconciler) : Reconciler :=
  -- One more frame counts for the probe; a presentation time that ran backwards fails it.
  { r with trust := if 0 < r.ptsProblems then .broken else r.trust.advance }

def track (r : Reconciler) (pts dts : Option Timestamp) : Reconciler :=
  ((r.trackPts pts).trackDts dts).updateTrust

def chosen (r : Reconciler) (pts dts : Option Timestamp) : Option Timestamp :=
  -- The decode time replaces a presentation time that is missing or has more problems.
  if (r.dtsProblems < r.ptsProblems || pts.isNone) && dts.isSome then dts else pts

def synthesized (r : Reconciler) (fps : Float) : Timestamp :=
  match r.decoded with
  | some last => last.offset (1 / fps)
  | none => r.firstPacket.getD .zero

def warnsOfMissing (r : Reconciler) (correctPts : Bool) : Bool := correctPts && r.warnings ≤ 1

/--
The time of a frame for which the decoder reports `pts` and `dts`, and the reconciler afterwards.
Without `correctPts` all times are made up.
-/
def reconcile (r : Reconciler) (pts dts : Option Timestamp) (correctPts : Bool) (fps : Float) :
    Reconciled × Reconciler :=
  let r := r.track pts dts
  match (r.chosen pts dts).filter fun _ => correctPts with
  | some time => (⟨time, false⟩, { r with decoded := some time })
  | none =>
    let time := r.synthesized fps
    (⟨time, true⟩,
      { r with
        decoded := some time
        warnings := r.warnings + if r.warnsOfMissing correctPts then 1 else 0 })

def notices (r : Reconciler) (result : Reconciled) (correctPts : Bool) (fps : Float) :
    List Notice :=
  if result.synthesized && r.warnsOfMissing correctPts then
    .missingPts fps :: if r.warnings == 1 then [.furtherMissingPts] else []
  else []

/-- Forget everything about the current segment; whether packet times are trusted stays. -/
def reset (r : Reconciler) : Reconciler := { trust := r.trust }

def restartProbe (r : Reconciler) : Reconciler := { r with trust := .fresh }

end Reconciler

def compensateDelay (pts : Timestamp) (delay : Int) (fps : Float) : Timestamp :=
  -- the time only ever moves to earlier; a negative delay is none
  pts.offset (-Float.ofInt (max delay 0) / fps)

end DecodePipeline
