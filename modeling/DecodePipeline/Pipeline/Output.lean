import DecodePipeline.Pipeline.Opening

/-!
This module contains the output side of a pipeline: frames are received from the engine, get their
time and their parameters, and are discarded if they lie outside the segment or before the start. The
end of a segment starts the next one.
-/

namespace DecodePipeline.Pipeline

variable {ω ε φ ρ : Type} [Engine ω ε]

def settleTime (p : Pipeline ω ε φ ρ) (frame : Frame) : Timestamp × Pipeline ω ε φ ρ :=
  let fps := p.options.effectiveFps p.codec.params.frameRate
  let (result, timeline) :=
    p.timeline.reconcile frame.pts frame.dts p.options.correctPts fps
  let notices := (p.timeline.track frame.pts frame.dts).notices result p.options.correctPts fps
  (result.pts,
    { p.sayAll notices with timeline, health := p.health.recordDecoded result.synthesized })

def settleParams (p : Pipeline ω ε φ ρ) (frame : Frame) : ImageParams × Pipeline ω ε φ ρ :=
  let (derived, params) := p.params.apply frame.params p.codec.params p.options
  (derived, { p.sayAll (p.params.notices frame.params p.codec.params p.options) with params })

def delayRate (p : Pipeline ω ε φ ρ) : Option Float :=
  if p.codec.params.aviDts && p.options.correctPts then p.codec.params.frameRate else none

def compensate (p : Pipeline ω ε φ ρ) (pts : Timestamp) : Timestamp × Pipeline ω ε φ ρ :=
  match p.delayRate with
  | none => (pts, p)
  | some fps =>
    match p.command .getFrameDelay with
    | (some (.frameDelay delay), p) => (compensateDelay pts delay fps, p)
    | (_, p) => (compensateDelay pts (-1) fps, p)

def finishFrame (p : Pipeline ω ε φ ρ) (frame : Frame) :
    Timestamp × Frame × Pipeline ω ε φ ρ :=
  let (reconciled, p) := p.settleTime frame
  let (params, p) := p.settleParams frame
  let (pts, p) := p.compensate reconciled
  (pts, { frame with pts := some pts, params }, p)

def excludes (p : Pipeline ω ε φ ρ) (pts : Timestamp) : Bool :=
  p.segments.bounds.isPastEnd pts || p.startCut.any (pts < ·) || p.segments.bounds.isBeforeStart pts

def enterSegment (p : Pipeline ω ε φ ρ) : SwitchKind → Except OpenError Unit × Pipeline ω ε φ ρ
  | .continue => (.ok (), p.resetSegment)
  | .reinit codec => p.openDecoder codec

/--
Go on with the segment of the held packet, if there is one. If its decoder does not open, the
pipeline stays in the middle of the change until it is reset.
-/
def switchSegment (p : Pipeline ω ε φ ρ) : Pipeline ω ε φ ρ :=
  match p.segments.beginSwitch p.codec with
  | (none, _) => p
  | (some switch, segments) =>
    let reinit := switch.kind matches .reinit _
    match ({ p with segments }.say (.switching switch.bounds reinit)).enterSegment switch.kind with
    | (.error reason, p) => { p.say (.switchFailed reason.message) with status := .ended }
    | (.ok (), p) =>
      { p with
        health := p.health.recordSegmentSwitch reinit
        segments := p.segments.completeSwitch switch.bounds
        pending := some switch.packet
        status := .again }

def endSegment (p : Pipeline ω ε φ ρ) : Pipeline ω ε φ ρ :=
  if p.segments.hasQueued then p.switchSegment else p

def noteMissing (p : Pipeline ω ε φ ρ) : Pipeline ω ε φ ρ :=
  -- The engine gave no frame for the last packet, which counts if it was allowed to skip it.
  if p.maySkip then { p with dropped := p.dropped + 1, health := p.health.recordDecoderDrop } else p

def offer (p : Pipeline ω ε φ ρ) (frame : Frame) : Pipeline ω ε φ ρ :=
  let (pts, frame, p) := p.finishFrame frame
  let p := { p with maySkip := false }
  if p.excludes pts then
    let p := { p with health := p.health.recordDiscarded, status := .again }
    if p.segments.bounds.isPastEnd pts then p.endSegment else p
  else { p with ready := some frame, status := .ready }

def readFrame (p : Pipeline ω ε φ ρ) : Pipeline ω ε φ ρ :=
  match p.engine, p.ready with
  | some engine, none =>
    let reply := Engine.receive engine p.shared
    let p := p.afterReply reply
    match reply.answer with
    | .frame frame => p.offer frame
    | .pending => { p.noteMissing with maySkip := false, status := .again }
    | .exhausted => { p with maySkip := false, status := .ended }.endSegment
  | _, _ => p

end DecodePipeline.Pipeline
