import DecodePipeline.Pipeline.Input
import DecodePipeline.Pipeline.Output

/-!
This module contains the operations with which a pipeline is driven.
-/

namespace DecodePipeline.Pipeline

variable {ω ε φ ρ : Type} [Engine ω ε]

def openWith (codec : SharedCodec) (drivers : List (Driver ω ε)) (feed : φ) (shared : ω)
    (options : DecoderOptions) (now : UInt64) : Except OpenError Unit × Pipeline ω ε φ ρ :=
  (create codec drivers feed shared options now).openDecoder codec

/--
Make one step. Without a ready frame a packet is sent, and the frame that it may give is received in
the same step.
-/
def doWork [PacketFeed φ] [PacketRecorder ρ] (p : Pipeline ω ε φ ρ) : Pipeline ω ε φ ρ :=
  if p.engine.isNone then { p with status := .ended }
  else
    let p := p.readFrame
    if p.ready.isSome then p
    else
      let p := p.feedPacket
      if p.status == .waiting then p else p.readFrame

def getFrame (p : Pipeline ω ε φ ρ) : Option Frame × Status × Pipeline ω ε φ ρ :=
  match p.ready with
  | some frame =>
    (some frame, .ready, { p with ready := none, health := p.health.recordDelivered p.now })
  | none => (none, if p.status == .ready then .again else p.status, p)

structure Drive (ω ε φ ρ : Type) where
  pipeline : Pipeline ω ε φ ρ
  frames : Array Frame := #[]
  rounds : Nat := 0
  last : Status := .again

def drive [PacketFeed φ] [PacketRecorder ρ] (p : Pipeline ω ε φ ρ) (rounds : Nat) : Drive ω ε φ ρ :=
  -- Make steps and take their frames, until a step gives no frame and the pipeline has ended or
  -- waits, or for a number of rounds.
  go rounds { pipeline := p }
where
  go : Nat → Drive ω ε φ ρ → Drive ω ε φ ρ
    | 0, d => d
    | rounds + 1, d =>
      let worked := d.pipeline.doWork
      let last := worked.status
      match worked.getFrame with
      | (some frame, _, pipeline) =>
        go rounds { pipeline, frames := d.frames.push frame, rounds := d.rounds + 1, last }
      | (none, _, pipeline) =>
        let d := { d with pipeline, rounds := d.rounds + 1, last }
        if last == .ended || last == .waiting then d else go rounds d

def reset (p : Pipeline ω ε φ ρ) : Pipeline ω ε φ ρ :=
  let p := (p.say .reset).resetSegment
  { p with
    segments := {}
    timeline := p.timeline.restartProbe
    dropped := 0
    status := if p.engine.isNone then .ended else p.status }

end DecodePipeline.Pipeline
