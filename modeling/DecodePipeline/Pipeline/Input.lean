import DecodePipeline.Pipeline.Basic

/-!
This module contains the input side of a pipeline: packets are read from the feed, held back at the
start of a new segment, and sent to the engine.
-/

namespace DecodePipeline

def effectiveStart (startCut segmentStart : Option Timestamp) : Option Timestamp :=
  -- The later of the start that the user wants and the start of the segment.
  match startCut, segmentStart with
  | some cut, some start => if cut < start then some start else some cut
  | none, start => start
  | cut, none => cut

def hardDropMargin : Float := 0.005

/-- How freely the engine may skip a packet. Only trusted times allow to skip it entirely. -/
def frameDropFor (pts start : Option Timestamp) (framedrop trusted : Bool) : FrameDrop :=
  let otherwise := if framedrop then FrameDrop.soft else .none
  match pts, start with
  | some pts, some start => if trusted && pts < start.offset (-hardDropMargin) then .hard else otherwise
  | _, _ => otherwise

namespace Pipeline

variable {ω ε φ ρ : Type}

def startsSegment (p : Pipeline ω ε φ ρ) (packet : Packet) : Bool :=
  !p.segments.hasQueued && p.segments.isNewSegment packet p.codec

def holdNewSegment (p : Pipeline ω ε φ ρ) : Pipeline ω ε φ ρ :=
  match p.pending.filter p.startsSegment with
  | none => p
  | some packet =>
    { p.say (.newSegment packet.anyTime) with
      pending := none
      segments := p.segments.queue packet }

def pendingFrameDrop (p : Pipeline ω ε φ ρ) : FrameDrop :=
  frameDropFor (p.pending.bind (·.pts)) (effectiveStart p.startCut p.segments.bounds.start)
    p.framedrop p.timeline.trust.isTrusted

/--
A packet as the engine gets it. Engines want a decode time, so the presentation time stands in for a
missing one unless the container's times are in decode order.
-/
def forEngine (p : Pipeline ω ε φ ρ) (packet : Packet) : Packet :=
  if packet.dts.isNone && !p.codec.params.aviDts then { packet with dts := packet.pts } else packet

def acceptPending [PacketRecorder ρ] (p : Pipeline ω ε φ ρ) : Pipeline ω ε φ ρ :=
  match p.pending with
  | none => p
  | some packet =>
    let p := { p with pending := none }.record packet
    { p with health := p.health.recordPacket packet.size }

def retryPending (p : Pipeline ω ε φ ρ) : Pipeline ω ε φ ρ :=
  if p.pending.isSome then { p with health := p.health.recordSendRetry } else p

variable [Engine ω ε]

def sendTo (p : Pipeline ω ε φ ρ) (engine : ε) (framedrop : FrameDrop) :
    Bool × Pipeline ω ε φ ρ :=
  let told := Engine.control engine p.shared (.setFrameDrop framedrop)
  let reply := Engine.send told.engine told.shared (p.pending.map p.forEngine)
  let timeline := match p.pending with
    | none => p.timeline
    | some packet => p.timeline.notePacket packet.pts packet.dts
  (reply.answer, { p with timeline }.afterReply reply)

def fillPending [PacketFeed φ] (p : Pipeline ω ε φ ρ) : Bool × Pipeline ω ε φ ρ :=
  -- the result tells whether there was nothing to read
  if p.pending.isSome || p.segments.hasQueued then (false, p)
  else
    match p.readFeed with
    | (.item packet, p) => (false, { p with pending := some packet })
    | (.empty, p) => (true, p)
    | (.ended, p) => (false, p)

def sendPending [PacketRecorder ρ] (p : Pipeline ω ε φ ρ) (engine : ε) : Pipeline ω ε φ ρ :=
  let framedrop := p.pendingFrameDrop
  match p.sendTo engine framedrop with
  | (true, p) => { p.acceptPending with maySkip := framedrop == .soft, status := .again }
  | (false, p) => { p.retryPending with status := .again }

def feedPacket [PacketFeed φ] [PacketRecorder ρ] (p : Pipeline ω ε φ ρ) : Pipeline ω ε φ ρ :=
  match p.engine, p.ready with
  | some engine, none =>
    match p.fillPending with
    | (true, p) => { p with status := .waiting }
    | (false, p) => p.holdNewSegment.sendPending engine
  | _, _ => p

end Pipeline
end DecodePipeline
