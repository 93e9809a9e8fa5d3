import DecodePipeline.Decoder.Engine
import DecodePipeline.Feed.Basic
import DecodePipeline.Health
import DecodePipeline.Image.Cache
import DecodePipeline.Options
import DecodePipeline.Pipeline.Status
import DecodePipeline.Recorder.Basic
import DecodePipeline.Segment.Tracker
import DecodePipeline.Timeline.Reconciler

/-!
This module contains the state of a pipeline that decodes one video stream, and the operations on it
that do no decoding. A pipeline reads packets from a feed, sends them to a decoder engine, and keeps
at most one decoded frame ready. It never waits.
-/

namespace DecodePipeline

/--
A pipeline with engines `ε` that share the state `ω`, the feed `φ` and recorders `ρ`.
-/
structure Pipeline (ω ε φ ρ : Type) where
  codec : SharedCodec
  drivers : List (Driver ω ε)
  options : DecoderOptions
  feed : φ
  shared : ω
  health : Health
  now : UInt64
  engine : Option ε := none
  decoder : Option String := none
  recorder : Option ρ := none
  ready : Option Frame := none
  pending : Option Packet := none
  segments : SegmentTracker := {}
  timeline : Reconciler := {}
  params : ParamsCache := {}
  startCut : Option Timestamp := none
  framedrop : Bool := false
  maySkip : Bool := false
  dropped : Nat := 0
  status : Status := .again
  journal : Array Notice := #[]

namespace Pipeline

variable {ω ε φ ρ : Type}

def create (codec : SharedCodec) (drivers : List (Driver ω ε)) (feed : φ) (shared : ω)
    (options : DecoderOptions) (now : UInt64) : Pipeline ω ε φ ρ :=
  { codec, drivers, options, feed, shared, health := .starting now, now }

def say (p : Pipeline ω ε φ ρ) (notice : Notice) : Pipeline ω ε φ ρ :=
  { p with journal := p.journal.push notice }

def sayAll (p : Pipeline ω ε φ ρ) (notices : List Notice) : Pipeline ω ε φ ρ :=
  { p with journal := p.journal ++ notices.toArray }

def afterReply {α : Type} (p : Pipeline ω ε φ ρ) (reply : Reply ω ε α) : Pipeline ω ε φ ρ :=
  { p with engine := some reply.engine, shared := reply.shared }

def setStart (p : Pipeline ω ε φ ρ) (start : Option Timestamp) : Pipeline ω ε φ ρ :=
  { p with startCut := start }

def setFramedrop (p : Pipeline ω ε φ ρ) (framedrop : Bool) : Pipeline ω ε φ ρ :=
  { p with framedrop }

def resetParams (p : Pipeline ω ε φ ρ) : Pipeline ω ε φ ρ :=
  { p with params := p.params.invalidate }

def attachRecorder (p : Pipeline ω ε φ ρ) (recorder : ρ) : Pipeline ω ε φ ρ :=
  { p with recorder := some recorder }

def detachRecorder (p : Pipeline ω ε φ ρ) : Option ρ × Pipeline ω ε φ ρ :=
  (p.recorder, { p with recorder := none })

def hasPending (p : Pipeline ω ε φ ρ) : Bool := p.pending.isSome

def hasDecoder (p : Pipeline ω ε φ ρ) : Bool := p.engine.isSome

def record [PacketRecorder ρ] (p : Pipeline ω ε φ ρ) (packet : Packet) : Pipeline ω ε φ ρ :=
  match p.recorder with
  | none => p
  | some recorder =>
    let (notices, recorder) := PacketRecorder.feed recorder packet
    { p with recorder := some recorder }.sayAll notices

def readFeed [PacketFeed φ] (p : Pipeline ω ε φ ρ) : Poll Packet × Pipeline ω ε φ ρ :=
  let (poll, feed) := PacketFeed.tryRead p.feed
  (poll, { p with feed })

variable [Engine ω ε]

def command (p : Pipeline ω ε φ ρ) (request : EngineCommand) :
    Option EngineResponse × Pipeline ω ε φ ρ :=
  match p.engine with
  | none => (none, p)
  | some engine =>
    let reply := Engine.control engine p.shared request
    (some reply.answer, p.afterReply reply)

def resetSegment (p : Pipeline ω ε φ ρ) : Pipeline ω ε φ ρ :=
  -- the engine stays open, and the tracker and the trust in packet times stay as well
  let p := (p.command .reset).2
  { p with
    timeline := p.timeline.reset
    params := {}
    startCut := none
    maySkip := false
    ready := none
    pending := none
    status := .again }

end Pipeline
end DecodePipeline
