import DecodePipeline.Feed.Channel
import DecodePipeline.Pipeline.Work

/-!
This module contains a pipeline at work: producers send packets into its feed, the decode stage
drives it, and a consumer takes the frames. The three run at the same time. Whatever one of them does
at once is a step of its own, `Playback.step`, so a run in which they take turns in any way at all is
a sequence of steps.
-/

namespace DecodePipeline

inductive ProducerPhase where
  | sending
  | waking
  -- It is not among the senders any more, and wakes the reader up for the last time.
  | leaving
  | gone
  deriving DecidableEq, Inhabited

structure Producer where
  packets : List Packet
  phase : ProducerPhase := .sending
  deriving DecidableEq, Inhabited

inductive StagePhase where
  | working
  | sleeping
  | delivering (frame : Frame)
  | finishing
  -- It hands no more frames on, but still has the feed and the recorder.
  | finished
  | gone
  deriving DecidableEq, Inhabited

inductive Actor where
  | producer (index : Nat)
  | stage
  | consumer
  deriving DecidableEq

structure Playback (ω ε ρ : Type) where
  pipeline : Pipeline ω ε PacketChannel ρ
  producers : List Producer
  stage : StagePhase := .working
  frames : Nat := 0
  output : Channel Frame
  taken : Array Frame := #[]
  consumerGone : Bool := false

inductive StageError where
  | noOutput
  deriving DecidableEq

def StageError.message : StageError → String
  | noOutput => "No output channel"

def stageName : String := "DecodeStage"

namespace Playback

variable {ω ε ρ : Type}

def start (pipeline : Pipeline ω ε PacketChannel ρ) (packets : List Packet)
    (output : Option (Channel Frame)) : Except StageError (Playback ω ε ρ) :=
  match output with
  | none => .error .noOutput
  | some output =>
    .ok
      { pipeline := pipeline.say (.stageStarted pipeline.decoder)
        producers := [{ packets }]
        output
        consumerGone := !output.receiving }

def withFeed (s : Playback ω ε ρ) (feed : PacketChannel) : Playback ω ε ρ :=
  { s with pipeline := { s.pipeline with feed } }

def say (s : Playback ω ε ρ) (notice : Notice) : Playback ω ε ρ :=
  { s with pipeline := s.pipeline.say notice }

def stepProducer (producer : Producer) (feed : PacketChannel) :
    Option (Producer × PacketChannel) :=
  -- The next step of a producer, and the feed after it. A producer waits while the feed is full.
  match producer.phase, producer.packets with
  | .sending, [] => some ({ producer with phase := .leaving }, feed.release)
  | .sending, packet :: packets =>
    match feed.push packet with
    | (.sent, feed) => some (⟨packets, .waking⟩, feed)
    | (.closed, feed) => some ({ producer with phase := .leaving }, feed.release)
    | (.full, _) => none
  | .waking, _ => some ({ producer with phase := .sending }, feed.wake)
  | .leaving, _ => some ({ producer with phase := .gone }, feed.wake)
  | .gone, _ => none

def work [Engine ω ε] [PacketRecorder ρ] (s : Playback ω ε ρ) : Playback ω ε ρ :=
  let (frame, status, pipeline) := s.pipeline.doWork.getFrame
  let s := { s with pipeline }
  match frame, status with
  | some frame, _ => { s with stage := .delivering frame, frames := s.frames + 1 }
  | none, .ready | none, .again => s
  | none, .waiting => { s with stage := .sleeping }
  | none, .ended => { s with stage := .finishing }

def deliver (s : Playback ω ε ρ) (frame : Frame) : Option (Playback ω ε ρ) :=
  match s.output.send frame with
  | (.sent, output) => some { s with output, stage := .working }
  | (.full, _) => none
  | (.closed, _) => some { s.say .outputClosed with stage := .finishing }

def awake (s : Playback ω ε ρ) : Option (Playback ω ε ρ) :=
  match s.pipeline.feed.takeWakeup with
  | (true, feed) => some { s.withFeed feed with stage := .working }
  | (false, _) => none

def finish (s : Playback ω ε ρ) : Playback ω ε ρ :=
  { s.say (.stageFinished s.frames s.pipeline.dropped) with
    stage := .finished
    output := s.output.removeSender }

def dismiss [PacketRecorder ρ] (s : Playback ω ε ρ) : Playback ω ε ρ :=
  let s := { s.withFeed s.pipeline.feed.close with stage := .gone }
  match s.pipeline.recorder with
  | none => s
  | some recorder =>
    let (notices, recorder) := PacketRecorder.stop recorder
    { s with pipeline := { s.pipeline with recorder := some recorder }.sayAll notices }

def stepStage [Engine ω ε] [PacketRecorder ρ] (s : Playback ω ε ρ) : Option (Playback ω ε ρ) :=
  match s.stage with
  | .working => some s.work
  | .sleeping => s.awake
  | .delivering frame => s.deliver frame
  | .finishing => some s.finish
  | .finished => some s.dismiss
  | .gone => none

def stepConsumer (s : Playback ω ε ρ) : Option (Playback ω ε ρ) :=
  if s.consumerGone then none
  else
    match s.output.receive with
    | (.item frame, output) => some { s with output, taken := s.taken.push frame }
    | (.empty, _) => none
    | (.ended, _) => some { s with consumerGone := true }

/-- The next step of an actor; `none` while it has to wait and when it is gone. -/
def step [Engine ω ε] [PacketRecorder ρ] (s : Playback ω ε ρ) : Actor → Option (Playback ω ε ρ)
  | .producer index => do
    let (producer, feed) ← stepProducer (← s.producers[index]?) s.pipeline.feed
    return { s.withFeed feed with producers := s.producers.set index producer }
  | .stage => s.stepStage
  | .consumer => s.stepConsumer

def actors (s : Playback ω ε ρ) : List Actor :=
  (List.range s.producers.length).map .producer ++ [.stage, .consumer]

def isOver (s : Playback ω ε ρ) : Bool :=
  s.producers.all (·.phase == .gone) && s.stage == .gone && s.consumerGone

variable [Engine ω ε] [PacketRecorder ρ]

def round (s : Playback ω ε ρ) : Playback ω ε ρ :=
  s.actors.foldl (fun s actor => (s.step actor).getD s) s

def run : Nat → Playback ω ε ρ → Playback ω ε ρ
  | 0, s => s
  | rounds + 1, s => if s.isOver then s else run rounds s.round

end Playback
end DecodePipeline
