import DecodePipeline.Decoder.RawVideo
import DecodePipeline.Feed.Channel
import DecodePipeline.Pipeline.Work

/-!
This module contains everything that can be done to a pipeline from outside as data, so that a theorem
about all runs is a theorem about all lists of operations.
-/

namespace DecodePipeline

inductive Operation (φ ρ : Type) where
  | work
  | take
  | reset
  | setStart (start : Option Timestamp)
  | setFramedrop (framedrop : Bool)
  | resetParams
  | attachRecorder (recorder : ρ)
  | detachRecorder
  | openDecoder (codec : SharedCodec)
  | refill (change : φ → φ)
  | wait (now : UInt64)

namespace Operation

variable {φ ρ : Type}

def keepsStream : Operation φ ρ → Prop
  | reset | openDecoder _ => False
  | _ => True

def lift {φ' : Type} (lift : (φ' → φ') → φ → φ) : Operation φ' ρ → Operation φ ρ
  | work => work
  | take => take
  | reset => reset
  | setStart start => setStart start
  | setFramedrop framedrop => setFramedrop framedrop
  | resetParams => resetParams
  | attachRecorder recorder => attachRecorder recorder
  | detachRecorder => detachRecorder
  | openDecoder codec => openDecoder codec
  | refill change => refill (lift change)
  | wait now => wait now

end Operation

namespace Pipeline

variable {ω ε φ ρ : Type} [Engine ω ε] [PacketFeed φ] [PacketRecorder ρ]

def perform (p : Pipeline ω ε φ ρ) : Operation φ ρ → Pipeline ω ε φ ρ
  | .work => p.doWork
  | .take => p.getFrame.2.2
  | .reset => p.reset
  | .setStart start => p.setStart start
  | .setFramedrop framedrop => p.setFramedrop framedrop
  | .resetParams => p.resetParams
  | .attachRecorder recorder => p.attachRecorder recorder
  | .detachRecorder => p.detachRecorder.2
  | .openDecoder codec => (p.openDecoder codec).2
  | .refill change => { p with feed := change p.feed }
  | .wait now => { p with now }

def after (p : Pipeline ω ε φ ρ) (operations : List (Operation φ ρ)) : Pipeline ω ε φ ρ :=
  operations.foldl perform p

@[simp]
theorem after_nil (p : Pipeline ω ε φ ρ) : p.after [] = p := rfl

@[simp]
theorem after_cons (p : Pipeline ω ε φ ρ) (operation : Operation φ ρ)
    (operations : List (Operation φ ρ))
    : p.after (operation :: operations) = (p.perform operation).after operations := rfl

theorem after_append (p : Pipeline ω ε φ ρ) (first last : List (Operation φ ρ))
    : p.after (first ++ last) = (p.after first).after last := by
  unfold after
  rw [List.foldl_append]

theorem after_induct {motive : Pipeline ω ε φ ρ → Prop} (p : Pipeline ω ε φ ρ)
    (operations : List (Operation φ ρ)) (start : motive p)
    (step : ∀ q operation, operation ∈ operations → motive q → motive (q.perform operation))
    : motive (p.after operations) := by
  unfold after
  apply List.foldlRecOn
  . exact start
  . intro q hq operation hoperation
    exact step q operation hoperation hq

def sampleCodec : SharedCodec := ⟨0, (CodecParams.ofCodec "rawvideo").withSize 4 4⟩

def samplePacket : Packet where
  payload := ⟨#[7]⟩
  pts := some ⟨0.5⟩
  segment := some { bounds := { start := some ⟨0⟩, stop := some ⟨1⟩ } }

-- There is no decoder for the codec of this packet.
def foreignPacket : Packet where
  payload := ⟨#[8]⟩
  pts := some ⟨1.5⟩
  segment := some {
    bounds := { start := some ⟨1⟩, stop := some ⟨2⟩ }
    codec := some ⟨1, CodecParams.ofCodec "vp9"⟩ }

def sampleFeed (packets : List Packet) : PacketChannel :=
  { packets := { capacity := packets.length, queue := packets } }

def foreignFeed : PacketChannel := sampleFeed [samplePacket, foreignPacket]

end Pipeline
end DecodePipeline
