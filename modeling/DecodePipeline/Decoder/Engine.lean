import DecodePipeline.Decoder.Entry
import DecodePipeline.Packet

/-!
This module contains what the pipeline asks of decoders. An `Engine` is one running decoder and a
`Driver` is a family of decoders that can create engines. Both are given by their state and pure
operations on it, so that statements about the pipeline range over every possible decoder.
-/

namespace DecodePipeline

inductive FrameDrop where
  | none
  -- It may skip packets that no other picture needs, in order to catch up.
  | soft
  -- The packet lies before the start; it should not become a frame at all.
  | hard
  deriving DecidableEq, Inhabited

inductive EngineCommand where
  | reset
  | setFrameDrop (directive : FrameDrop)
  | getFrameDelay
  deriving DecidableEq

inductive EngineResponse where
  | done
  | unsupported
  | frameDelay (frames : Int)
  deriving DecidableEq

inductive Received where
  | frame (frame : Frame)
  | pending
  | exhausted
  deriving DecidableEq

structure Reply (ω ε α : Type) where
  answer : α
  engine : ε
  shared : ω

/--
Decoder engines with the state `ε` of their own. The state `ω` is shared by all engines of a
program, those of other families and those that do not run any more included.
-/
class Engine (ω ε : Type) where
  init : ε → ω → CodecParams → String → Reply ω ε (Except String Unit)
  -- Take a packet, or without packet output all that is left. An engine that does not take
  -- the packet has to be asked again once it has given output.
  send : ε → ω → Option Packet → Reply ω ε Bool
  receive : ε → ω → Reply ω ε Received
  control : ε → ω → EngineCommand → Reply ω ε EngineResponse
  uninit : ε → ω → Reply ω ε Unit

structure Driver (ω ε : Type) where
  name : String
  decoders : List DecoderEntry
  create : ω → ε × ω

namespace Driver

variable {ω ε : Type}

def catalogue (drivers : List (Driver ω ε)) : List DecoderEntry :=
  drivers.flatMap (·.decoders)

def map {α : Type} (embed : ε → α) (d : Driver ω ε) : Driver ω α where
  name := d.name
  decoders := d.decoders
  create shared := let (engine, shared) := d.create shared; (embed engine, shared)

def find? (drivers : List (Driver ω ε)) (family : String) : Option (Driver ω ε) :=
  drivers.find? (·.name == family)

end Driver

instance {ω α β : Type} [Engine ω α] [Engine ω β] : Engine ω (α ⊕ β) where
  init engine shared codec decoder := match engine with
    | .inl e => let r := Engine.init e shared codec decoder; ⟨r.answer, .inl r.engine, r.shared⟩
    | .inr e => let r := Engine.init e shared codec decoder; ⟨r.answer, .inr r.engine, r.shared⟩
  send engine shared packet := match engine with
    | .inl e => let r := Engine.send e shared packet; ⟨r.answer, .inl r.engine, r.shared⟩
    | .inr e => let r := Engine.send e shared packet; ⟨r.answer, .inr r.engine, r.shared⟩
  receive engine shared := match engine with
    | .inl e => let r := Engine.receive e shared; ⟨r.answer, .inl r.engine, r.shared⟩
    | .inr e => let r := Engine.receive e shared; ⟨r.answer, .inr r.engine, r.shared⟩
  control engine shared command := match engine with
    | .inl e => let r := Engine.control e shared command; ⟨r.answer, .inl r.engine, r.shared⟩
    | .inr e => let r := Engine.control e shared command; ⟨r.answer, .inr r.engine, r.shared⟩
  uninit engine shared := match engine with
    | .inl e => let r := Engine.uninit e shared; ⟨r.answer, .inl r.engine, r.shared⟩
    | .inr e => let r := Engine.uninit e shared; ⟨r.answer, .inr r.engine, r.shared⟩

end DecodePipeline
