import DecodePipeline.Decoder.Engine

/-!
This module contains the decoder for uncompressed video. Every packet already is a picture, so the
engine is a short queue of pictures.
-/

namespace DecodePipeline

structure RawVideoEngine where
  params : Option ImageParams := none
  queue : List Frame := []
  framedrop : FrameDrop := .none
  draining : Bool := false
  deriving DecidableEq, Inhabited

namespace RawVideoEngine

def name : String := "rawvideo"

def capacity : Nat := 4

def isOpen (e : RawVideoEngine) : Bool := e.params.isSome

def init (e : RawVideoEngine) (codec : CodecParams) (decoder : String) :
    Except String Unit × RawVideoEngine :=
  -- the packets do not tell the size of the pictures
  if codec.codec != name || decoder != name then
    (.error s!"rawvideo cannot decode {codec.codec} with {decoder}", e)
  else if codec.width == 0 || codec.height == 0 then
    (.error "rawvideo needs the frame size from the container", e)
  else
    (.ok (),
      { e with params := some (.ofSize codec.width codec.height), queue := [], draining := false })

def sendPacket (e : RawVideoEngine) (params : ImageParams) (packet : Packet) :
    Bool × RawVideoEngine :=
  if capacity ≤ e.queue.length then (false, e)
  else
    let frame : Frame := { payload := packet.payload, pts := packet.pts, dts := packet.dts, params }
    (true,
      { e with
        queue := if e.framedrop == .hard then e.queue else e.queue ++ [frame]
        draining := false })

def send (e : RawVideoEngine) (packet : Option Packet) : Bool × RawVideoEngine :=
  match e.params, packet with
  | none, _ => (false, e)
  | some _, none => (true, { e with draining := true })
  | some params, some packet => e.sendPacket params packet

def receive (e : RawVideoEngine) : Received × RawVideoEngine :=
  match e.queue with
  | frame :: queue => (.frame frame, { e with queue })
  | [] => (if e.draining || !e.isOpen then .exhausted else .pending, e)

def control (e : RawVideoEngine) : EngineCommand → EngineResponse × RawVideoEngine
  | .reset => (.done, { e with queue := [], draining := false })
  | .setFrameDrop framedrop => (.done, { e with framedrop })
  | .getFrameDelay => (.frameDelay 0, e)

def uninit (e : RawVideoEngine) : RawVideoEngine :=
  { e with params := none, queue := [], draining := false }

instance {ω : Type} : Engine ω RawVideoEngine where
  init e shared codec decoder := let (answer, e) := e.init codec decoder; ⟨answer, e, shared⟩
  send e shared packet := let (answer, e) := e.send packet; ⟨answer, e, shared⟩
  receive e shared := let (answer, e) := e.receive; ⟨answer, e, shared⟩
  control e shared command := let (answer, e) := e.control command; ⟨answer, e, shared⟩
  uninit e shared := ⟨(), e.uninit, shared⟩

def driver {ω : Type} : Driver ω RawVideoEngine where
  name := name
  decoders := [⟨name, name, name, "uncompressed video passthrough"⟩]
  create shared := ({}, shared)

end RawVideoEngine

/-- The drivers of the program, in the order of preference. -/
def defaultDrivers {ω : Type} : List (Driver ω RawVideoEngine) := [RawVideoEngine.driver]

end DecodePipeline
