import DecodePipeline.Notice

/-!
This module contains what the pipeline asks of recorders, which get a copy of every packet that the
decoder accepts.
-/

namespace DecodePipeline

/-- A sink for packets. Its failures are its own; it only gives notice of them. -/
class PacketRecorder (ρ : Type) where
  feed : ρ → Packet → List Notice × ρ
  stop : ρ → List Notice × ρ

abbrev Collection := Array Packet

instance : PacketRecorder Collection where
  feed packets packet := ([], packets.push packet)
  stop packets := ([], packets)

end DecodePipeline
