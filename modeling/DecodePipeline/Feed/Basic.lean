import DecodePipeline.Channel
import DecodePipeline.Packet

/-!
This module contains what the pipeline asks of the source of its packets.
-/

namespace DecodePipeline

/-- A source of the packets of one stream. Reading never waits. -/
class PacketFeed (φ : Type) where
  tryRead : φ → Poll Packet × φ

end DecodePipeline
