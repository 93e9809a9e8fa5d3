import DecodePipeline.Proofs.Pipeline.Offering
import DecodePipeline.Proofs.Pipeline.Renewal
import DecodePipeline.Simulation.Engine
import DecodePipeline.Simulation.Feed

/-!
This module contains what recorders get: the packets that engines accepted while the recorder was
attached, as the feed delivered them. It makes no difference to a pipeline whether anybody records.
-/

namespace DecodePipeline

namespace Difference

def same (ω ε : Type) : Difference ω ε where
  engines e s e' s' := e = e' ∧ s = s'
  health h h' := h = h'
  clock now now' := now = now'

variable {ω ε : Type} [Engine ω ε]

end Difference

namespace Pipeline

variable {ω ε φ ρ : Type} [Engine ω ε]

section Recorder

variable [PacketRecorder ρ]

variable [PacketFeed φ]

end Recorder

section Attachment

variable [PacketFeed φ] [PacketRecorder ρ]

variable {p : Pipeline (LoggedShared ω) (LoggedEngine ε) (TracedFeed φ) ρ}

end Attachment

end Pipeline
end DecodePipeline
