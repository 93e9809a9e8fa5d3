import DecodePipeline.Timestamp

/-!
This module contains the window of presentation times that belongs to a segment.
-/

namespace DecodePipeline

structure SegmentBounds where
  -- The window from `start` up to but without `stop`; a missing bound excludes nothing.
  start : Option Timestamp := none
  stop : Option Timestamp := none
  deriving BEq, DecidableEq, Inhabited

namespace SegmentBounds

def isBeforeStart (bounds : SegmentBounds) (pts : Timestamp) : Bool :=
  bounds.start.any fun start => pts < start

def isPastEnd (bounds : SegmentBounds) (pts : Timestamp) : Bool :=
  bounds.stop.any fun stop => stop ≤ pts

end SegmentBounds
end DecodePipeline
