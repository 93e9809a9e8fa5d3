import DecodePipeline.Packet

/-!
This module contains scripts of streams. A script is a list of segments, and each segment is a number
of evenly spaced packets of one codec.
-/

namespace DecodePipeline

structure SegmentScript where
  codec : String := "rawvideo"
  width : UInt32 := 4
  height : UInt32 := 4
  fps : Option Float := some 25
  frames : UInt32 := 25
  firstPts : Float := 0
  start : Option Float := none
  stop : Option Float := none
  aviDts : Bool := false
  missingPts : Bool := false
  -- Every so many packets decoding can start; zero stands for the first packet alone.
  keyframeInterval : UInt32 := 12
  deriving Inhabited

namespace SegmentScript

def codecParams (s : SegmentScript) : CodecParams :=
  { codec := s.codec, width := s.width, height := s.height, fps := s.fps, aviDts := s.aviDts }

def frameTime (s : SegmentScript) : Float :=
  match s.fps.filter (0 < ·) with
  | some fps => 1 / fps
  | none => 1 / 25

/-- The bytes of a picture with half as many color samples as others. -/
def payloadSize (s : SegmentScript) : Nat := (s.width.toNat * s.height.toNat * 3 + 1) / 2

def bounds (s : SegmentScript) : SegmentBounds where
  start := s.start.map Timestamp.mk
  stop := s.stop.map Timestamp.mk

def isBounded (s : SegmentScript) : Bool := s.start.isSome || s.stop.isSome

def isKeyframe (s : SegmentScript) (index : Nat) : Bool :=
  if s.keyframeInterval == 0 then index == 0 else index % s.keyframeInterval.toNat == 0

def time (s : SegmentScript) (index : Nat) : Timestamp :=
  ⟨s.firstPts + index.toUInt64.toFloat * s.frameTime⟩

def packet (s : SegmentScript) (label : Option SegmentLabel) (index : Nat) : Packet where
  payload := ⟨Array.replicate s.payloadSize index.toUInt8⟩
  pts := if s.missingPts then none else some (s.time index)
  dts := some (s.time index)
  duration := some s.frameTime
  segment := label
  keyframe := s.isKeyframe index

def packets (s : SegmentScript) (label : Option SegmentLabel) : List Packet :=
  (List.range s.frames.toNat).map (s.packet label)

end SegmentScript

structure StreamScript where
  segments : List SegmentScript := []
  deriving Inhabited

inductive ScriptError where
  | noSegments
  deriving DecidableEq

def ScriptError.message : ScriptError → String
  | noSegments => "stream script has no segments"

namespace StreamScript

def demo : StreamScript where
  segments :=
    [{ start := some 0, stop := some 1 },
     { width := 8, height := 8, firstPts := 1, start := some 1, stop := some 2 }]

def isSegmented (s : StreamScript) : Bool :=
  -- The packets belong to segments, which a single unbounded segment does not need.
  1 < s.segments.length || s.segments.any (·.isBounded)

/-- The label of the packets of a segment. Every segment has a codec of its own. -/
def label (s : StreamScript) (segment : SegmentScript) (index : Nat) : Option SegmentLabel :=
  if s.isSegmented then some ⟨segment.bounds, some ⟨index, segment.codecParams⟩⟩ else none

def packets (s : StreamScript) : Except ScriptError (SharedCodec × List Packet) :=
  match s.segments with
  | [] => .error .noSegments
  | first :: _ =>
    .ok (⟨0, first.codecParams⟩,
      (s.segments.mapIdx fun index segment => segment.packets (s.label segment index)).flatten)

end StreamScript
end DecodePipeline
