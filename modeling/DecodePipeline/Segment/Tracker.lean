import DecodePipeline.Packet

/-!
This module contains the tracking of segments in a packet stream. The first packet of a new segment
is held until the current segment has drained; then the decoder goes on if the codec stays the same,
and is replaced if it changes.
-/

namespace DecodePipeline

inductive SegmentPhase where
  | none
  | queued
  | switching
  deriving DecidableEq, Inhabited

inductive SwitchKind where
  | continue
  | reinit (codec : SharedCodec)
  deriving DecidableEq

structure SegmentSwitch where
  packet : Packet
  bounds : SegmentBounds
  kind : SwitchKind
  deriving DecidableEq

structure SegmentTracker where
  bounds : SegmentBounds := {}
  queued : Option Packet := none
  phase : SegmentPhase := .none
  deriving DecidableEq, Inhabited

namespace SegmentTracker

def keepsCodec (codec : Option SharedCodec) (active : SharedCodec) : Bool :=
  -- The codec of a packet is the active one; a packet without codec takes the active one.
  codec.all fun codec => codec.same active

def isNewSegment (t : SegmentTracker) (packet : Packet) (active : SharedCodec) : Bool :=
  packet.segment.any fun label =>
    label.bounds.start != t.bounds.start || label.bounds.stop != t.bounds.stop
      || !keepsCodec label.codec active

def queue (t : SegmentTracker) (packet : Packet) : SegmentTracker :=
  { t with queued := some packet, phase := .queued }

def hasQueued (t : SegmentTracker) : Bool := t.queued.isSome

def switchKind (packet : Packet) (active : SharedCodec) : SwitchKind :=
  match packet.codec with
  | some codec => if codec.same active then .continue else .reinit codec
  | none => .continue

def beginSwitch (t : SegmentTracker) (active : SharedCodec) :
    Option SegmentSwitch × SegmentTracker :=
  match t.queued with
  | none => (none, t)
  | some packet =>
    (some ⟨packet, packet.bounds, switchKind packet active⟩,
      { t with queued := none, phase := .switching })

def completeSwitch (t : SegmentTracker) (bounds : SegmentBounds) : SegmentTracker :=
  { t with bounds, phase := .none }

end SegmentTracker
end DecodePipeline
