import DecodePipeline.Codec
import DecodePipeline.Segment.Bounds
import DecodePipeline.Text.Quoted

/-!
This module contains what goes into a decoder and what comes out of it: coded packets and decoded
frames.
-/

namespace DecodePipeline

instance decidableEqPayload : DecidableEq ByteArray := ByteArray.instDecidableEq

structure SegmentLabel where
  bounds : SegmentBounds := {}
  -- The codec of the segment; a missing one is that of the segment before.
  codec : Option SharedCodec := none
  deriving DecidableEq, Inhabited

structure Packet where
  payload : ByteArray
  pts : Option Timestamp := none
  dts : Option Timestamp := none
  duration : Option Float := none
  segment : Option SegmentLabel := none
  keyframe : Bool := false
  stream : Nat := 0
  deriving DecidableEq, Inhabited

namespace Packet

def size (p : Packet) : Nat := p.payload.size

def anyTime (p : Packet) : Option Timestamp := p.pts <|> p.dts

def bounds (p : Packet) : SegmentBounds := (p.segment.map (·.bounds)).getD {}

def codec (p : Packet) : Option SharedCodec := p.segment.bind (·.codec)

def diagnostic (p : Packet) : String :=
  let segment := match p.segment with
    | none => ""
    | some label =>
      let codec := match label.codec with
        | none => "None"
        | some codec => "Some(" ++ Text.quoted codec.params.codec ++ ")"
      ", start: " ++ Timestamp.diagnostic? label.bounds.start
        ++ ", end: " ++ Timestamp.diagnostic? label.bounds.stop ++ ", codec: " ++ codec
  "CodedPacket \x7b pts: " ++ Timestamp.diagnostic? p.pts ++ ", dts: " ++ Timestamp.diagnostic? p.dts
    ++ s!", keyframe: {p.keyframe}, stream: {p.stream}, size: {p.size}" ++ segment ++ " \x7d"

end Packet

structure Frame where
  payload : ByteArray
  -- the engine's own time becomes the pipeline's on delivery
  pts : Option Timestamp := none
  dts : Option Timestamp := none
  params : ImageParams := {}
  deriving DecidableEq, Inhabited

namespace Frame

def size (f : Frame) : Nat := f.payload.size

def diagnostic (f : Frame) : String :=
  "DecodedFrame \x7b pts: " ++ Timestamp.diagnostic? f.pts ++ ", dts: " ++ Timestamp.diagnostic? f.dts
    ++ s!", width: {f.params.width}, height: {f.params.height}, size: {f.size}" ++ " \x7d"

end Frame
end DecodePipeline
