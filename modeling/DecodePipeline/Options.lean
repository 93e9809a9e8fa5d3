import DecodePipeline.Image.Params

/-!
This module contains the options with which the user influences decoding.
-/

namespace DecodePipeline

inductive AspectMethod where
  | bitstream
  | container
  deriving DecidableEq, Inhabited

structure DecoderOptions where
  correctPts : Bool := true
  fallbackFps : Float := 25
  aspectMethod : AspectMethod := .bitstream
  movieAspect : Option Float := none
  videoRotate : Option UInt32 := some 0
  stereoOut : StereoMode := .mono
  videoDecoders : Option String := none
  deriving BEq, DecidableEq, Inhabited

namespace DecoderOptions

def effectiveFps (o : DecoderOptions) (containerFps : Option Float) : Float :=
  match containerFps.filter (0 < ·) with
  | some fps => fps
  | none => if 0 < o.fallbackFps then o.fallbackFps else 25

end DecoderOptions
end DecodePipeline
