import DecodePipeline.Image.Params

/-!
This module contains the description of a coded stream and the sharing of one description by many
packets.
-/

namespace DecodePipeline

structure CodecParams where
  codec : String := ""
  fps : Option Float := none
  aviDts : Bool := false
  parWidth : UInt32 := 0
  parHeight : UInt32 := 0
  width : UInt32 := 0
  height : UInt32 := 0
  rotate : UInt32 := 0
  stereo : StereoMode := .mono
  color : ColorParams := {}
  spherical : Spherical := {}
  deriving BEq, DecidableEq, Inhabited

namespace CodecParams

def ofCodec (codec : String) : CodecParams := { codec }

def withFps (c : CodecParams) (fps : Float) : CodecParams := { c with fps := some fps }

def withSize (c : CodecParams) (width height : UInt32) : CodecParams := { c with width, height }

def frameRate (c : CodecParams) : Option Float := c.fps.filter (0 < ·)

end CodecParams

/--
A description that several packets share. Packets that share one description have the same `ident`,
which tells them from packets that carry a copy of it.
-/
structure SharedCodec where
  ident : Nat
  params : CodecParams
  deriving DecidableEq, Inhabited

namespace SharedCodec

/--
Two descriptions mean the same codec if they are one shared description or all their parts are
equal. The first matters for a description with a part that is not a number, since such a part does
not equal itself.
-/
def same (a b : SharedCodec) : Bool := a.ident == b.ident || a.params == b.params

theorem same_self (c : SharedCodec) : c.same c = true := by simp [same]

end SharedCodec
end DecodePipeline
