import DecodePipeline.Decimal.Layout
import DecodePipeline.Image.Color

/-!
This module contains the parameters that describe a picture: its size, the shape of its pixels, its
colors, and how it is to be shown.
-/

namespace DecodePipeline

inductive StereoMode where
  | mono
  | sideBySideLeftFirst
  | sideBySideRightFirst
  | topBottomLeftFirst
  | topBottomRightFirst
  deriving DecidableEq, Inhabited

inductive SphericalKind where
  | auto
  | none
  | unknown
  | equirect
  deriving DecidableEq

structure Spherical where
  kind : SphericalKind := .auto
  yaw : Float32 := 0
  pitch : Float32 := 0
  roll : Float32 := 0
  deriving BEq, DecidableEq, Inhabited

structure ImageParams where
  pixelFormat : UInt32 := 0
  width : UInt32 := 0
  height : UInt32 := 0
  -- The shape of a pixel is `pixelWidth : pixelHeight`, and unknown if one of them is zero.
  pixelWidth : UInt32 := 0
  pixelHeight : UInt32 := 0
  color : ColorParams := {}
  rotate : UInt32 := 0
  stereoIn : StereoMode := .mono
  stereoOut : StereoMode := .mono
  spherical : Spherical := {}
  deriving BEq, DecidableEq, Inhabited

namespace ImageParams

def ofSize (width height : UInt32) : ImageParams := { width, height }

def text (p : ImageParams) : String :=
  let peak := (Binary.ofFloat32 p.color.peak).text .plain
  s!"{p.width}x{p.height} [{p.pixelWidth}:{p.pixelHeight}] fmt={p.pixelFormat} "
    ++ s!"rot={p.rotate} peak={peak}"

end ImageParams
end DecodePipeline
