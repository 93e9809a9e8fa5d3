import DecodePipeline.Image.Ratio
import DecodePipeline.Notice
import DecodePipeline.Options

/-!
This module contains the step from the parameters that a decoder reports to those that go on with
the frame: pixel shape, rotation, stereo layout, colors and projection are settled from the
bitstream, the container and the user's options.
-/

namespace DecodePipeline.ImageParams

def maxMovieAspect : Float := 10

def movieAspectLimit : Nat := 10000

def prefersBitstream (p : ImageParams) (options : DecoderOptions) : Bool :=
  options.aspectMethod == .bitstream && 0 < p.pixelWidth && 0 < p.pixelHeight

def usesContainer (p : ImageParams) (codec : CodecParams) (options : DecoderOptions) : Bool :=
  !p.prefersBitstream options && 0 < codec.parWidth && 0 < codec.parHeight

def userAspect (options : DecoderOptions) : Option Float := options.movieAspect.filter (0 ≤ ·)

def withSquarePixels (p : ImageParams) : ImageParams := { p with pixelWidth := 1, pixelHeight := 1 }

def withContainerAspect (p : ImageParams) (codec : CodecParams) (options : DecoderOptions) :
    ImageParams :=
  if p.usesContainer codec options then
    { p with pixelWidth := codec.parWidth, pixelHeight := codec.parHeight }
  else p

def withUserAspect (p : ImageParams) (options : DecoderOptions) : ImageParams :=
  match userAspect options with
  | none => p
  | some aspect =>
    if aspect == 0 then p.withSquarePixels
    else
      let bounded := if maxMovieAspect < aspect then maxMovieAspect else aspect
      let (numerator, denominator) := Ratio.approximate bounded movieAspectLimit
      p.withDisplaySize numerator denominator

def withKnownAspect (p : ImageParams) : ImageParams :=
  if p.pixelWidth == 0 || p.pixelHeight == 0 then p.withSquarePixels else p

def rotation (codec : CodecParams) (options : DecoderOptions) : UInt32 :=
  match options.videoRotate with
  | some user => (codec.rotate % 360 + user % 360) % 360
  | none => 0

def projection (spherical : Spherical) : Spherical :=
  if spherical.kind == .auto then { spherical with kind := .none } else spherical

def derive (p : ImageParams) (codec : CodecParams) (options : DecoderOptions) : ImageParams :=
  { ((p.withContainerAspect codec options).withUserAspect options).withKnownAspect with
    color := (p.color.merge codec.color).withoutInvalidPeak
    rotate := rotation codec options
    stereoIn := codec.stereo
    stereoOut := options.stereoOut
    spherical := projection codec.spherical }

def derivationNotices (p : ImageParams) (codec : CodecParams) (options : DecoderOptions) :
    List Notice :=
  let peak := (p.color.merge codec.color).peak
  (if p.prefersBitstream options then [.bitstreamAspect] else [])
    ++ (if p.usesContainer codec options then [.containerAspect] else [])
    ++ (if (userAspect options).isSome then [.userAspect] else [])
    ++ (if isValidPeak peak then [] else [.invalidPeak peak])

end DecodePipeline.ImageParams
