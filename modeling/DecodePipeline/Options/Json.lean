import DecodePipeline.Json.Typed
import DecodePipeline.Json.Writer
import DecodePipeline.Options

/-!
This module contains the JSON form of the options. Options that are missing have their default;
`null` is a value of its own for the options that may be unset.
-/

namespace DecodePipeline

def AspectMethod.names : List (String × AspectMethod) :=
  [("bitstream", .bitstream), ("container", .container)]

def StereoMode.names : List (String × StereoMode) :=
  [("mono", .mono), ("side_by_side_left_first", .sideBySideLeftFirst),
   ("side_by_side_right_first", .sideBySideRightFirst),
   ("top_bottom_left_first", .topBottomLeftFirst),
   ("top_bottom_right_first", .topBottomRightFirst)]

def Json.choice {α : Type} [BEq α] (names : List (String × α)) (value : α) : String :=
  Json.string ((names.find? (·.2 == value)).elim "" (·.1))

namespace DecoderOptions

def members : List (Json.Reader.Member DecoderOptions) :=
  [⟨"correct_pts", fun o => return { o with correctPts := ← Json.Reader.bool }⟩,
   ⟨"fallback_fps", fun o => return { o with fallbackFps := ← Json.Reader.float }⟩,
   ⟨"aspect_method",
    fun o => return { o with aspectMethod := ← Json.Reader.choice AspectMethod.names }⟩,
   ⟨"movie_aspect", fun o => return { o with movieAspect := ← .option .float }⟩,
   ⟨"video_rotate", fun o => return { o with videoRotate := ← .option .uint32 }⟩,
   ⟨"stereo_out", fun o => return { o with stereoOut := ← Json.Reader.choice StereoMode.names }⟩,
   ⟨"video_decoders", fun o => return { o with videoDecoders := ← .option .string }⟩]

def ofJson? (text : String) : Except Json.Fault DecoderOptions :=
  Json.read (Json.Reader.record members {}) text

def written (o : DecoderOptions) : List (String × String) :=
  [("correct_pts", Json.bool o.correctPts),
   ("fallback_fps", Json.float o.fallbackFps),
   ("aspect_method", Json.choice AspectMethod.names o.aspectMethod),
   ("movie_aspect", Json.option Json.float o.movieAspect),
   ("video_rotate", Json.option toString o.videoRotate),
   ("stereo_out", Json.choice StereoMode.names o.stereoOut),
   ("video_decoders", Json.option Json.string o.videoDecoders)]

def toJson (o : DecoderOptions) : String := Json.record o.written

end DecoderOptions
end DecodePipeline
