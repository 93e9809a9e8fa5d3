import DecodePipeline.Json.Typed
import DecodePipeline.Script.Basic

/-!
This module contains the reading of scripts from JSON.
-/

namespace DecodePipeline

def SegmentScript.members : List (Json.Reader.Member SegmentScript) :=
  [⟨"codec", fun s => return { s with codec := ← Json.Reader.string }⟩,
   ⟨"width", fun s => return { s with width := ← Json.Reader.uint32 }⟩,
   ⟨"height", fun s => return { s with height := ← Json.Reader.uint32 }⟩,
   ⟨"fps", fun s => return { s with fps := ← .option .float }⟩,
   ⟨"frames", fun s => return { s with frames := ← Json.Reader.uint32 }⟩,
   ⟨"first_pts", fun s => return { s with firstPts := ← Json.Reader.float }⟩,
   ⟨"start", fun s => return { s with start := ← .option .float }⟩,
   ⟨"end", fun s => return { s with stop := ← .option .float }⟩,
   ⟨"avi_dts", fun s => return { s with aviDts := ← Json.Reader.bool }⟩,
   ⟨"missing_pts", fun s => return { s with missingPts := ← Json.Reader.bool }⟩,
   ⟨"keyframe_interval", fun s => return { s with keyframeInterval := ← Json.Reader.uint32 }⟩]

def StreamScript.members : List (Json.Reader.Member StreamScript) :=
  [⟨"segments", fun _ =>
    return { segments := ← Json.Reader.list (Json.Reader.record SegmentScript.members {}) }⟩]

def StreamScript.ofJson? (text : String) : Except Json.Fault StreamScript :=
  Json.read (Json.Reader.record members {}) text

end DecodePipeline
