import DecodePipeline.Decoder.RawVideo
import DecodePipeline.Playback.Basic
import DecodePipeline.Player.CommandLine
import DecodePipeline.Player.Documents
import DecodePipeline.Player.Log
import DecodePipeline.Recorder.StreamDump

/-!
This module contains the player: it plays a script through a pipeline with the program's own decoders
and reports what happened.
-/

namespace DecodePipeline

def programName : String := "vidflow"

def programVersion : String := "0.2.0"

namespace Player

def channelCapacity : Nat := 8

abbrev PlayerPipeline (σ : Type) := Pipeline Unit RawVideoEngine PacketChannel (StreamDump σ)

inductive Failure where
  | load (error : LoadError)
  | script (error : ScriptError)
  | decoder (error : OpenError)
  | recording (path : String) (fault : FileFault)
  | stage (error : StageError)
  deriving DecidableEq

def Failure.message : Failure → String
  | load error => error.message
  | script error => error.message
  | decoder error => s!"opening the video decoder: {error.message}"
  | recording path fault => s!"creating stream dump {path}: {fault.message}"
  | stage error => error.message

structure Outcome (σ : Type) where
  exitCode : UInt8 := 0
  output : List String := []
  journal : Array Notice := #[]
  recording : Option (StreamDump σ) := none

def fail {σ : Type} (journal : Array Notice) (failure : Failure) : Outcome σ :=
  { exitCode := 1, journal := journal.push (.failure failure.message) }

def openPipeline {σ : Type} (script : StreamScript) (codec : SharedCodec) (packets : List Packet)
    (options : DecoderOptions) (settings : Settings) (now : UInt64) :
    Except OpenError Unit × PlayerPipeline σ :=
  let pipeline : PlayerPipeline σ :=
    .create codec defaultDrivers (.ofCapacity channelCapacity) () options now
  let playing := pipeline.say (.playing packets.length script.segments.length)
  let (result, pipeline) := playing.openDecoder codec
  (result, (pipeline.setFramedrop settings.framedrop).setStart (settings.start.map Timestamp.mk))

def rounds (packets : Nat) : Nat := 16 * (packets + 8)

def begin {σ : Type} (pipeline : PlayerPipeline σ) (packets : List Packet) :
    Except StageError (Playback Unit RawVideoEngine (StreamDump σ)) :=
  Playback.start pipeline packets (some (.ofCapacity channelCapacity))

def conclude {σ : Type} (s : Playback Unit RawVideoEngine (StreamDump σ)) : Outcome σ where
  journal :=
    (s.pipeline.journal.push (.played s.taken.size)).push (.health s.pipeline.health.text)
  recording := s.pipeline.recorder

def perform {σ : Type} [ByteSink σ] (pipeline : PlayerPipeline σ) (packets : List Packet) :
    Outcome σ :=
  match begin pipeline packets with
  | .error error => fail pipeline.journal (.stage error)
  | .ok playback => conclude (playback.run (rounds packets.length))

variable {m : Type → Type} [Monad m] {σ : Type} [ByteSink σ]

def loadOptions (files : FileAccess m σ) (settings : Settings) :
    m (Except LoadError DecoderOptions) := do
  let loaded ← match settings.config with
    | some path => DecoderOptions.load files path
    | none => pure (.ok {})
  return loaded.map fun options =>
    { options with videoDecoders := settings.decoders <|> options.videoDecoders }

def loadScript (files : FileAccess m σ) (settings : Settings) :
    m (Except LoadError StreamScript) :=
  match settings.script with
  | some path => StreamScript.load files path
  | none => pure (.ok .demo)

def playThrough (files : FileAccess m σ) (settings : Settings) (pipeline : PlayerPipeline σ)
    (packets : List Packet) : m (Outcome σ) := do
  match settings.record with
  | none => return perform pipeline packets
  | some path =>
    match ← files.create path with
    | .error fault => return fail pipeline.journal (.recording path fault)
    | .ok sink =>
      let (notices, dump) := StreamDump.start path sink
      return perform ((pipeline.sayAll notices).attachRecorder dump) packets

def play (files : FileAccess m σ) (settings : Settings) (now : UInt64) : m (Outcome σ) := do
  match ← loadOptions files settings with
  | .error error => return fail #[] (.load error)
  | .ok options =>
    match ← loadScript files settings with
    | .error error => return fail #[] (.load error)
    | .ok script =>
      match script.packets with
      | .error error => return fail #[] (.script error)
      | .ok (codec, packets) =>
        match openPipeline script codec packets options settings now with
        | (.error error, pipeline) => return fail pipeline.journal (.decoder error)
        | (.ok (), pipeline) => playThrough files settings pipeline packets

def decoderLines : List String :=
  let drivers : List (Driver Unit RawVideoEngine) := defaultDrivers
  (Driver.catalogue drivers).map (·.text)

def helpLines : List String :=
  [programName,
   "",
   s!"Usage: {programName} [OPTIONS]",
   "",
   "Options:",
   "  -s, --script <FILE>    JSON stream script to play (a built-in two segment demo otherwise).",
   "  -c, --config <FILE>    JSON file with decoder options.",
   "      --framedrop        Let the decoder skip frames to catch up.",
   "      --start <SECONDS>  Drop every frame before this time (precise seek).",
   "  -r, --record <FILE>    Dump every packet sent to the decoder into FILE.",
   "      --decoders <LIST>  Decoder selection, e.g. \"rawvideo,-\" (overrides the config file).",
   "      --list-decoders    Print the available decoders and exit.",
   "  -h, --help             Print help",
   "  -V, --version          Print version"]

def run (files : FileAccess m σ) (arguments : List String) (now : UInt64) : m (Outcome σ) :=
  match CommandLine.read arguments with
  | .error error => return { exitCode := 2, output := ["error: " ++ error.message] }
  | .ok .help => return { output := helpLines }
  | .ok .version => return { output := [s!"{programName} {programVersion}"] }
  | .ok (.play settings) =>
    if settings.listDecoders then return { output := decoderLines }
    else play files settings now

end Player
end DecodePipeline
