import DecodePipeline.Decoder.Entry
import DecodePipeline.Packet

/-!
This module contains everything that the pipeline and the parts around it have to say to the user
while they run. A notice is a value; its wording is in `Notice.text`.
-/

namespace DecodePipeline

inductive Level where
  | error
  | warn
  | info
  | debug
  deriving DecidableEq

inductive Origin where
  | player
  | pipeline
  | stage
  | timeline
  | images
  | recorder
  deriving DecidableEq

inductive Notice where
  | missingPts (fps : Float)
  | furtherMissingPts
  | bitstreamAspect
  | containerAspect
  | userAspect
  | invalidPeak (peak : Float32)
  | decoderFormat (params : ImageParams)
  | uninit
  | candidates (codec : String)
  | candidate (entry : DecoderEntry)
  | opening (decoder : String)
  | selected (description : String)
  | initFailed (decoder reason : String)
  | noDecoder (codec : String)
  | reset
  | newSegment (time : Option Timestamp)
  | switching (bounds : SegmentBounds) (newCodec : Bool)
  | switchFailed (reason : String)
  | stageStarted (decoder : Option String)
  | noInput (threshold : String)
  | outputClosed
  | stageFinished (frames dropped : Nat)
  | recording (path : String)
  | recorded (packets bytes : Nat)
  | flushFailed (path reason : String)
  | writeFailed (path reason : String)
  | playing (packets segments : Nat)
  | played (frames : Nat)
  | health (summary : String)
  | failure (reason : String)
  deriving DecidableEq

namespace Notice

def level : Notice → Level
  | noDecoder _ | switchFailed _ | flushFailed .. | writeFailed .. | failure _ => .error
  | missingPts _ | furtherMissingPts | invalidPeak _ | initFailed .. | noInput _ => .warn
  | selected _ | switching .. | stageStarted _ | outputClosed | stageFinished .. | recording _
  | recorded .. | playing .. | played _ | health _ => .info
  | bitstreamAspect | containerAspect | userAspect | decoderFormat _ | uninit | candidates _
  | candidate _ | opening _ | reset | newSegment _ => .debug

def origin : Notice → Origin
  | missingPts _ | furtherMissingPts => .timeline
  | bitstreamAspect | containerAspect | userAspect | invalidPeak _ | decoderFormat _ => .images
  | uninit | candidates _ | candidate _ | opening _ | selected _ | initFailed .. | noDecoder _
  | reset | newSegment _ | switching .. | switchFailed _ => .pipeline
  | stageStarted _ | noInput _ | outputClosed | stageFinished .. => .stage
  | recording _ | recorded .. | flushFailed .. | writeFailed .. => .recorder
  | playing .. | played _ | health _ | failure _ => .player

def text : Notice → String
  | missingPts fps =>
    let rate := (Binary.ofFloat fps).text .plain
    s!"Timestamps: no video PTS, making something up using {rate} FPS"
  | furtherMissingPts => "Timestamps: ignoring further missing PTS warnings"
  | bitstreamAspect => "Decoder: using bitstream aspect ratio"
  | containerAspect => "Decoder: using container aspect ratio"
  | userAspect => "Decoder: forcing user-set aspect ratio"
  | invalidPeak peak =>
    "Decoder: invalid HDR peak in stream: " ++ (Binary.ofFloat32 peak).text .plain
  | decoderFormat params => "Decoder: format " ++ params.text
  | uninit => "VideoPipeline: uninit video"
  | candidates codec => s!"VideoPipeline: codec list for '{codec}':"
  | candidate entry => "VideoPipeline:     " ++ entry.text
  | opening decoder => s!"VideoPipeline: opening video decoder {decoder}"
  | selected description => s!"VideoPipeline: selected video codec: {description}"
  | initFailed decoder reason => s!"VideoPipeline: video decoder init failed for {decoder}: {reason}"
  | noDecoder codec => s!"VideoPipeline: failed to initialize a video decoder for codec '{codec}'"
  | reset => "VideoPipeline: reset"
  | newSegment time =>
    "VideoPipeline: new segment at " ++ Timestamp.diagnostic? time ++ ", draining current one"
  | switching bounds newCodec =>
    "VideoPipeline: switching to segment " ++ Timestamp.diagnostic? bounds.start ++ ".."
      ++ Timestamp.diagnostic? bounds.stop ++ if newCodec then " (new codec)" else ""
  | switchFailed reason => s!"VideoPipeline: segment switch failed: {reason}"
  | stageStarted decoder => "DecodeStage: started (" ++ decoder.getD "no decoder" ++ ")"
  | noInput threshold => s!"DecodeStage: no input for {threshold}, still waiting"
  | outputClosed => "DecodeStage: output channel closed"
  | stageFinished frames dropped =>
    s!"DecodeStage: finished ({frames} frames, {dropped} dropped by decoder)"
  | recording path => s!"StreamDump: recording to {path}"
  | recorded packets bytes => s!"StreamDump: finished ({packets} packets, {bytes} bytes)"
  | flushFailed path reason => s!"StreamDump: flushing {path} failed: {reason}"
  | writeFailed path reason => s!"StreamDump: write to {path} failed: {reason}"
  | playing packets segments => s!"Playing {packets} packets in {segments} segments"
  | played frames => s!"Done: {frames} frames"
  | health summary => summary
  | failure reason => reason

end Notice
end DecodePipeline
