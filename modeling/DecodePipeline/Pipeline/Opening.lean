import DecodePipeline.Decoder.Selection
import DecodePipeline.Pipeline.Basic

/-!
This module contains the opening of decoders: the decoders that the user's selection leaves are tried
in order, and the first that opens is used.
-/

namespace DecodePipeline

inductive OpenError where
  | noDecoder (codec : String)
  | allFailed (codec : String) (tried : List DecoderEntry)
  deriving DecidableEq

namespace OpenError

def message : OpenError → String
  | noDecoder codec => s!"no video decoder available for codec '{codec}'"
  | allFailed codec tried =>
    let names := ", ".intercalate (tried.map (·.qualifiedName))
    s!"failed to initialize a video decoder for codec '{codec}' (tried {names})"

end OpenError

namespace Pipeline

variable {ω ε φ ρ : Type} [Engine ω ε]

def releaseEngine (p : Pipeline ω ε φ ρ) : Pipeline ω ε φ ρ :=
  match p.engine with
  | none => p
  | some engine =>
    { p.say .uninit with engine := none, shared := (Engine.uninit engine p.shared).shared }

def prepareCodec (p : Pipeline ω ε φ ρ) (codec : SharedCodec) : Pipeline ω ε φ ρ :=
  -- Forget everything about the stream, except which segment change is going on.
  let p := { p.releaseEngine with codec, decoder := none }.resetSegment
  { p with
    segments := if p.segments.phase == .switching then p.segments else {}
    timeline := p.timeline.restartProbe }

def candidates (p : Pipeline ω ε φ ρ) : List DecoderEntry :=
  DecoderEntry.select (Driver.catalogue p.drivers) p.codec.params.codec p.options.videoDecoders

/--
Try decoders in order until one opens. Those whose driver is unknown are passed over. The result
names those that did not open, and is `none` if one did.
-/
def tryDecoders (p : Pipeline ω ε φ ρ) :
    List DecoderEntry → Option (List DecoderEntry) × Pipeline ω ε φ ρ
  | [] => (some [], p)
  | entry :: rest =>
    match Driver.find? p.drivers entry.family with
    | none => p.tryDecoders rest
    | some driver =>
      let (engine, shared) := driver.create p.shared
      let reply := Engine.init engine shared p.codec.params entry.decoder
      let p := { p.say (.opening entry.decoder) with shared := reply.shared }
      match reply.answer with
      | .ok () =>
        (none,
          { p.say (.selected entry.description) with
            engine := some reply.engine
            decoder := some entry.description })
      | .error reason =>
        let (tried, p) := (p.say (.initFailed entry.decoder reason)).tryDecoders rest
        (tried.map (entry :: ·), p)

def openDecoder (p : Pipeline ω ε φ ρ) (codec : SharedCodec) :
    Except OpenError Unit × Pipeline ω ε φ ρ :=
  -- if none opens, the pipeline is left without decoder
  let p := p.prepareCodec codec
  let name := codec.params.codec
  let p := p.sayAll (.candidates name :: p.candidates.map .candidate)
  match p.tryDecoders p.candidates with
  | (none, p) => (.ok (), p)
  | (some tried, p) =>
    (.error (if tried.isEmpty then .noDecoder name else .allFailed name tried),
      { p.say (.noDecoder name) with status := .ended })

end Pipeline
end DecodePipeline
