import Mathlib.Data.List.Forall2
import DecodePipeline.Proofs.Pipeline.Feeding
import DecodePipeline.Proofs.Pipeline.Opening

/-!
This module contains the fact that a pipeline knows its engines and its feed only by what they answer.
If the parts of one pipeline are mapped to parts that answer alike, then the mapped pipeline does the
same.
-/

namespace DecodePipeline

def Reply.map {ω ε ω' ε' α : Type} (engine : ε → ε') (shared : ω → ω') (reply : Reply ω ε α) :
    Reply ω' ε' α :=
  ⟨reply.answer, engine reply.engine, shared reply.shared⟩

structure Likeness (ω ε φ ω' ε' φ' : Type) [Engine ω ε] [Engine ω' ε'] [PacketFeed φ]
    [PacketFeed φ'] where
  engine : ε → ε'
  shared : ω → ω'
  feed : φ → φ'
  init : ∀ (e : ε) (s : ω) (codec : CodecParams) (decoder : String),
    Engine.init (engine e) (shared s) codec decoder
      = (Engine.init e s codec decoder).map engine shared
  send : ∀ (e : ε) (s : ω) (packet : Option Packet),
    Engine.send (engine e) (shared s) packet = (Engine.send e s packet).map engine shared
  receive : ∀ (e : ε) (s : ω),
    Engine.receive (engine e) (shared s) = (Engine.receive e s).map engine shared
  control : ∀ (e : ε) (s : ω) (command : EngineCommand),
    Engine.control (engine e) (shared s) command = (Engine.control e s command).map engine shared
  uninit : ∀ (e : ε) (s : ω),
    Engine.uninit (engine e) (shared s) = (Engine.uninit e s).map engine shared
  tryRead : ∀ f : φ,
    PacketFeed.tryRead (feed f) = ((PacketFeed.tryRead f).1, feed (PacketFeed.tryRead f).2)

namespace Likeness

variable {ω ε φ ω' ε' φ' : Type} [Engine ω ε] [Engine ω' ε'] [PacketFeed φ] [PacketFeed φ']
variable (l : Likeness ω ε φ ω' ε' φ')

structure Drives (d : Driver ω ε) (d' : Driver ω' ε') : Prop where
  name : d'.name = d.name
  decoders : d'.decoders = d.decoders
  create : ∀ s, d'.create (l.shared s) = (l.engine (d.create s).1, l.shared (d.create s).2)

theorem catalogue_eq {drivers : List (Driver ω ε)} {drivers' : List (Driver ω' ε')}
    (hdrivers : List.Forall₂ l.Drives drivers drivers')
    : Driver.catalogue drivers' = Driver.catalogue drivers := by
  unfold Driver.catalogue
  induction hdrivers with
  | nil => rfl
  | cons hdriver _ ih => simp [hdriver.decoders, ih]

theorem find?_cases {drivers : List (Driver ω ε)} {drivers' : List (Driver ω' ε')}
    (hdrivers : List.Forall₂ l.Drives drivers drivers') (family : String)
    : (Driver.find? drivers family = none ∧ Driver.find? drivers' family = none)
        ∨ ∃ d d', Driver.find? drivers family = some d ∧ Driver.find? drivers' family = some d'
          ∧ l.Drives d d' := by
  unfold Driver.find?
  induction hdrivers with
  | nil => exact .inl ⟨rfl, rfl⟩
  | @cons driver driver' rest rest' hdriver _ ih =>
    simp only [List.find?_cons, hdriver.name]
    split
    . exact .inr ⟨driver, driver', rfl, rfl, hdriver⟩
    . exact ih

end Likeness

namespace Pipeline

variable {ω ε φ ω' ε' φ' ρ : Type} [Engine ω ε] [Engine ω' ε'] [PacketFeed φ] [PacketFeed φ']

def image (p : Pipeline ω ε φ ρ) (l : Likeness ω ε φ ω' ε' φ') (drivers : List (Driver ω' ε')) :
    Pipeline ω' ε' φ' ρ where
  codec := p.codec
  drivers := drivers
  options := p.options
  feed := l.feed p.feed
  shared := l.shared p.shared
  health := p.health
  now := p.now
  engine := p.engine.map l.engine
  decoder := p.decoder
  recorder := p.recorder
  ready := p.ready
  pending := p.pending
  segments := p.segments
  timeline := p.timeline
  params := p.params
  startCut := p.startCut
  framedrop := p.framedrop
  maySkip := p.maySkip
  dropped := p.dropped
  status := p.status
  journal := p.journal

variable (p : Pipeline ω ε φ ρ) (l : Likeness ω ε φ ω' ε' φ') (drivers : List (Driver ω' ε'))

theorem image_afterReply {α : Type} (reply : Reply ω ε α)
    : (p.image l drivers).afterReply (reply.map l.engine l.shared)
        = (p.afterReply reply).image l drivers := rfl

theorem image_record [PacketRecorder ρ] (packet : Packet)
    : (p.image l drivers).record packet = (p.record packet).image l drivers := by
  unfold record
  cases hrecorder : p.recorder with
  | none => simp [image, hrecorder]
  | some recorder => simp [image, hrecorder, sayAll]

theorem image_readFeed
    : (p.image l drivers).readFeed = (p.readFeed.1, p.readFeed.2.image l drivers) := by
  unfold readFeed image
  simp only [l.tryRead]

theorem image_command (request : EngineCommand)
    : (p.image l drivers).command request
        = ((p.command request).1, (p.command request).2.image l drivers) := by
  unfold command
  cases hengine : p.engine with
  | none => simp [image, hengine]
  | some engine =>
    have hcontrol := l.control engine p.shared request
    simp [image, hengine, hcontrol, Reply.map, afterReply]

theorem image_resetSegment
    : (p.image l drivers).resetSegment = p.resetSegment.image l drivers := by
  unfold resetSegment
  rw [image_command]
  rfl

theorem image_releaseEngine
    : (p.image l drivers).releaseEngine = p.releaseEngine.image l drivers := by
  unfold releaseEngine
  cases hengine : p.engine with
  | none => simp [image, hengine]
  | some engine =>
    have huninit := l.uninit engine p.shared
    simp [image, hengine, huninit, Reply.map, say]

theorem image_prepareCodec (codec : SharedCodec)
    : (p.image l drivers).prepareCodec codec = (p.prepareCodec codec).image l drivers := by
  unfold prepareCodec
  rw [image_releaseEngine]
  generalize p.releaseEngine = q
  have hreset := image_resetSegment { q with codec, decoder := none } l drivers
  dsimp only
  rw [show ({ q.image l drivers with codec, decoder := none } : Pipeline ω' ε' φ' ρ)
    = ({ q with codec, decoder := none } : Pipeline ω ε φ ρ).image l drivers from rfl, hreset]
  rfl

theorem image_openReply {d : Driver ω ε} {d' : Driver ω' ε'} (hdrives : l.Drives d d')
    (entry : DecoderEntry)
    : (p.image l drivers).openReply d' entry = (p.openReply d entry).map l.engine l.shared := by
  have hcreate : d'.create (p.image l drivers).shared
      = (l.engine (d.create p.shared).1, l.shared (d.create p.shared).2) := hdrives.create p.shared
  unfold openReply
  rw [hcreate]
  apply l.init

theorem image_attempted {d : Driver ω ε} {d' : Driver ω' ε'} (hdrives : l.Drives d d')
    (entry : DecoderEntry)
    : (p.image l drivers).attempted d' entry = (p.attempted d entry).image l drivers := by
  unfold attempted
  rw [image_openReply p l drivers hdrives]
  rfl

theorem image_tryDecoders (hdrivers : List.Forall₂ l.Drives p.drivers drivers)
    (entries : List DecoderEntry)
    : (p.image l drivers).tryDecoders entries
        = ((p.tryDecoders entries).1, (p.tryDecoders entries).2.image l drivers) := by
  induction entries generalizing p with
  | nil => rfl
  | cons entry rest ih =>
    rcases l.find?_cases hdrivers entry.family with
      ⟨hnone, hnone'⟩ | ⟨d, d', hsome, hsome', hdrives⟩
    . rw [tryDecoders_of_unknown p hnone, tryDecoders_of_unknown (p.image l drivers) hnone']
      exact ih p hdrivers
    . have hreply := image_openReply p l drivers hdrives entry
      cases hanswer : (p.openReply d entry).answer with
      | ok =>
        have hanswer' : ((p.image l drivers).openReply d' entry).answer = .ok () := by
          rw [hreply]
          exact hanswer
        rw [tryDecoders_of_ok p hsome hanswer, tryDecoders_of_ok _ hsome' hanswer',
          image_attempted p l drivers hdrives, hreply]
        rfl
      | error reason =>
        have hanswer' : ((p.image l drivers).openReply d' entry).answer = .error reason := by
          rw [hreply]
          exact hanswer
        have htried := ih ((p.attempted d entry).say (.initFailed entry.decoder reason)) hdrivers
        rw [tryDecoders_of_error p hsome hanswer, tryDecoders_of_error _ hsome' hanswer',
          image_attempted p l drivers hdrives]
        exact congrArg (fun tried => (tried.1.map (entry :: ·), tried.2)) htried

theorem image_candidates (hdrivers : List.Forall₂ l.Drives p.drivers drivers)
    : (p.image l drivers).candidates = p.candidates := by
  have himage : (p.image l drivers).drivers = drivers := rfl
  unfold candidates
  rw [himage, l.catalogue_eq hdrivers]
  rfl

theorem image_openDecoder (hdrivers : List.Forall₂ l.Drives p.drivers drivers)
    (codec : SharedCodec)
    : (p.image l drivers).openDecoder codec
        = ((p.openDecoder codec).1, (p.openDecoder codec).2.image l drivers) := by
  have hprepared : (p.prepareCodec codec).drivers = p.drivers :=
    congrArg Outline.drivers (outline_prepareCodec (.nothing ω ε) p codec)
  rw [← hprepared] at hdrivers
  unfold openDecoder
  rw [image_prepareCodec]
  generalize p.prepareCodec codec = q at *
  dsimp only
  rw [image_candidates q l drivers hdrivers]
  have hsaid : ∀ notices, (q.image l drivers).sayAll notices = (q.sayAll notices).image l drivers :=
    fun _ => rfl
  rw [hsaid]
  generalize hr : q.sayAll _ = r
  have hrdrivers : List.Forall₂ l.Drives r.drivers drivers := by
    rw [← hr]
    exact hdrivers
  rw [image_candidates r l drivers hrdrivers, image_tryDecoders r l drivers hrdrivers]
  rcases r.tryDecoders r.candidates with ⟨tried, s⟩
  cases tried <;> rfl

theorem image_compensate (pts : Timestamp)
    : (p.image l drivers).compensate pts
        = ((p.compensate pts).1, (p.compensate pts).2.image l drivers) := by
  have hrate : (p.image l drivers).delayRate = p.delayRate := rfl
  unfold compensate
  rw [hrate, image_command]
  cases p.delayRate with
  | none => rfl
  | some fps =>
    rcases p.command .getFrameDelay with ⟨answer, q⟩
    rcases answer with _ | response
    . rfl
    . cases response <;> rfl

theorem image_finishFrame (frame : Frame)
    : (p.image l drivers).finishFrame frame
        = ((p.finishFrame frame).1, (p.finishFrame frame).2.1,
            (p.finishFrame frame).2.2.image l drivers) := by
  have htime : (p.image l drivers).settleTime frame
      = ((p.settleTime frame).1, (p.settleTime frame).2.image l drivers) := rfl
  unfold finishFrame
  rw [htime]
  rcases p.settleTime frame with ⟨reconciled, q⟩
  have hparams : (q.image l drivers).settleParams frame
      = ((q.settleParams frame).1, (q.settleParams frame).2.image l drivers) := rfl
  dsimp only
  rw [hparams]
  rcases q.settleParams frame with ⟨params, r⟩
  dsimp only
  rw [image_compensate]

theorem image_switchSegment (hdrivers : List.Forall₂ l.Drives p.drivers drivers)
    : (p.image l drivers).switchSegment = p.switchSegment.image l drivers := by
  have hbegin : ∀ packet, (p.image l drivers).switching packet
      = (p.switching packet).image l drivers := fun _ => rfl
  cases hqueued : p.segments.queued with
  | none =>
    rw [switchSegment_of_queued_none p hqueued,
      switchSegment_of_queued_none (p.image l drivers) hqueued]
  | some packet =>
    cases hkind : SegmentTracker.switchKind packet p.codec with
    | «continue» =>
      rw [switchSegment_of_continue p hqueued hkind,
        switchSegment_of_continue (p.image l drivers) hqueued hkind, hbegin, image_resetSegment]
      rfl
    | reinit codec =>
      rw [switchSegment_of_reinit p hqueued hkind,
        switchSegment_of_reinit (p.image l drivers) hqueued hkind, hbegin,
        image_openDecoder (p.switching packet) l drivers hdrivers]
      rcases (p.switching packet).openDecoder codec with ⟨result, q⟩
      cases result <;> rfl

theorem image_endSegment (hdrivers : List.Forall₂ l.Drives p.drivers drivers)
    : (p.image l drivers).endSegment = p.endSegment.image l drivers := by
  have hqueued : (p.image l drivers).segments = p.segments := rfl
  unfold endSegment
  rw [hqueued]
  split
  . exact image_switchSegment p l drivers hdrivers
  . rfl

theorem image_offer (hdrivers : List.Forall₂ l.Drives p.drivers drivers) (frame : Frame)
    : (p.image l drivers).offer frame = (p.offer frame).image l drivers := by
  have hfinished : (p.finishFrame frame).2.2.drivers = p.drivers :=
    congrArg Outline.drivers (outline_finishFrame (.nothing ω ε) p frame)
  rw [← hfinished] at hdrivers
  unfold offer
  rw [image_finishFrame]
  generalize p.finishFrame frame = finished at *
  rcases finished with ⟨pts, kept, q⟩
  have hexcludes : ({ q.image l drivers with maySkip := false } : Pipeline ω' ε' φ' ρ).excludes pts
      = ({ q with maySkip := false } : Pipeline ω ε φ ρ).excludes pts := rfl
  have hpast : ∀ bounds : SegmentBounds, bounds = q.segments.bounds →
      bounds.isPastEnd pts = q.segments.bounds.isPastEnd pts := by
    rintro _ rfl
    rfl
  dsimp only at hdrivers ⊢
  rw [hexcludes]
  split
  . rw [hpast (q.image l drivers).segments.bounds rfl]
    split
    . exact image_endSegment
        { q with maySkip := false, health := q.health.recordDiscarded, status := .again } l drivers
        hdrivers
    . rfl
  . rfl

theorem image_noteMissing
    : (p.image l drivers).noteMissing = p.noteMissing.image l drivers := by
  have hskip : (p.image l drivers).maySkip = p.maySkip := rfl
  unfold noteMissing
  rw [hskip]
  split <;> rfl

theorem image_readFrame (hdrivers : List.Forall₂ l.Drives p.drivers drivers)
    : (p.image l drivers).readFrame = p.readFrame.image l drivers := by
  have hready : (p.image l drivers).ready = p.ready := rfl
  cases hengine : p.engine with
  | none =>
    have hengine' : (p.image l drivers).engine = none := by simp [image, hengine]
    rw [readFrame_of_detached p hengine, readFrame_of_detached _ hengine']
  | some engine =>
    have hengine' : (p.image l drivers).engine = some (l.engine engine) := by
      simp [image, hengine]
    have hreceive : Engine.receive (l.engine engine) (p.image l drivers).shared
        = (Engine.receive engine p.shared).map l.engine l.shared := l.receive engine p.shared
    unfold readFrame
    rw [hengine, hengine', hready]
    cases p.ready with
    | some frame => rfl
    | none =>
      dsimp only
      rw [hreceive, image_afterReply]
      have hafter : List.Forall₂ l.Drives
          (p.afterReply (Engine.receive engine p.shared)).drivers drivers := hdrivers
      generalize Engine.receive engine p.shared = reply at *
      generalize p.afterReply reply = q at *
      have hanswer : (reply.map l.engine l.shared).answer = reply.answer := rfl
      rw [hanswer]
      cases reply.answer with
      | frame frame => exact image_offer q l drivers hafter frame
      | pending =>
        dsimp only
        rw [image_noteMissing]
        rfl
      | exhausted =>
        exact image_endSegment { q with maySkip := false, status := .ended } l drivers hafter

theorem image_fillPending
    : (p.image l drivers).fillPending
        = (p.fillPending.1, p.fillPending.2.image l drivers) := by
  have hpending : (p.image l drivers).pending = p.pending := rfl
  have hsegments : (p.image l drivers).segments = p.segments := rfl
  unfold fillPending
  rw [hpending, hsegments, image_readFeed]
  split
  . rfl
  . rcases p.readFeed with ⟨poll, q⟩
    cases poll <;> rfl

theorem image_holdNewSegment
    : (p.image l drivers).holdNewSegment = p.holdNewSegment.image l drivers := by
  have hpending : (p.image l drivers).pending = p.pending := rfl
  have hstarts : (p.image l drivers).startsSegment = p.startsSegment := rfl
  unfold holdNewSegment
  rw [hpending, hstarts]
  cases p.pending.filter p.startsSegment <;> rfl

theorem image_sendReply (engine : ε) (framedrop : FrameDrop)
    : (p.image l drivers).sendReply (l.engine engine) framedrop
        = (p.sendReply engine framedrop).map l.engine l.shared := by
  have hcontrol : Engine.control (l.engine engine) (p.image l drivers).shared
      (.setFrameDrop framedrop)
      = (Engine.control engine p.shared (.setFrameDrop framedrop)).map l.engine l.shared :=
    l.control engine p.shared (.setFrameDrop framedrop)
  unfold sendReply
  dsimp only
  rw [hcontrol]
  apply l.send

theorem image_sendTo (engine : ε) (framedrop : FrameDrop)
    : (p.image l drivers).sendTo (l.engine engine) framedrop
        = ((p.sendTo engine framedrop).1, (p.sendTo engine framedrop).2.image l drivers) := by
  have hreply := image_sendReply p l drivers engine framedrop
  have hunfold : ∀ reply : Reply ω ε Bool,
      (p.image l drivers).afterReply (reply.map l.engine l.shared)
        = (p.afterReply reply).image l drivers := fun _ => rfl
  unfold sendReply at hreply
  unfold sendTo
  dsimp only at hreply ⊢
  rw [hreply]
  rfl

theorem image_acceptPending [PacketRecorder ρ]
    : (p.image l drivers).acceptPending = p.acceptPending.image l drivers := by
  have hpending : (p.image l drivers).pending = p.pending := rfl
  unfold acceptPending
  rw [hpending]
  cases p.pending with
  | none => rfl
  | some packet =>
    have hrecord := image_record { p with pending := none } l drivers packet
    exact congrArg (fun q => { q with health := q.health.recordPacket packet.size }) hrecord

theorem image_retryPending
    : (p.image l drivers).retryPending = p.retryPending.image l drivers := by
  have hpending : (p.image l drivers).pending = p.pending := rfl
  unfold retryPending
  rw [hpending]
  split <;> rfl

theorem image_sendPending [PacketRecorder ρ] (engine : ε)
    : (p.image l drivers).sendPending (l.engine engine)
        = (p.sendPending engine).image l drivers := by
  have hframedrop : (p.image l drivers).pendingFrameDrop = p.pendingFrameDrop := rfl
  unfold sendPending
  dsimp only
  rw [hframedrop, image_sendTo]
  rcases p.sendTo engine p.pendingFrameDrop with ⟨accepted, q⟩
  cases accepted with
  | true =>
    dsimp only
    rw [image_acceptPending]
    rfl
  | false =>
    dsimp only
    rw [image_retryPending]
    rfl

theorem image_feedPacket [PacketRecorder ρ]
    : (p.image l drivers).feedPacket = p.feedPacket.image l drivers := by
  have hengine : (p.image l drivers).engine = p.engine.map l.engine := rfl
  have hready : (p.image l drivers).ready = p.ready := rfl
  unfold feedPacket
  rw [hengine, hready, image_fillPending]
  cases p.engine with
  | none => rfl
  | some engine =>
    cases p.ready with
    | some frame => rfl
    | none =>
      rcases p.fillPending with ⟨waits, q⟩
      cases waits with
      | true => rfl
      | false =>
        dsimp only [Option.map_some]
        rw [image_holdNewSegment, image_sendPending]

theorem image_doWork [PacketRecorder ρ] (hdrivers : List.Forall₂ l.Drives p.drivers drivers)
    : (p.image l drivers).doWork = p.doWork.image l drivers := by
  have hengine : (p.image l drivers).engine.isNone = p.engine.isNone := by simp [image]
  have hfeed : List.Forall₂ l.Drives p.readFrame.feedPacket.drivers drivers := by
    rw [feedPacket_drivers, readFrame_drivers]
    exact hdrivers
  have hready : ∀ q : Pipeline ω ε φ ρ, (q.image l drivers).ready = q.ready := fun _ => rfl
  have hstatus : ∀ q : Pipeline ω ε φ ρ, (q.image l drivers).status = q.status := fun _ => rfl
  unfold doWork
  simp only [hengine, image_readFrame p l drivers hdrivers, hready, image_feedPacket, hstatus,
    image_readFrame _ l drivers hfeed]
  split
  . rfl
  . split
    . rfl
    . split <;> rfl

theorem image_getFrame
    : (p.image l drivers).getFrame
        = (p.getFrame.1, p.getFrame.2.1, p.getFrame.2.2.image l drivers) := by
  have hready : (p.image l drivers).ready = p.ready := rfl
  unfold getFrame
  rw [hready]
  cases p.ready <;> rfl

theorem image_reset : (p.image l drivers).reset = p.reset.image l drivers := by
  have hengine : ∀ q : Pipeline ω ε φ ρ, (q.image l drivers).engine.isNone = q.engine.isNone := by
    simp [image]
  have hsay : (p.image l drivers).say .reset = (p.say .reset).image l drivers := rfl
  unfold reset
  rw [hsay, image_resetSegment]
  generalize (p.say .reset).resetSegment = q
  dsimp only
  rw [hengine]
  rfl

variable [PacketRecorder ρ] {lift : (φ' → φ') → φ → φ}

theorem image_perform (hdrivers : List.Forall₂ l.Drives p.drivers drivers)
    (hlift : ∀ change f, l.feed (lift change f) = change (l.feed f)) (operation : Operation φ' ρ)
    : (p.image l drivers).perform operation
        = (p.perform (operation.lift lift)).image l drivers := by
  cases operation with
  | work => exact image_doWork p l drivers hdrivers
  | take => exact congrArg (·.2.2) (image_getFrame p l drivers)
  | reset => exact image_reset p l drivers
  | openDecoder codec => exact congrArg (·.2) (image_openDecoder p l drivers hdrivers codec)
  | refill change =>
    have hfeed := hlift change p.feed
    simp [perform, Operation.lift, image, hfeed]
  | setStart | setFramedrop | resetParams | attachRecorder | detachRecorder | wait => rfl

theorem image_after (hdrivers : List.Forall₂ l.Drives p.drivers drivers)
    (hlift : ∀ change f, l.feed (lift change f) = change (l.feed f))
    (operations : List (Operation φ' ρ))
    : (p.image l drivers).after operations
        = (p.after (operations.map (·.lift lift))).image l drivers := by
  induction operations generalizing p with
  | nil => rfl
  | cons operation operations ih =>
    rw [after_cons, image_perform p l drivers hdrivers hlift, List.map_cons, after_cons]
    apply ih
    rw [perform_drivers]
    exact hdrivers

end Pipeline
end DecodePipeline
