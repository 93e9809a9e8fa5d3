import DecodePipeline.Decoder.RawVideo
import DecodePipeline.Proofs.Float.Times
import DecodePipeline.Proofs.Pipeline.Feeding

/-!
This module contains what a pipeline makes of the pictures of the engine for uncompressed video: they
keep their times and sizes, and they are kept unless their segment excludes their time.
-/

namespace DecodePipeline

namespace ImageParams

def size (p : ImageParams) : UInt32 × UInt32 := (p.width, p.height)

theorem size_withDisplaySize (p : ImageParams) (displayWidth displayHeight : Nat)
    : (p.withDisplaySize displayWidth displayHeight).size = p.size := rfl

theorem size_withContainerAspect (p : ImageParams) (codec : CodecParams) (options : DecoderOptions)
    : (p.withContainerAspect codec options).size = p.size := by
  unfold withContainerAspect
  split <;> rfl

theorem size_withUserAspect (p : ImageParams) (options : DecoderOptions)
    : (p.withUserAspect options).size = p.size := by
  unfold withUserAspect
  split
  . rfl
  . split
    . rfl
    . apply size_withDisplaySize

theorem size_withKnownAspect (p : ImageParams) : p.withKnownAspect.size = p.size := by
  unfold withKnownAspect
  split <;> rfl

theorem size_derive (p : ImageParams) (codec : CodecParams) (options : DecoderOptions)
    : (p.derive codec options).size = p.size := by
  have hderive : (p.derive codec options).size
      = ((p.withContainerAspect codec options).withUserAspect options).withKnownAspect.size := rfl
  rw [hderive, size_withKnownAspect, size_withUserAspect, size_withContainerAspect]

end ImageParams

namespace ParamsCache

def Holds (cache : ParamsCache) (size : UInt32 × UInt32) : Prop :=
  cache.last.isSome → cache.derived.size = size

theorem holds_empty (size : UInt32 × UInt32) : ({} : ParamsCache).Holds size := by
  intro hlast
  cases hlast

theorem apply_size {cache : ParamsCache} {incoming : ImageParams} (hcache : cache.Holds incoming.size)
    (codec : CodecParams) (options : DecoderOptions)
    : (cache.apply incoming codec options).1.size = incoming.size
        ∧ (cache.apply incoming codec options).2.Holds incoming.size := by
  unfold apply
  split
  . next hhit =>
    have hlast : cache.last.isSome := by
      unfold hit at hhit
      cases hlast : cache.last with
      | none =>
        rw [hlast] at hhit
        cases hhit
      | some last => rfl
    exact ⟨hcache hlast, hcache⟩
  . exact ⟨ImageParams.size_derive .., fun _ => ImageParams.size_derive ..⟩

end ParamsCache

structure Picture where
  payload : ByteArray
  pts : Option Timestamp
  size : UInt32 × UInt32

def Frame.picture (f : Frame) : Picture := ⟨f.payload, f.pts, f.params.size⟩

structure Core (ω ε φ : Type) where
  codec : SharedCodec
  drivers : List (Driver ω ε)
  options : DecoderOptions
  feed : φ
  engine : Option ε
  ready : Option Frame
  pending : Option Packet
  segments : SegmentTracker
  params : ParamsCache
  startCut : Option Timestamp

namespace Pipeline

variable {ω ε φ ρ : Type}

def core (p : Pipeline ω ε φ ρ) : Core ω ε φ where
  codec := p.codec
  drivers := p.drivers
  options := p.options
  feed := p.feed
  engine := p.engine
  ready := p.ready
  pending := p.pending
  segments := p.segments
  params := p.params
  startCut := p.startCut

theorem core_noteMissing (p : Pipeline ω ε φ ρ) : p.noteMissing.core = p.core := by
  unfold noteMissing
  split <;> rfl

theorem core_record [PacketRecorder ρ] (p : Pipeline ω ε φ ρ) (packet : Packet)
    : (p.record packet).core = p.core := by
  unfold record
  split <;> rfl

theorem core_acceptPending [PacketRecorder ρ] (p : Pipeline ω ε φ ρ)
    : p.acceptPending.core = { p.core with pending := none } := by
  unfold acceptPending
  split
  . next hpending => simp [core, hpending]
  . next packet hpending => exact core_record { p with pending := none } packet

theorem core_settleTime (p : Pipeline ω ε φ ρ) (frame : Frame)
    : (p.settleTime frame).2.core = p.core := by
  unfold settleTime
  simp only [core, sayAll]

theorem settleTime_pts (p : Pipeline ω ε φ ρ) (frame : Frame) {t : Timestamp}
    (hoptions : p.options = {}) (hpts : frame.pts = none ∨ frame.pts = some t)
    (hdts : frame.dts = some t)
    : (p.settleTime frame).1 = t := by
  have hcorrect : p.options.correctPts = true := by rw [hoptions]
  have hchosen (r : Reconciler) : r.chosen frame.pts frame.dts = some t := by
    unfold Reconciler.chosen
    rw [hdts]
    rcases hpts with hpts | hpts
    . simp [hpts]
    . simp [hpts]
  unfold settleTime Reconciler.reconcile
  rw [hcorrect]
  simp only [hchosen, Option.filter_some, if_true]

theorem core_settleParams (p : Pipeline ω ε φ ρ) (frame : Frame)
    : (p.settleParams frame).2.core
        = { p.core with
            params := (p.params.apply frame.params p.codec.params p.options).2 } := by
  unfold settleParams
  simp only [core, sayAll]

theorem settleParams_fst (p : Pipeline ω ε φ ρ) (frame : Frame)
    : (p.settleParams frame).1 = (p.params.apply frame.params p.codec.params p.options).1 := by
  unfold settleParams
  rfl

theorem endSegment_of_queued_none {ε : Type} [Engine ω ε] (p : Pipeline ω ε φ ρ)
    (hqueued : p.segments.queued = none)
    : p.endSegment = p := by
  unfold endSegment SegmentTracker.hasQueued
  rw [hqueued]
  rfl

theorem endSegment_of_queued {ε : Type} [Engine ω ε] (p : Pipeline ω ε φ ρ) {packet : Packet}
    (hqueued : p.segments.queued = some packet)
    : p.endSegment = p.switchSegment := by
  unfold endSegment SegmentTracker.hasQueued
  rw [hqueued]
  rfl

structure Steady (p : Pipeline ω RawVideoEngine φ ρ) (e : RawVideoEngine) : Prop where
  engine : p.engine = some e
  drivers : p.drivers = defaultDrivers
  options : p.options = {}
  startCut : p.startCut = none
  ready : p.ready = none
  params : e.params = some (.ofSize p.codec.params.width p.codec.params.height)
  cache : p.params.Holds (p.codec.params.width, p.codec.params.height)

structure Running (p : Pipeline ω RawVideoEngine φ ρ) (e : RawVideoEngine) : Prop where
  engine : p.engine = some e
  ready : p.ready = none
  params : e.params.isSome

theorem Steady.running {p : Pipeline ω RawVideoEngine φ ρ} {e : RawVideoEngine}
    (hsteady : p.Steady e)
    : p.Running e :=
  ⟨hsteady.engine, hsteady.ready, Option.isSome_of_eq_some hsteady.params⟩

def withEngine {ε : Type} (p : Pipeline ω ε φ ρ) (e : ε) : Pipeline ω ε φ ρ :=
  { p with engine := some e }

section Frames

variable {p : Pipeline ω RawVideoEngine φ ρ} {e : RawVideoEngine}

theorem compensate_of_engine (hengine : p.engine = some e) (pts : Timestamp)
    : (p.compensate pts).1 = pts ∧ (p.compensate pts).2.core = p.core := by
  have hcommand : p.command .getFrameDelay = (some (.frameDelay 0), { p with engine := some e }) := by
    unfold command
    rw [hengine]
    rfl
  unfold compensate
  split
  . exact ⟨rfl, rfl⟩
  . next fps hrate =>
    have hfps : 0 < fps := by
      unfold delayRate CodecParams.frameRate at hrate
      split at hrate
      . rw [Option.filter_eq_some_iff] at hrate
        exact decide_eq_true_eq.mp hrate.2
      . cases hrate
    rw [hcommand]
    refine ⟨compensateDelay_zero pts hfps, ?_⟩
    simp [core, hengine]

theorem finishFrame_of_engine (hengine : p.engine = some e) (frame : Frame)
    : let pts := (p.settleTime frame).1
      let derived := p.params.apply frame.params p.codec.params p.options
      ∃ q, p.finishFrame frame = (pts, { frame with pts := some pts, params := derived.1 }, q)
        ∧ q.core = { p.core with params := derived.2 } := by
  have htimed := core_settleTime p frame
  unfold finishFrame
  rcases hsettled : p.settleTime frame with ⟨reconciled, timed⟩
  rw [hsettled] at htimed
  dsimp only at htimed ⊢
  have hcodec : timed.codec = p.codec := congrArg Core.codec htimed
  have hoptions : timed.options = p.options := congrArg Core.options htimed
  have hcache : timed.params = p.params := congrArg Core.params htimed
  have hparams := settleParams_fst timed frame
  have hshaped := core_settleParams timed frame
  rw [hcache, hcodec, hoptions] at hparams
  rw [htimed, hcache, hcodec, hoptions] at hshaped
  rcases hderived : timed.settleParams frame with ⟨params, shaped⟩
  rw [hderived] at hparams hshaped
  dsimp only at hparams hshaped ⊢
  have hcompensated := compensate_of_engine
    ((congrArg Core.engine hshaped).trans hengine) reconciled
  rcases hdelayed : shaped.compensate reconciled with ⟨pts, delayed⟩
  rw [hdelayed] at hcompensated
  rcases hcompensated with ⟨hpts, hcore⟩
  dsimp only at hpts hcore ⊢
  rw [hpts, hparams]
  exact ⟨delayed, rfl, hcore.trans hshaped⟩

theorem finishFrame_spec (hsteady : p.Steady e) {frame : Frame} {t : Timestamp}
    (hpts : frame.pts = none ∨ frame.pts = some t) (hdts : frame.dts = some t)
    (hsize : frame.params.size = (p.codec.params.width, p.codec.params.height))
    : ∃ params cache q, p.finishFrame frame = (t, { frame with pts := some t, params }, q)
        ∧ params.size = frame.params.size
        ∧ q.core = { p.core with params := cache } ∧ cache.Holds frame.params.size := by
  have hcache : p.params.Holds frame.params.size := by
    rw [hsize]
    exact hsteady.cache
  have happly := ParamsCache.apply_size hcache p.codec.params p.options
  rcases finishFrame_of_engine hsteady.engine frame with ⟨q, hfinish, hcore⟩
  rw [settleTime_pts p frame hsteady.options hpts hdts] at hfinish
  exact ⟨_, _, q, hfinish, happly.1, hcore, happly.2⟩

theorem excludes_of_core {q : Pipeline ω RawVideoEngine φ ρ} {cache : ParamsCache}
    (hcore : q.core = { p.core with params := cache }) (pts : Timestamp)
    : q.excludes pts = p.excludes pts := by
  have hsegments : q.segments = p.segments := congrArg Core.segments hcore
  have hstart : q.startCut = p.startCut := congrArg Core.startCut hcore
  unfold excludes
  rw [hsegments, hstart]

theorem getFrame_of_none {s : Status} (hready : p.ready = none) (hstatus : p.status = s)
    (hnone : s ≠ .ready)
    : p.getFrame = (none, s, p) := by
  unfold getFrame
  rw [hready, hstatus]
  dsimp only
  rw [if_neg (mt beq_iff_eq.mp hnone)]

theorem offer_spec (hsteady : p.Steady e) (hqueued : p.segments.queued = none) {frame : Frame}
    {t : Timestamp} (hpts : frame.pts = none ∨ frame.pts = some t) (hdts : frame.dts = some t)
    (hsize : frame.params.size = (p.codec.params.width, p.codec.params.height))
    : ∃ cache, cache.Holds frame.params.size
        ∧ (p.offer frame).getFrame.2.2.core = { p.core with params := cache }
        ∧ (p.offer frame).getFrame.2.1 = (if p.excludes t then .again else .ready)
        ∧ (p.offer frame).getFrame.1.map Frame.picture
            = if p.excludes t then none else some ⟨frame.payload, some t, frame.params.size⟩ := by
  rcases finishFrame_spec hsteady hpts hdts hsize
    with ⟨params, cache, q, hfinish, hparams, hcore, hcache⟩
  refine ⟨cache, hcache, ?_⟩
  have hready : q.ready = none := (congrArg Core.ready hcore).trans hsteady.ready
  have hqueued' : q.segments.queued = none := (congrArg (·.segments.queued) hcore).trans hqueued
  have hexcludes : ({ q with maySkip := false } : Pipeline ω RawVideoEngine φ ρ).excludes t
      = p.excludes t := excludes_of_core (q := { q with maySkip := false }) hcore t
  unfold offer
  rw [hfinish]
  dsimp only
  rw [hexcludes]
  cases p.excludes t with
  | true =>
    have hagain : Status.again ≠ .ready := by decide
    rw [if_pos rfl, endSegment_of_queued_none, ite_self, getFrame_of_none _ rfl hagain]
    . exact ⟨hcore, rfl, rfl⟩
    . exact hready
    . exact hqueued'
  | false =>
    rw [if_neg Bool.false_ne_true]
    refine ⟨?_, rfl, congrArg some ?_⟩
    . rw [← hcore]
      unfold core
      rw [hready]
      rfl
    . exact congrArg (Picture.mk frame.payload (some t)) hparams

theorem offer_of_queued_none (hengine : p.engine = some e) (hready : p.ready = none)
    (hqueued : p.segments.queued = none) (frame : Frame)
    : ∃ cache, (p.offer frame).getFrame.2.2.core = { p.core with params := cache }
        ∧ (p.offer frame).status = if (p.offer frame).ready.isSome then .ready else .again := by
  rcases finishFrame_of_engine hengine frame with ⟨q, hfinish, hcore⟩
  have hready' : q.ready = none := (congrArg Core.ready hcore).trans hready
  have hqueued' : q.segments.queued = none := (congrArg (·.segments.queued) hcore).trans hqueued
  refine ⟨(p.params.apply frame.params p.codec.params p.options).2, ?_⟩
  rw [← hcore]
  unfold offer
  rw [hfinish]
  dsimp only
  split
  . have hagain : Status.again ≠ .ready := by decide
    rw [endSegment_of_queued_none, ite_self, getFrame_of_none _ rfl hagain]
    . refine ⟨rfl, ?_⟩
      dsimp only
      rw [hready']
      rfl
    . exact hready'
    . exact hqueued'
  . refine ⟨?_, rfl⟩
    unfold core
    rw [hready']
    rfl

theorem readFrame_of_attached (hengine : p.engine = some e) (hready : p.ready = none)
    : p.readFrame
        = match e.receive.1 with
          | .frame frame => (p.withEngine e.receive.2).offer frame
          | .pending =>
            { (p.withEngine e.receive.2).noteMissing with maySkip := false, status := .again }
          | .exhausted =>
            { p.withEngine e.receive.2 with maySkip := false, status := .ended }.endSegment := by
  unfold readFrame
  rw [hengine, hready]
  rfl

theorem withEngine_self (hengine : p.engine = some e) : p.withEngine e = p := by
  unfold withEngine
  rw [← hengine]

theorem readFrame_of_idle (hrunning : p.Running e) (hqueue : e.queue = [])
    (hdraining : e.draining = false)
    : p.readFrame = { p.noteMissing with maySkip := false, status := .again } := by
  have hreceive : e.receive = (.pending, e) := by
    unfold RawVideoEngine.receive RawVideoEngine.isOpen
    rw [hqueue, hdraining, hrunning.params]
    rfl
  rw [readFrame_of_attached hrunning.engine hrunning.ready, hreceive, withEngine_self hrunning.engine]

theorem core_readFrame_of_idle (hrunning : p.Running e) (hqueue : e.queue = [])
    (hdraining : e.draining = false)
    : p.readFrame.core = p.core ∧ p.readFrame.status = .again := by
  rw [readFrame_of_idle hrunning hqueue hdraining]
  exact ⟨core_noteMissing p, rfl⟩

theorem readFrame_of_drained (hrunning : p.Running e) (hqueue : e.queue = [])
    (hdraining : e.draining = true)
    : p.readFrame = { p with maySkip := false, status := .ended }.endSegment := by
  have hreceive : e.receive = (.exhausted, e) := by
    unfold RawVideoEngine.receive
    rw [hqueue, hdraining]
    rfl
  rw [readFrame_of_attached hrunning.engine hrunning.ready, hreceive, withEngine_self hrunning.engine]

theorem readFrame_of_frame (hrunning : p.Running e) {frame : Frame} {queue : List Frame}
    (hqueue : e.queue = frame :: queue)
    : p.readFrame = (p.withEngine { e with queue }).offer frame := by
  have hreceive : e.receive = (.frame frame, { e with queue }) := by
    unfold RawVideoEngine.receive
    rw [hqueue]
  rw [readFrame_of_attached hrunning.engine hrunning.ready, hreceive]

theorem Running.update {q : Pipeline ω RawVideoEngine φ ρ} {e' : RawVideoEngine} {feed : φ}
    {pending : Option Packet} {segments : SegmentTracker} {cache : ParamsCache}
    (hrunning : p.Running e)
    (hcore : q.core = { p.core with engine := some e', feed, pending, segments, params := cache })
    (hparams : e'.params = e.params)
    : q.Running e' := by
  refine ⟨congrArg Core.engine hcore, (congrArg Core.ready hcore).trans hrunning.ready, ?_⟩
  rw [hparams]
  exact hrunning.params

theorem Steady.update {q : Pipeline ω RawVideoEngine φ ρ} {e' : RawVideoEngine} {feed : φ}
    {pending : Option Packet} {segments : SegmentTracker} {cache : ParamsCache}
    (hsteady : p.Steady e)
    (hcore : q.core = { p.core with engine := some e', feed, pending, segments, params := cache })
    (hparams : e'.params = e.params)
    (hcache : cache.Holds (p.codec.params.width, p.codec.params.height))
    : q.Steady e' := by
  simp only [core, Core.mk.injEq] at hcore
  rcases hcore with ⟨hcodec, hdrivers, hoptions, -, hengine, hready, -, -, hshape, hstart⟩
  refine ⟨hengine, ?_, ?_, ?_, ?_, ?_, ?_⟩
  . exact hdrivers.trans hsteady.drivers
  . exact hoptions.trans hsteady.options
  . exact hstart.trans hsteady.startCut
  . exact hready.trans hsteady.ready
  . rw [hcodec, hparams]
    exact hsteady.params
  . rw [hshape, hcodec]
    exact hcache

theorem Steady.of_core {q : Pipeline ω RawVideoEngine φ ρ} (hsteady : p.Steady e)
    (hcore : q.core = p.core)
    : q.Steady e := by
  have hsame : q.core
      = { p.core with
          engine := some e
          feed := p.feed
          pending := p.pending
          segments := p.segments
          params := p.params } := by
    rw [hcore, ← hsteady.engine]
    rfl
  exact hsteady.update hsame rfl hsteady.cache

end Frames

end Pipeline
end DecodePipeline
