import DecodePipeline.Proofs.Image.Caching
import DecodePipeline.Proofs.Pipeline.Lifecycle

/-!
This module contains where the parameters of frames come from: each frame that is handed out has the
parameters that its own raw parameters give with the codec and the options of the pipeline, as if there
were no cache. Since the codec is no part of what the cache compares, this needs that the cache is
cleared whenever the codec may change.
-/

namespace DecodePipeline

def EngineCall.latest (before : Option Frame) : EngineCall → Option Frame
  | .received (.frame frame) => some frame
  | .told .reset | .closed => none
  | _ => before

/-- The frame that was received last since an engine was told to start over or closed. -/
def LoggedShared.latest {ω : Type} (s : LoggedShared ω) : Option Frame :=
  s.calls.foldl (fun frame c => c.call.latest frame) none

@[simp]
theorem LoggedShared.latest_log {ω : Type} (s : LoggedShared ω) (state : ω) (engine : Nat)
    (call : EngineCall)
    : (s.log state engine call).latest = call.latest s.latest := by
  unfold latest log
  rw [List.foldl_append]
  rfl

namespace Pipeline

variable {ω ε φ ρ : Type}

section Output

variable [Engine ω ε]

theorem finishFrame_params (p : Pipeline ω ε φ ρ) (frame : Frame)
    : (p.finishFrame frame).2.2.params
        = (p.params.apply frame.params p.codec.params p.options).2 := by
  rcases p.finishFrame_eq frame with ⟨engine, shared, timeline, synthesized, journal, hfinish⟩
  rw [hfinish]

theorem finishFrame_frame (p : Pipeline ω ε φ ρ) (frame : Frame)
    : ∃ pts, (p.finishFrame frame).2.1
        = { frame with
            pts := some pts
            params := (p.params.apply frame.params p.codec.params p.options).1 } :=
  ⟨_, rfl⟩

end Output

section Faithful

variable {options : DecoderOptions}
  {p q : Pipeline (LoggedShared ω) (LoggedEngine ε) (TracedFeed φ) ρ}

def Delivers (p : Pipeline ω ε φ ρ) (frame settled : Frame) : Prop :=
  ∃ pts, settled
    = { frame with pts := some pts, params := frame.params.derive p.codec.params p.options }

structure Faithful (options : DecoderOptions)
    (p : Pipeline (LoggedShared ω) (LoggedEngine ε) (TracedFeed φ) ρ) : Prop where
  options : p.options = options
  coherent : p.params.Coherent p.codec.params p.options
  format : ∀ frame, p.shared.latest = some frame → frame.params.hasNaN = false →
    (p.params.format == frame.params) = true
  detached : p.engine = none → p.shared.latest = none
  ready : ∀ settled, p.ready = some settled →
    ∃ frame, p.shared.latest = some frame ∧ p.Delivers frame settled

theorem Faithful.of_eq (hp : p.Faithful options) (hcodec : q.codec = p.codec)
    (hoptions : q.options = p.options) (hparams : q.params = p.params)
    (hlatest : q.shared.latest = p.shared.latest) (hengine : q.engine = none → p.engine = none)
    (hready : q.ready = none ∨ q.ready = p.ready)
    : q.Faithful options where
  options := hoptions.trans hp.options
  coherent := by
    rw [hparams, hcodec, hoptions]
    exact hp.coherent
  format := by
    rw [hparams, hlatest]
    exact hp.format
  detached := by
    rw [hlatest]
    exact hp.detached ∘ hengine
  ready := by
    intro settled hsettled
    rcases hready with hnone | hsame
    . rw [hnone] at hsettled
      cases hsettled
    . rw [hsame] at hsettled
      unfold Delivers
      rw [hlatest, hcodec, hoptions]
      exact hp.ready settled hsettled

theorem faithful_of_cleared (hoptions : p.options = options) (hparams : p.params = {})
    (hlatest : p.shared.latest = none) (hready : p.ready = none)
    : p.Faithful options where
  options := hoptions
  coherent := by
    rw [hparams]
    exact ParamsCache.coherent_empty _ _
  format := by
    intro frame hframe
    rw [hlatest] at hframe
    cases hframe
  detached _ := hlatest
  ready := by
    intro settled hsettled
    rw [hready] at hsettled
    cases hsettled

variable [Engine ω ε]

section Switch

theorem releaseEngine_latest (hdetached : p.engine = none → p.shared.latest = none)
    : p.releaseEngine.shared.latest = none := by
  unfold releaseEngine
  cases hengine : p.engine with
  | none => exact hdetached hengine
  | some engine => exact LoggedShared.latest_log ..

theorem tryDecoders_latest (hlogs : p.HasLogs) (entries : List DecoderEntry)
    (hlatest : p.shared.latest = none)
    : (p.tryDecoders entries).2.shared.latest = none := by
  apply tryDecoders_shared (motive := fun shared => shared.latest = none) p entries
  . intro driver hdriver shared hshared
    rcases hlogs with ⟨drivers, hdrivers⟩
    rw [hdrivers, List.mem_map] at hdriver
    rcases hdriver with ⟨driver, -, rfl⟩
    exact (LoggedShared.latest_log shared (driver.create shared.state).2 ..).trans hshared
  . exact fun engine shared codec decoder hshared => (LoggedShared.latest_log ..).trans hshared
  . exact hlatest

theorem Faithful.openDecoder (hp : p.Faithful options) (hlogs : p.HasLogs) (codec : SharedCodec)
    : (p.openDecoder codec).2.Faithful options := by
  have houtline := outline_openDecoder (.nothing _ _) p codec
  apply faithful_of_cleared
  . exact (congrArg Outline.options houtline).trans hp.options
  . exact (p.openDecoder_forgets codec).2
  . rcases p.openDecoder_tried codec with ⟨status, journal, hopen⟩
    rw [hopen]
    apply tryDecoders_latest (hlogs.of_eq (p.readied_drivers codec))
    rw [readied_shared]
    exact releaseEngine_latest hp.detached
  . exact congrArg Outline.ready houtline

theorem Faithful.resetSegment (hp : p.Faithful options) : p.resetSegment.Faithful options := by
  apply faithful_of_cleared
  . exact (congrArg Outline.options (outline_resetSegment (.nothing _ _) p)).trans hp.options
  . rfl
  . unfold Pipeline.resetSegment command
    cases hengine : p.engine with
    | none => exact hp.detached hengine
    | some engine => exact LoggedShared.latest_log ..
  . rfl

theorem Faithful.switchSegment (hp : p.Faithful options) (hlogs : p.HasLogs)
    : p.switchSegment.Faithful options := by
  cases hqueued : p.segments.queued with
  | none =>
    rw [switchSegment_of_queued_none p hqueued]
    exact hp
  | some packet =>
    have hswitching : (p.switching packet).Faithful options := { hp with }
    cases hkind : SegmentTracker.switchKind packet p.codec with
    | «continue» =>
      rw [switchSegment_of_continue p hqueued hkind]
      exact { hswitching.resetSegment with }
    | reinit codec =>
      have hopened := hswitching.openDecoder hlogs codec
      rw [switchSegment_of_reinit p hqueued hkind]
      rcases hopen : (p.switching packet).openDecoder codec with ⟨result, q⟩
      rw [hopen] at hopened
      cases result with
      | ok => exact { hopened with }
      | error reason => exact { hopened with }

end Switch

section Reading

theorem finishFrame_latest (p : Pipeline (LoggedShared ω) (LoggedEngine ε) (TracedFeed φ) ρ)
    (frame : Frame)
    : (p.finishFrame frame).2.2.shared.latest = p.shared.latest := by
  have hcompensate (q : Pipeline (LoggedShared ω) (LoggedEngine ε) (TracedFeed φ) ρ) (pts : Timestamp)
      : (q.compensate pts).2.shared.latest = q.shared.latest := by
    rcases q.compensate_cases pts with hkept | hasked
    . rw [hkept]
    . rw [hasked]
      unfold command
      cases q.engine with
      | none => rfl
      | some engine => exact LoggedShared.latest_log ..
  exact hcompensate _ _

theorem finishFrame_delivers (hcoherent : p.params.Coherent p.codec.params p.options)
    (frame : Frame)
    : p.Delivers frame (p.finishFrame frame).2.1 := by
  rcases p.finishFrame_frame frame with ⟨pts, hframe⟩
  rw [hcoherent.derived_apply] at hframe
  exact ⟨pts, hframe⟩

theorem faithful_finishFrame {frame : Frame} (hoptions : p.options = options)
    (hcoherent : p.params.Coherent p.codec.params p.options)
    (hlatest : p.shared.latest = some frame) (hattached : p.engine.isSome) (hready : p.ready = none)
    : (p.finishFrame frame).2.2.Faithful options := by
  have houtline := outline_finishFrame (.nothing _ _) p frame
  have hcodec : (p.finishFrame frame).2.2.codec = p.codec := congrArg Outline.codec houtline
  have hkept : (p.finishFrame frame).2.2.options = p.options := congrArg Outline.options houtline
  have hengine : (p.finishFrame frame).2.2.engine.isSome = p.engine.isSome :=
    congrArg Outline.attached houtline
  refine ⟨hkept.trans hoptions, ?_, ?_, ?_, ?_⟩
  . rw [finishFrame_params, hcodec, hkept]
    exact hcoherent.apply frame.params
  . intro latest hsame hnumeric
    rw [finishFrame_latest, hlatest] at hsame
    cases hsame
    rw [finishFrame_params]
    exact hcoherent.format_apply hnumeric
  . intro hnone
    rw [hnone, hattached] at hengine
    cases hengine
  . intro settled hsettled
    rw [show (p.finishFrame frame).2.2.ready = p.ready from congrArg Outline.ready houtline, hready]
      at hsettled
    cases hsettled

theorem faithful_offer (hlogs : p.HasLogs) {frame : Frame} (hoptions : p.options = options)
    (hcoherent : p.params.Coherent p.codec.params p.options)
    (hlatest : p.shared.latest = some frame) (hattached : p.engine.isSome) (hready : p.ready = none)
    : (p.offer frame).Faithful options := by
  have hfaithful := faithful_finishFrame hoptions hcoherent hlatest hattached hready
  have hdelivers := finishFrame_delivers hcoherent frame
  have hreceived := (p.finishFrame_latest frame).trans hlatest
  have houtline := outline_finishFrame (.nothing _ _) p frame
  unfold offer
  rcases hfinish : p.finishFrame frame with ⟨pts, settled, q⟩
  rw [hfinish] at hfaithful hdelivers hreceived houtline
  dsimp only
  split
  . split
    . rw [endSegment_eq]
      apply Faithful.switchSegment
      . exact { hfaithful with }
      . exact hlogs.of_eq (congrArg Outline.drivers houtline)
    . exact { hfaithful with }
  . refine { hfaithful with ready := ?_ }
    rintro _ ⟨⟩
    refine ⟨frame, hreceived, ?_⟩
    unfold Delivers at hdelivers ⊢
    rw [← show q.codec = p.codec from congrArg Outline.codec houtline,
      ← show q.options = p.options from congrArg Outline.options houtline] at hdelivers
    exact hdelivers

theorem Faithful.readFrame (hp : p.Faithful options) (hlogs : p.HasLogs)
    : p.readFrame.Faithful options := by
  cases hengine : p.engine with
  | none =>
    rw [readFrame_of_detached p hengine]
    exact hp
  | some engine =>
    cases hready : p.ready with
    | some frame =>
      rw [readFrame_of_ready p (Option.isSome_of_eq_some hready)]
      exact hp
    | none =>
      have hlatest : (Engine.receive engine p.shared).shared.latest
          = EngineCall.latest p.shared.latest (.received (Engine.receive engine p.shared).answer) :=
        LoggedShared.latest_log ..
      unfold Pipeline.readFrame
      rw [hengine, hready]
      dsimp only
      cases hanswer : (Engine.receive engine p.shared).answer with
      | frame frame =>
        rw [hanswer] at hlatest
        exact faithful_offer (p := p.afterReply (Engine.receive engine p.shared)) hlogs hp.options
          hp.coherent hlatest rfl hready
      | pending =>
        rw [hanswer] at hlatest
        have hkept : (p.afterReply (Engine.receive engine p.shared)).Faithful options :=
          hp.of_eq rfl rfl rfl hlatest nofun (.inr rfl)
        dsimp only
        unfold noteMissing
        split <;> exact { hkept with }
      | exhausted =>
        rw [hanswer] at hlatest
        have hkept : (p.afterReply (Engine.receive engine p.shared)).Faithful options :=
          hp.of_eq rfl rfl rfl hlatest nofun (.inr rfl)
        dsimp only
        rw [endSegment_eq]
        apply Faithful.switchSegment
        . exact { hkept with }
        . exact hlogs

end Reading

section Run

variable [PacketRecorder ρ]

theorem Faithful.sendPending (hp : p.Faithful options) (engine : LoggedEngine ε)
    : (p.sendPending engine).Faithful options := by
  have houtline := outline_sendPending (.nothing _ _) p engine
  rcases p.sendPending_engine engine with ⟨hafter, hshared⟩
  apply hp.of_eq
  . exact congrArg Outline.codec houtline
  . exact congrArg Outline.options houtline
  . rcases p.sendPending_eq engine with ⟨pending, recorder, status, journal, hsent⟩
    rw [hsent]
  . rw [hshared]
    refine (LoggedShared.latest_log ..).trans ?_
    exact LoggedShared.latest_log ..
  . intro hnone
    rw [hafter] at hnone
    cases hnone
  . exact .inr (p.sendPending_ready engine)

variable [PacketFeed φ]

theorem Faithful.feedPacket (hp : p.Faithful options) : p.feedPacket.Faithful options := by
  cases hengine : p.engine with
  | none =>
    rw [feedPacket_of_detached p hengine]
    exact hp
  | some engine =>
    cases hready : p.ready with
    | some frame =>
      unfold Pipeline.feedPacket
      rw [hengine, hready]
      exact hp
    | none =>
      rcases p.feedPacket_feeds hengine hready with ⟨asked, hfeeds⟩
      generalize p.feedPacket = q at hfeeds
      cases hfeeds with
      | waits => exact { hp with }
      | @sends asked filled hfills =>
        rcases hfills.holdNewSegment_eq with ⟨pending, queued, phase, journal, hheld⟩
        apply Faithful.sendPending
        rw [hheld]
        exact { hp with }

theorem Faithful.perform (hp : p.Faithful options) (hlogs : p.HasLogs)
    (operation : Operation (TracedFeed φ) ρ)
    : (p.perform operation).Faithful options := by
  cases operation with
  | work =>
    have hworks : p.doWork.Faithful options ∧ p.doWork.HasLogs := by
      apply doWork_induct (motive := fun q => q.Faithful options ∧ q.HasLogs)
      . exact ⟨hp, hlogs⟩
      . exact fun q hq => ⟨{ hq.1 with }, hq.2⟩
      . exact fun q hq => ⟨hq.1.readFrame hq.2, hq.2.of_eq q.readFrame_drivers⟩
      . exact fun q hq => ⟨hq.1.feedPacket, hq.2.of_eq q.feedPacket_drivers⟩
    exact hworks.1
  | take =>
    unfold Pipeline.perform getFrame
    dsimp only
    split
    . exact hp.of_eq rfl rfl rfl rfl id (.inl rfl)
    . exact hp
  | reset =>
    have hsaid : (p.say .reset).Faithful options := { hp with }
    exact { hsaid.resetSegment with }
  | openDecoder codec => exact hp.openDecoder hlogs codec
  | resetParams =>
    exact { hp with coherent := ParamsCache.coherent_invalidate _ _ _ }
  | setStart | setFramedrop | attachRecorder | detachRecorder | refill | wait =>
    exact { hp with }

theorem faithful_createLogged (codec : SharedCodec) (drivers : List (Driver ω ε)) (feed : φ)
    (shared : ω) (options : DecoderOptions) (now : UInt64) (operations : List (Operation φ ρ))
    : ((createLogged codec drivers feed shared options now).afterLogged operations :
        Pipeline (LoggedShared ω) (LoggedEngine ε) (TracedFeed φ) ρ).Faithful options := by
  have hrun : let p : Pipeline (LoggedShared ω) (LoggedEngine ε) (TracedFeed φ) ρ :=
      (createLogged codec drivers feed shared options now).afterLogged operations
      p.Faithful options ∧ p.HasLogs := by
    apply afterLogged_induct (motive := fun q => q.Faithful options ∧ q.HasLogs)
    . exact ⟨faithful_of_cleared rfl rfl rfl rfl, drivers, rfl⟩
    . exact fun q operation _ hq => ⟨hq.1.perform hq.2 _, hq.2.of_eq (q.perform_drivers _)⟩
  exact hrun.1

/--
Whatever the engines and the feed do: each frame that is handed out is the frame that the pipeline
received last, with the parameters that it gives with the codec and the options of the pipeline. And the
format that the pipeline tells is that of the frame that was decoded last since the parameters were
cleared, if it can be compared at all.
-/
theorem hands_out_derived_frames (codec : SharedCodec) (drivers : List (Driver ω ε)) (feed : φ)
    (shared : ω) (options : DecoderOptions) (now : UInt64) (operations : List (Operation φ ρ))
    : let p : Pipeline (LoggedShared ω) (LoggedEngine ε) (TracedFeed φ) ρ :=
        (createLogged codec drivers feed shared options now).afterLogged operations
      p.unlogged drivers = (create codec drivers feed shared options now).after operations
        ∧ (∀ settled, p.getFrame.1 = some settled →
          ∃ raw pts, p.shared.latest = some raw
            ∧ settled
              = { raw with
                  pts := some pts, params := raw.params.derive p.codec.params options })
        ∧ ∀ raw, p.shared.latest = some raw → raw.params.hasNaN = false →
          (p.params.format == raw.params) = true := by
  intro p
  have hfaithful : p.Faithful options :=
    faithful_createLogged codec drivers feed shared options now operations
  refine ⟨unlogged_createLogged codec drivers feed shared options now operations, ?_,
    hfaithful.format⟩
  intro settled hsettled
  have hready : p.ready = some settled := by
    unfold getFrame at hsettled
    split at hsettled
    . next frame hframe => exact hframe.trans hsettled
    . cases hsettled
  rcases hfaithful.ready settled hready with ⟨raw, hlatest, pts, hdelivers⟩
  rw [hfaithful.options] at hdelivers
  exact ⟨raw, pts, hlatest, hdelivers⟩

end Run

end Faithful

-- The engine does not know the shape of the pixels, so raw and derived parameters differ.
theorem sample_hands_out_derived_frames
    : let p := sampleLogged.afterLogged [.openDecoder sampleCodec, .work, .work]
      ∃ settled raw pts, p.getFrame.1 = some settled ∧ p.shared.latest = some raw
        ∧ raw.params.hasNaN = false ∧ settled.params ≠ raw.params
        ∧ settled = { raw with pts := some pts, params := raw.params.derive sampleCodec.params {} }
        ∧ (p.params.format == raw.params) = true := by
  intro p
  rcases hands_out_derived_frames sampleCodec defaultDrivers (sampleFeed [samplePacket]) () {} 0
    [(.openDecoder sampleCodec : Operation _ Collection), .work, .work] with ⟨-, hframes, hformat⟩
  have hready : p.getFrame.1.isSome := by decide +kernel
  have hcodec : p.codec = sampleCodec := by decide +kernel
  have hraw : ∀ raw ∈ p.shared.latest, raw.params.hasNaN = false
      ∧ raw.params.derive sampleCodec.params {} ≠ raw.params := by
    decide +kernel
  rcases Option.isSome_iff_exists.mp hready with ⟨settled, hsettled⟩
  rcases hframes settled hsettled with ⟨raw, pts, hlatest, hderived⟩
  rcases hraw raw hlatest with ⟨hnumeric, hdiffer⟩
  change settled = { raw with pts := some pts, params := raw.params.derive p.codec.params {} }
    at hderived
  rw [hcodec] at hderived
  refine ⟨settled, raw, pts, hsettled, hlatest, hnumeric, ?_, hderived, hformat raw hlatest hnumeric⟩
  rw [hderived]
  exact hdiffer

end Pipeline
end DecodePipeline
