import DecodePipeline.Proofs.Pipeline.Likeness
import DecodePipeline.Proofs.Pipeline.Proceeding
import DecodePipeline.Proofs.Pipeline.Selection

/-!
This module contains the fact that a pipeline that decodes uncompressed video is as good as new after it
is reset: nobody who uses it can tell it from one that was just opened for the same codec.
-/

namespace DecodePipeline

inductive Answer where
  | worked (status : Status)
  | took (frame : Option Frame) (status : Status)
  | opened (result : Except OpenError Unit)
  | done

structure Appearance where
  status : Status
  codec : SharedCodec
  decoder : Option String
  hasDecoder : Bool
  hasPending : Bool
  phase : SegmentPhase
  bounds : SegmentBounds
  startCut : Option Timestamp
  timeline : Reconciler
  format : ImageParams
  dropped : Nat
  deriving DecidableEq

namespace Pipeline

section Observations

variable {ω ε φ ρ : Type} [Engine ω ε] [PacketFeed φ] [PacketRecorder ρ]

def answer (p : Pipeline ω ε φ ρ) : Operation φ ρ → Answer
  | .work => .worked p.doWork.status
  | .take => .took p.getFrame.1 p.getFrame.2.1
  | .openDecoder codec => .opened (p.openDecoder codec).1
  | _ => .done

def appearance {ε : Type} (p : Pipeline ω ε φ ρ) : Appearance where
  status := p.status
  codec := p.codec
  decoder := p.decoder
  hasDecoder := p.hasDecoder
  hasPending := p.hasPending
  phase := p.segments.phase
  bounds := p.segments.bounds
  startCut := p.startCut
  timeline := p.timeline
  format := p.params.format
  dropped := p.dropped

theorem Lockstep.answer {d : Difference ω ε} {p q : Pipeline ω ε φ ρ} (h : Lockstep d p q)
    (hsends : d.HiddenBySending) (operation : Operation φ ρ)
    : p.answer operation = q.answer operation := by
  cases operation with
  | work => exact congrArg Answer.worked (h.doWork hsends).status
  | take =>
    unfold Pipeline.answer
    dsimp only
    rw [h.getFrame.1, h.getFrame.2.1]
  | openDecoder codec => exact congrArg Answer.opened (h.openDecoder codec).1
  | reset | setStart | setFramedrop | resetParams | attachRecorder | detachRecorder | refill | wait =>
    rfl

end Observations

variable {ω φ ρ : Type} {p q : Pipeline ω RawVideoEngine φ ρ} {options : DecoderOptions}

section Alike

variable {start start' : Health}

theorem Alike.appearance (h : Alike start start' p q) : p.appearance = q.appearance := by
  have hdecoder : p.hasDecoder = q.hasDecoder := by
    unfold hasDecoder
    rw [← Option.not_isNone, ← Option.not_isNone, h.isNone_engine]
  unfold Pipeline.appearance hasPending
  rw [h.status, h.codec, h.decoder, hdecoder, h.pending, h.segments, h.startCut, h.timeline, h.params,
    h.dropped]

theorem Alike.answer [PacketFeed φ] [PacketRecorder ρ] (h : Alike start start' p q)
    (operation : Operation φ ρ)
    : p.answer operation = q.answer operation :=
  h.lockstep.answer Difference.hiddenBySending_untold operation

end Alike

section Anchored

structure Anchored (options : DecoderOptions) (p : Pipeline ω RawVideoEngine φ ρ) : Prop where
  drivers : p.drivers = defaultDrivers
  options : p.options = options
  opened : ∀ e, p.engine = some e → p.options.opens p.codec.params = true
    ∧ e.params = some (.ofSize p.codec.params.width p.codec.params.height)
    ∧ p.decoder = some RawVideoEngine.entry.description

theorem Anchored.proceed (hanchored : Anchored options p)
    (hproceeds : Proceeds (RawVideoEngine.size ω) p q)
    : Anchored options q := by
  refine ⟨hproceeds.drivers.trans hanchored.drivers, hproceeds.options.trans hanchored.options, ?_⟩
  intro e he
  have hsize := hproceeds.engine
  rw [he] at hsize
  rcases Option.map_eq_some_iff.mp hsize.symm with ⟨e', he', hparams⟩
  rcases hanchored.opened e' he' with ⟨hopens, hparams', hdecoder⟩
  rw [hproceeds.codec, hproceeds.options, hproceeds.decoder]
  exact ⟨hopens, hparams.symm.trans hparams', hdecoder⟩

theorem Anchored.openDecoder (hanchored : Anchored options p) (codec : SharedCodec)
    : Anchored options (p.openDecoder codec).2 := by
  have houtline := outline_openDecoder (.nothing ω RawVideoEngine) p codec
  have hcodec : (p.openDecoder codec).2.codec = codec := congrArg Outline.codec houtline
  have hoptions : (p.openDecoder codec).2.options = p.options := congrArg Outline.options houtline
  refine ⟨?_, ?_, ?_⟩
  . exact (congrArg Outline.drivers houtline).trans hanchored.drivers
  . exact hoptions.trans hanchored.options
  . intro e he
    rw [hcodec, hoptions]
    cases hopens : p.options.opens codec.params with
    | true =>
      rw [openDecoder_of_opens hanchored.drivers hopens] at he ⊢
      cases he
      exact ⟨rfl, rfl, rfl⟩
    | false =>
      rcases openDecoder_of_not_opens hanchored.drivers hopens with ⟨reason, -, hnone, -⟩
      rw [hnone] at he
      cases he

theorem Anchored.resetSegment (hanchored : Anchored options p)
    : Anchored options p.resetSegment := by
  have hcommand : Anchored options (p.command .reset).2 :=
    hanchored.proceed (p.proceeds_command .reset)
  exact { hcommand with }

theorem Anchored.switchSegment (hanchored : Anchored options p)
    : Anchored options p.switchSegment := by
  cases hqueued : p.segments.queued with
  | none =>
    rw [switchSegment_of_queued_none p hqueued]
    exact hanchored
  | some packet =>
    have hswitching : Anchored options (p.switching packet) := { hanchored with }
    cases hkind : SegmentTracker.switchKind packet p.codec with
    | «continue» =>
      rw [switchSegment_of_continue p hqueued hkind]
      exact { hswitching.resetSegment with }
    | reinit codec =>
      have hopened := hswitching.openDecoder codec
      rw [switchSegment_of_reinit p hqueued hkind]
      rcases hopen : (p.switching packet).openDecoder codec with ⟨result, q⟩
      rw [hopen] at hopened
      cases result with
      | ok => exact { hopened with }
      | error reason => exact { hopened with }

theorem Anchored.readFrame (hanchored : Anchored options p) : Anchored options p.readFrame := by
  rcases readFrame_proceeds (RawVideoEngine.size ω) p with ⟨q, hproceeds, hread | hread⟩
  . rw [hread]
    exact hanchored.proceed hproceeds
  . rw [hread]
    exact (hanchored.proceed hproceeds).switchSegment

variable [PacketFeed φ] [PacketRecorder ρ]

theorem Anchored.perform (hanchored : Anchored options p) (operation : Operation φ ρ)
    : Anchored options (p.perform operation) := by
  cases operation with
  | work =>
    apply doWork_induct (motive := Anchored options)
    . exact hanchored
    . exact fun q hq => { hq with }
    . exact fun q hq => hq.readFrame
    . exact fun q hq => hq.proceed q.proceeds_feedPacket
  | take =>
    unfold Pipeline.perform getFrame
    dsimp only
    split
    . exact { hanchored with }
    . exact hanchored
  | reset =>
    have hsaid : Anchored options (p.say .reset) := { hanchored with }
    exact { hsaid.resetSegment with }
  | openDecoder codec => exact hanchored.openDecoder codec
  | setStart | setFramedrop | resetParams | attachRecorder | detachRecorder | refill | wait =>
    exact { hanchored with }

theorem anchored_after (codec : SharedCodec) (feed : φ) (shared : ω) (options : DecoderOptions)
    (now : UInt64) (operations : List (Operation φ ρ))
    : Anchored options
        ((create codec defaultDrivers feed shared options now
          : Pipeline ω RawVideoEngine φ ρ).after operations) := by
  apply after_induct
  . refine ⟨rfl, rfl, ?_⟩
    intro e he
    cases he
  . intro q operation _ hq
    exact hq.perform operation

end Anchored

theorem reset_of_attached {e : RawVideoEngine} (hengine : p.engine = some e)
    : p.reset
        = { p.say .reset with
            engine := some { e with queue := [], draining := false }
            timeline := p.timeline.reset.restartProbe
            params := {}
            startCut := none
            maySkip := false
            ready := none
            pending := none
            segments := {}
            dropped := 0
            status := .again } := by
  have hcommand : (p.say .reset).command .reset
      = (some .done,
          { p.say .reset with engine := some { e with queue := [], draining := false } }) := by
    unfold command say
    dsimp only
    rw [hengine]
    rfl
  unfold Pipeline.reset Pipeline.resetSegment
  rw [hcommand]
  rfl

theorem Anchored.alike_reset (hanchored : Anchored options p) (hattached : p.engine.isSome)
    (now : UInt64)
    : ∃ fresh : Pipeline ω RawVideoEngine φ ρ,
        openWith p.codec defaultDrivers p.feed p.shared options now = (.ok (), fresh)
          ∧ Alike p.health fresh.health p.reset (fresh.setFramedrop p.framedrop) := by
  rcases Option.isSome_iff_exists.mp hattached with ⟨e, hengine⟩
  rcases hanchored.opened e hengine with ⟨hopens, hparams, hdecoder⟩
  rw [hanchored.options] at hopens
  let created : Pipeline ω RawVideoEngine φ ρ :=
    create p.codec defaultDrivers p.feed p.shared options now
  refine ⟨created.opened p.codec, openDecoder_of_opens (p := created) rfl hopens, ?_⟩
  rw [reset_of_attached hengine]
  have huntold : ({ e with queue := [], draining := false } : RawVideoEngine).untold
      = RawVideoEngine.untold
          { params := some (.ofSize p.codec.params.width p.codec.params.height) } := by
    unfold RawVideoEngine.untold
    rw [hparams]
  exact
    { codec := rfl
      drivers := hanchored.drivers
      options := hanchored.options
      feed := rfl
      shared := rfl
      health := Health.sameCount_self _ _
      engine := congrArg some huntold
      decoder := hdecoder
      ready := rfl
      pending := rfl
      segments := rfl
      timeline := rfl
      params := rfl
      startCut := rfl
      framedrop := rfl
      maySkip := rfl
      dropped := rfl
      status := rfl }

variable [PacketFeed φ] [PacketRecorder ρ]

/-- Whatever is done with the two pipelines, they answer the same, look the same and count the same. -/
def Indistinguishable (p q : Pipeline ω RawVideoEngine φ ρ) (start start' : Health) : Prop :=
  ∀ operations,
    (∀ operation, (p.after operations).answer operation = (q.after operations).answer operation)
      ∧ (p.after operations).appearance = (q.after operations).appearance
      ∧ Health.SameCount start start' (p.after operations).health (q.after operations).health

/--
Whatever was done with a pipeline, as long as it has a decoder its reset makes it a pipeline that was
just opened for the same codec.
-/
theorem reset_renews (codec : SharedCodec) (feed : φ) (shared : ω) (options : DecoderOptions)
    (now now' : UInt64) (operations : List (Operation φ ρ))
    (hattached : ((create codec defaultDrivers feed shared options now
      : Pipeline ω RawVideoEngine φ ρ).after operations).hasDecoder = true)
    : let p : Pipeline ω RawVideoEngine φ ρ :=
        (create codec defaultDrivers feed shared options now).after operations
      ∃ fresh : Pipeline ω RawVideoEngine φ ρ,
        openWith p.codec defaultDrivers p.feed p.shared options now' = (.ok (), fresh)
          ∧ Indistinguishable p.reset (fresh.setFramedrop p.framedrop) p.health fresh.health := by
  have hanchored := anchored_after (ρ := ρ) codec feed shared options now operations
  rcases hanchored.alike_reset hattached now' with ⟨fresh, hopen, halike⟩
  refine ⟨fresh, hopen, ?_⟩
  intro further
  have halike' := halike.after further
  exact ⟨halike'.answer, halike'.appearance, halike'.health⟩

-- The pipeline is reset after its second segment has begun, with a frame that nobody has taken.
theorem sample_reset_renews
    : let p : Pipeline Unit RawVideoEngine PacketChannel Collection :=
        (create sampleCodec defaultDrivers (sampleFeed [samplePacket]) () {} 0).after
          [.openDecoder sampleCodec, .setFramedrop true, .attachRecorder #[], .work, .work]
      p.ready.isSome ∧ p.segments.bounds = samplePacket.bounds ∧ p.hasDecoder
        ∧ ∃ fresh : Pipeline Unit RawVideoEngine PacketChannel Collection,
            openWith p.codec defaultDrivers p.feed p.shared {} 1 = (.ok (), fresh)
              ∧ Indistinguishable p.reset (fresh.setFramedrop p.framedrop) p.health
                  fresh.health := by
  refine ⟨by decide +kernel, by decide +kernel, by decide +kernel, ?_⟩
  exact reset_renews sampleCodec (sampleFeed [samplePacket]) () {} 0 1
    [.openDecoder sampleCodec, .setFramedrop true, .attachRecorder #[], .work, .work]
    (by decide +kernel)

end Pipeline
end DecodePipeline
