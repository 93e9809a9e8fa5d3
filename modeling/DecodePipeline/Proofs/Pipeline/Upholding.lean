import DecodePipeline.Proofs.Pipeline.Feeding
import DecodePipeline.Proofs.Pipeline.Opening

/-!
This module contains what stays true of an engine and of the state that engines share as long as nothing
is sent to engines and nothing is received from them, whichever segments start and decoders open.
-/

namespace DecodePipeline

structure Engine.Invariant {ω ε : Type} [Engine ω ε] (drivers : List (Driver ω ε))
    (holds : Option ε → ω → Prop) : Prop where
  control : ∀ (engine : ε) (shared : ω) (command : EngineCommand), holds (some engine) shared →
    holds (some (Engine.control engine shared command).engine)
      (Engine.control engine shared command).shared
  uninit : ∀ (engine : ε) (shared : ω), holds (some engine) shared →
    holds none (Engine.uninit engine shared).shared
  init : ∀ driver ∈ drivers, ∀ (shared : ω) (params : CodecParams) (decoder : String),
    holds none shared →
      let engine := driver.create shared
      let reply := Engine.init engine.1 engine.2 params decoder
      match reply.answer with
      | .ok () => holds (some reply.engine) reply.shared
      | .error _ => holds none reply.shared

namespace Pipeline

variable {ω ε φ ρ : Type} [Engine ω ε]

structure Upholds (p : Pipeline ω ε φ ρ) (holds : Option ε → ω → Prop) : Prop where
  invariant : Engine.Invariant p.drivers holds
  state : holds p.engine p.shared

variable {p q : Pipeline ω ε φ ρ} {holds : Option ε → ω → Prop}

theorem Upholds.of_eq (hp : p.Upholds holds) (hdrivers : q.drivers = p.drivers)
    (hengine : q.engine = p.engine) (hshared : q.shared = p.shared)
    : q.Upholds holds := by
  refine ⟨?_, ?_⟩
  . rw [hdrivers]
    exact hp.invariant
  . rw [hengine, hshared]
    exact hp.state

theorem Upholds.command (hp : p.Upholds holds) (request : EngineCommand)
    : (p.command request).2.Upholds holds := by
  unfold Pipeline.command
  cases hengine : p.engine with
  | none => exact hp
  | some engine =>
    have hstate := hp.state
    rw [hengine] at hstate
    exact ⟨hp.invariant, hp.invariant.control engine p.shared request hstate⟩

theorem Upholds.compensate (hp : p.Upholds holds) (pts : Timestamp)
    : (p.compensate pts).2.Upholds holds := by
  rcases p.compensate_cases pts with hkept | hasked
  . rw [hkept]
    exact hp
  . rw [hasked]
    exact hp.command .getFrameDelay

theorem Upholds.finishFrame (hp : p.Upholds holds) (frame : Frame)
    : (p.finishFrame frame).2.2.Upholds holds := by
  have htime : (p.settleTime frame).2.Upholds holds := hp.of_eq rfl rfl rfl
  have hparams : ((p.settleTime frame).2.settleParams frame).2.Upholds holds :=
    htime.of_eq rfl rfl rfl
  exact hparams.compensate (p.settleTime frame).1

theorem Upholds.resetSegment (hp : p.Upholds holds) : p.resetSegment.Upholds holds :=
  (hp.command .reset).of_eq rfl rfl rfl

theorem Upholds.reset (hp : p.Upholds holds) : p.reset.Upholds holds := by
  have hsaid : (p.say .reset).Upholds holds := hp.of_eq rfl rfl rfl
  exact hsaid.resetSegment.of_eq rfl rfl rfl

theorem Upholds.releaseEngine (hp : p.Upholds holds) : p.releaseEngine.Upholds holds := by
  unfold Pipeline.releaseEngine
  cases hengine : p.engine with
  | none => exact hp
  | some engine =>
    have hstate := hp.state
    rw [hengine] at hstate
    exact ⟨hp.invariant, hp.invariant.uninit engine p.shared hstate⟩

theorem Upholds.readied (hp : p.Upholds holds) (codec : SharedCodec)
    : (p.readied codec).Upholds holds := by
  have hreleased : ({ p.releaseEngine with codec, decoder := none }).Upholds holds :=
    hp.releaseEngine.of_eq rfl rfl rfl
  exact hreleased.resetSegment.of_eq rfl rfl rfl

theorem Upholds.tryDecoders (hp : p.Upholds holds) (hengine : p.engine = none)
    (entries : List DecoderEntry)
    : (p.tryDecoders entries).2.Upholds holds := by
  have hstart := hp.state
  rw [hengine] at hstart
  have hinit (attempt : Attempt ω ε) (hmem : attempt ∈ Attempt.list p.drivers entries) (shared : ω)
      (hshared : holds none shared)
      : match (attempt.reply shared p.codec.params).answer with
        | .ok () => holds (some (attempt.reply shared p.codec.params).engine)
          (attempt.reply shared p.codec.params).shared
        | .error _ => holds none (attempt.reply shared p.codec.params).shared :=
    hp.invariant.init attempt.driver (Attempt.driver_mem_of_mem_list hmem) shared p.codec.params
      attempt.entry.decoder hshared
  -- A decoder that fails leaves no engine behind, so the next one starts like the first.
  have hfailed (attempt : Attempt ω ε) (hmem : attempt ∈ Attempt.list p.drivers entries) (shared : ω)
      (reason : String) (hanswer : (attempt.reply shared p.codec.params).answer = .error reason)
      (hshared : holds none shared)
      : holds none (attempt.reply shared p.codec.params).shared := by
    have hleft := hinit attempt hmem shared hshared
    rw [hanswer] at hleft
    exact hleft
  have htried := p.tryDecoders_tried entries
  generalize p.tryDecoders entries = result at htried ⊢
  cases htried with
  | @opened before after attempt shared journal hattempts hbefore hanswer =>
    rw [hattempts] at hinit hfailed
    have hopened := hinit attempt (List.mem_append_right _ List.mem_cons_self) shared
      (hbefore.keeps (fun attempt hmem => hfailed attempt (List.mem_append_left _ hmem)) hstart)
    rw [hanswer] at hopened
    exact ⟨hp.invariant, hopened⟩
  | failed hattempts =>
    refine ⟨hp.invariant, ?_⟩
    rw [show ({ p with shared := _, journal := _ } : Pipeline ω ε φ ρ).engine = none from hengine]
    exact hattempts.keeps hfailed hstart

theorem Upholds.of_readied {codec : SharedCodec} (hreadied : (p.readied codec).Upholds holds)
    : (p.openDecoder codec).2.Upholds holds := by
  have htried := hreadied.tryDecoders (p.readied_engine codec) (p.readied codec).candidates
  rcases p.openDecoder_tried codec with ⟨status, journal, hopen⟩
  rw [hopen]
  exact htried.of_eq rfl rfl rfl

theorem Upholds.openDecoder (hp : p.Upholds holds) (codec : SharedCodec)
    : (p.openDecoder codec).2.Upholds holds :=
  .of_readied (hp.readied codec)

theorem Upholds.of_switching {packet : Packet} (hqueued : p.segments.queued = some packet)
    (hreset : (p.switching packet).resetSegment.Upholds holds)
    (hopen : ∀ codec, ((p.switching packet).openDecoder codec).2.Upholds holds)
    : p.switchSegment.Upholds holds := by
  cases hkind : SegmentTracker.switchKind packet p.codec with
  | «continue» =>
    rw [switchSegment_of_continue p hqueued hkind]
    exact hreset.of_eq rfl rfl rfl
  | reinit codec =>
    have hopened := hopen codec
    rw [switchSegment_of_reinit p hqueued hkind]
    rcases hresult : (p.switching packet).openDecoder codec with ⟨result, q⟩
    rw [hresult] at hopened
    cases result with
    | ok => exact hopened.of_eq rfl rfl rfl
    | error reason => exact hopened.of_eq rfl rfl rfl

theorem Upholds.switchSegment (hp : p.Upholds holds) : p.switchSegment.Upholds holds := by
  cases hqueued : p.segments.queued with
  | none =>
    rw [switchSegment_of_queued_none p hqueued]
    exact hp
  | some packet =>
    have hswitching : (p.switching packet).Upholds holds := hp.of_eq rfl rfl rfl
    exact .of_switching hqueued hswitching.resetSegment fun codec => hswitching.openDecoder codec

theorem upholds_openDecoder (p : Pipeline ω ε φ ρ) (hinvariant : Engine.Invariant p.drivers holds)
    (hnone : ∀ shared, holds none shared) (codec : SharedCodec)
    : (p.openDecoder codec).2.Upholds holds := by
  apply Upholds.of_readied
  refine ⟨?_, ?_⟩
  . rw [readied_drivers]
    exact hinvariant
  . rw [readied_engine]
    exact hnone _

theorem upholds_switchSegment (p : Pipeline ω ε φ ρ) {packet : Packet}
    (hqueued : p.segments.queued = some packet) (hinvariant : Engine.Invariant p.drivers holds)
    (hnone : ∀ shared, holds none shared)
    (hreset : ∀ engine, p.engine = some engine →
      let reply := Engine.control engine p.shared .reset
      holds (some reply.engine) reply.shared)
    : p.switchSegment.Upholds holds := by
  have hcommanded : ((p.switching packet).command .reset).2.Upholds holds := by
    unfold Pipeline.command
    cases hengine : (p.switching packet).engine with
    | none =>
      refine ⟨hinvariant, ?_⟩
      rw [hengine]
      exact hnone _
    | some engine => exact ⟨hinvariant, hreset engine hengine⟩
  apply Upholds.of_switching hqueued
  . exact hcommanded.of_eq rfl rfl rfl
  . exact fun codec => (p.switching packet).upholds_openDecoder hinvariant hnone codec

theorem Upholds.getFrame (hp : p.Upholds holds) : p.getFrame.2.2.Upholds holds := by
  unfold Pipeline.getFrame
  cases p.ready with
  | none => exact hp
  | some frame => exact hp.of_eq rfl rfl rfl

end Pipeline
end DecodePipeline
