import DecodePipeline.Proofs.Pipeline.Boundaries

/-!
This module contains how the phase of a segment change goes together with the packet that is held back
and with the decoder, and what a step leaves behind that loses its decoder in such a change.
-/

namespace DecodePipeline.Pipeline

variable {ω ε φ ρ : Type} {p q : Pipeline ω ε φ ρ}

section Orderly

structure Orderly (p : Pipeline ω ε φ ρ) : Prop where
  queued : p.segments.queued.isSome ↔ p.segments.phase = .queued
  idle : p.engine = none → p.ready = none ∧ p.held = []

theorem Orderly.of_attached (hattached : q.engine.isSome)
    (hqueued : q.segments.queued.isSome ↔ q.segments.phase = .queued)
    : q.Orderly := by
  refine ⟨hqueued, ?_⟩
  intro hengine
  rw [hengine] at hattached
  cases hattached

theorem Orderly.queued_none (hp : p.Orderly) (hphase : p.segments.phase = .switching)
    : p.segments.queued = none := by
  have hqueued := hp.queued
  rw [hphase] at hqueued
  simpa using hqueued

variable [Engine ω ε]

theorem Orderly.of_outline (hp : p.Orderly)
    (houtline : q.outline (.nothing ω ε) = p.outline (.nothing ω ε))
    : q.Orderly := by
  have hattached : q.engine.isSome = p.engine.isSome := congrArg Outline.attached houtline
  have hready : q.ready = p.ready := congrArg Outline.ready houtline
  have hpending : q.pending = p.pending := congrArg Outline.pending houtline
  have hsegments : q.segments = p.segments := congrArg Outline.segments houtline
  refine ⟨?_, ?_⟩
  . rw [hsegments]
    exact hp.queued
  . intro hengine
    rw [hengine, Option.isSome_none] at hattached
    unfold held
    rw [hready, hpending, hsegments]
    exact hp.idle (by simpa using hattached.symm)

theorem Orderly.switchSegment (hp : p.Orderly) : p.switchSegment.Orderly := by
  cases hqueued : p.segments.queued with
  | none =>
    rw [switchSegment_of_queued_none p hqueued]
    exact hp
  | some packet =>
    have hattached : p.engine.isSome := by
      rw [Option.isSome_iff_ne_none]
      intro hengine
      have hidle := (p.held_eq_nil.mp (hp.idle hengine).2).2
      rw [hqueued] at hidle
      cases hidle
    cases hkind : SegmentTracker.switchKind packet p.codec with
    | «continue» =>
      have houtline := outline_switchSegment_continue (.nothing ω ε) p hqueued hkind
      have hsegments := congrArg Outline.segments houtline
      apply Orderly.of_attached
      . exact (congrArg Outline.attached houtline).trans hattached
      . rw [show p.switchSegment.segments = { bounds := packet.bounds } from hsegments]
        simp
    | reinit codec =>
      have houtline := outline_switchSegment_reinit (.nothing ω ε) p hqueued hkind
      simp only [outline, Outline.mk.injEq] at houtline
      rcases houtline with ⟨-, -, -, -, hopened, -, hready, hpending, hsegments, -⟩
      refine ⟨?_, ?_⟩
      . rw [hsegments]
        split <;> simp
      . intro hengine
        rw [hengine, Option.isSome_none] at hopened
        rw [← hopened] at hpending hsegments
        exact ⟨hready, (held_eq_nil _).mpr ⟨hpending, congrArg (·.queued) hsegments⟩⟩

theorem Orderly.readFrame (hp : p.Orderly) : p.readFrame.Orderly := by
  rcases readFrame_cases (.nothing ω ε) p with ⟨q, houtline, hcases⟩
  have hq : q.Orderly := hp.of_outline houtline
  rcases hcases with hread | ⟨hattached, -, frame, pts, -, -, hread⟩ | ⟨-, -, hread⟩
  . rw [hread]
    exact hq
  . rw [hread]
    exact .of_attached ((congrArg Outline.attached houtline).trans hattached) hq.queued
  . rw [hread]
    exact hq.switchSegment

theorem getFrame_segments (p : Pipeline ω ε φ ρ) : p.getFrame.2.2.segments = p.segments :=
  congrArg Outline.segments (outline_getFrame (.nothing ω ε) p)

theorem reset_segments (p : Pipeline ω ε φ ρ) : p.reset.segments = {} :=
  congrArg Outline.segments (outline_reset (.nothing ω ε) p)

theorem orderly_reset (p : Pipeline ω ε φ ρ) : p.reset.Orderly := by
  have houtline := outline_reset (.nothing ω ε) p
  refine ⟨?_, ?_⟩
  . rw [reset_segments]
    decide
  . intro _
    refine ⟨congrArg Outline.ready houtline, (held_eq_nil _).mpr ⟨?_, ?_⟩⟩
    . exact congrArg Outline.pending houtline
    . exact congrArg (·.queued) p.reset_segments

theorem openDecoder_segments (p : Pipeline ω ε φ ρ) (codec : SharedCodec)
    : (p.openDecoder codec).2.segments
        = if p.segments.phase = .switching then p.segments else {} := by
  refine (congrArg Outline.segments (outline_openDecoder (.nothing ω ε) p codec)).trans ?_
  simp only [beq_iff_eq]

theorem Orderly.openDecoder (hp : p.Orderly) (codec : SharedCodec)
    : (p.openDecoder codec).2.Orderly := by
  have houtline := outline_openDecoder (.nothing ω ε) p codec
  have hqueued : (p.openDecoder codec).2.segments.queued = none
      ∧ (p.openDecoder codec).2.segments.phase ≠ .queued := by
    rw [openDecoder_segments]
    split
    . next hswitching =>
      refine ⟨hp.queued_none hswitching, ?_⟩
      rw [hswitching]
      decide
    . decide
  refine ⟨?_, ?_⟩
  . rw [hqueued.1]
    exact iff_of_false (by decide) hqueued.2
  . intro _
    refine ⟨congrArg Outline.ready houtline, (held_eq_nil _).mpr ⟨?_, hqueued.1⟩⟩
    exact congrArg Outline.pending houtline

theorem Orderly.getFrame (hp : p.Orderly) : p.getFrame.2.2.Orderly := by
  have houtline := outline_getFrame (.nothing ω ε) p
  have hattached : p.getFrame.2.2.engine.isSome = p.engine.isSome :=
    congrArg Outline.attached houtline
  have hpending : p.getFrame.2.2.pending = p.pending := congrArg Outline.pending houtline
  refine ⟨?_, ?_⟩
  . rw [getFrame_segments]
    exact hp.queued
  . intro hengine
    rw [hengine, Option.isSome_none] at hattached
    refine ⟨congrArg Outline.ready houtline, ?_⟩
    rw [held, hpending, getFrame_segments]
    exact (hp.idle (by simpa using hattached.symm)).2

variable [PacketFeed φ] [PacketRecorder ρ]

theorem Orderly.feedPacket (hp : p.Orderly) : p.feedPacket.Orderly := by
  cases hengine : p.engine with
  | none =>
    rw [feedPacket_of_detached p hengine]
    exact hp
  | some engine =>
    cases hready : p.ready with
    | some frame =>
      unfold Pipeline.feedPacket
      rw [hengine, hready]
      exact hp
    | none =>
      rcases p.feedPacket_feeds hengine hready with ⟨asked, hfeeds⟩
      generalize p.feedPacket = fed at hfeeds ⊢
      cases hfeeds with
      | waits hidle htry => exact .of_attached (by simp [hengine]) hp.queued
      | @sends asked filled hfills =>
        have hsegments : (filled.holdNewSegment.sendPending engine).segments
            = filled.holdNewSegment.segments :=
          congrArg Outline.segments (outline_sendPending (.nothing ω ε) _ engine)
        apply Orderly.of_attached
        . rw [(filled.holdNewSegment.sendPending_engine engine).1]
          rfl
        . rw [hsegments]
          rcases filled.holdNewSegment_cases with ⟨hhold, -⟩ | ⟨packet, -, -, hhold⟩
          . rw [hhold]
            rcases hfills.eq with ⟨feed, pending, rfl⟩
            exact hp.queued
          . rw [hhold]
            exact iff_of_true rfl rfl

theorem Orderly.perform (hp : p.Orderly) (operation : Operation φ ρ)
    : (p.perform operation).Orderly := by
  cases operation with
  | work =>
    apply doWork_induct
    . exact hp
    . exact fun q hq => ⟨hq.queued, hq.idle⟩
    . exact fun q hq => hq.readFrame
    . exact fun q hq => hq.feedPacket
  | take => exact hp.getFrame
  | reset => exact p.orderly_reset
  | openDecoder codec => exact hp.openDecoder codec
  | setStart | setFramedrop | resetParams | attachRecorder | detachRecorder | refill | wait =>
    exact ⟨hp.queued, hp.idle⟩

theorem orderly_create (codec : SharedCodec) (drivers : List (Driver ω ε)) (feed : φ) (shared : ω)
    (options : DecoderOptions) (now : UInt64) (operations : List (Operation φ ρ))
    : ((create codec drivers feed shared options now).after operations).Orderly := by
  apply after_induct (motive := Orderly)
  . exact ⟨by simp [create], fun _ => ⟨rfl, rfl⟩⟩
  . exact fun q operation _ hq => hq.perform operation

end Orderly

section Change

variable [Engine ω ε]

theorem Reads.outlined {answer : Received} (hreads : p.Reads answer q)
    : ∃ r : Pipeline ω ε φ ρ, r.outline (.nothing ω ε) = p.outline (.nothing ω ε)
        ∧ ((q.engine = r.engine ∧ q.segments = r.segments) ∨ q = r.switchSegment) := by
  cases hreads with
  | stored hsettles | discarded hsettles => exact ⟨_, hsettles.outline, .inl ⟨rfl, rfl⟩⟩
  | @passed r frame settled hsettles =>
    exact ⟨{ r with health := r.health.recordDiscarded, status := .again }, hsettles.outline, .inr rfl⟩
  | missed => exact ⟨p, rfl, .inl ⟨rfl, rfl⟩⟩
  | exhausted => exact ⟨{ p with maySkip := false, status := .ended }, rfl, .inr rfl⟩

theorem Receives.outlined (hreceives : p.Receives q)
    : ∃ r : Pipeline ω ε φ ρ, r.outline (.nothing ω ε) = p.outline (.nothing ω ε) ∧ r.engine.isSome
        ∧ ((q.engine = r.engine ∧ q.segments = r.segments) ∨ q = r.switchSegment) := by
  rcases hreceives with ⟨engine, hengine, -, hreads⟩
  rcases hreads.outlined with ⟨r, houtline, hcases⟩
  have hattached : r.engine.isSome := congrArg Outline.attached houtline
  refine ⟨r, houtline.trans ?_, hattached, hcases⟩
  simp [outline, afterReply, hengine, Engine.View.nothing]

theorem Receives.lost (hreceives : p.Receives q) (hlost : q.engine = none)
    : ∃ packet codec, p.segments.queued = some packet
        ∧ SegmentTracker.switchKind packet p.codec = .reinit codec
        ∧ q.segments = { bounds := p.segments.bounds, phase := .switching } := by
  rcases hreceives.outlined with ⟨r, houtline, hattached, ⟨hkept, -⟩ | rfl⟩
  . rw [← hkept, hlost] at hattached
    cases hattached
  . have hcodec : r.codec = p.codec := congrArg Outline.codec houtline
    have hsegments : r.segments = p.segments := congrArg Outline.segments houtline
    cases hqueued : r.segments.queued with
    | none =>
      rw [switchSegment_of_queued_none r hqueued] at hlost
      rw [hlost] at hattached
      cases hattached
    | some packet =>
      cases hkind : SegmentTracker.switchKind packet r.codec with
      | «continue» =>
        have hsame : r.switchSegment.engine.isSome = r.engine.isSome :=
          congrArg Outline.attached (outline_switchSegment_continue (.nothing ω ε) r hqueued hkind)
        rw [hlost, hattached] at hsame
        cases hsame
      | reinit codec =>
        have hswitched := outline_switchSegment_reinit (.nothing ω ε) r hqueued hkind
        simp only [outline, Outline.mk.injEq] at hswitched
        rcases hswitched with ⟨-, -, -, -, hopened, -, -, -, hleft, -⟩
        rw [hlost, Option.isSome_none] at hopened
        rw [← hopened] at hleft
        rw [← hsegments, ← hcodec]
        exact ⟨packet, codec, hqueued, hkind, hleft⟩

theorem Receives.kept (hreceives : p.Receives q) (hattached : q.engine.isSome)
    : q.segments = p.segments
        ∨ ∃ packet, q.pending = some packet ∧ q.segments = { bounds := packet.bounds }
          ∧ SegmentTracker.switchKind packet q.codec = .continue := by
  rcases hreceives.outlined with ⟨r, houtline, -, ⟨-, hkept⟩ | rfl⟩
  . exact .inl (hkept.trans (congrArg Outline.segments houtline))
  . have hsegments : r.segments = p.segments := congrArg Outline.segments houtline
    cases hqueued : r.segments.queued with
    | none =>
      rw [switchSegment_of_queued_none r hqueued]
      exact .inl hsegments
    | some packet =>
      right
      cases hkind : SegmentTracker.switchKind packet r.codec with
      | «continue» =>
        have hswitched := outline_switchSegment_continue (.nothing ω ε) r hqueued hkind
        have hcodec : r.switchSegment.codec = r.codec := congrArg Outline.codec hswitched
        refine ⟨packet, congrArg Outline.pending hswitched, congrArg Outline.segments hswitched, ?_⟩
        rw [hcodec]
        exact hkind
      | reinit codec =>
        have hswitched := outline_switchSegment_reinit (.nothing ω ε) r hqueued hkind
        simp only [outline, Outline.mk.injEq] at hswitched
        rcases hswitched with ⟨hcodec, -, -, -, hopened, -, -, hpending, hentered, -⟩
        rw [hattached] at hopened
        rw [← hopened] at hpending hentered
        refine ⟨packet, hpending, hentered, ?_⟩
        rw [hcodec]
        exact SegmentTracker.switchKind_of_reinit hkind

variable [PacketFeed φ] [PacketRecorder ρ]

theorem Fills.sent_segments {asked : Option (Poll Packet)} (hfills : p.Fills asked q) (engine : ε)
    : (q.holdNewSegment.sendPending engine).codec = p.codec
        ∧ ((q.holdNewSegment.sendPending engine).segments = p.segments
          ∨ ∃ packet, q.pending = some packet
            ∧ (q.holdNewSegment.sendPending engine).segments = p.segments.queue packet) := by
  have houtline := outline_sendPending (.nothing ω ε) q.holdNewSegment engine
  have hcodec : (q.holdNewSegment.sendPending engine).codec = q.holdNewSegment.codec :=
    congrArg Outline.codec houtline
  have hsegments : (q.holdNewSegment.sendPending engine).segments = q.holdNewSegment.segments :=
    congrArg Outline.segments houtline
  rw [hcodec, hsegments]
  rcases hfills.eq with ⟨feed, pending, hfilled⟩
  rcases q.holdNewSegment_cases with ⟨hhold, -⟩ | ⟨packet, hpending, -, hhold⟩
  . rw [hhold, hfilled]
    exact ⟨rfl, .inl rfl⟩
  . rw [hhold]
    refine ⟨?_, .inr ⟨packet, hpending, ?_⟩⟩
    . rw [hfilled]
      rfl
    . rw [hfilled]

theorem Works.lost {asked : Option (Poll Packet)} (hworks : p.Works asked q)
    (hattached : p.engine.isSome) (hlost : q.engine = none)
    : q.segments = { bounds := p.segments.bounds, phase := .switching } := by
  cases hworks with
  | detached hengine =>
    rw [hengine] at hattached
    cases hattached
  | kept =>
    rw [hlost] at hattached
    cases hattached
  | stopped hreceives =>
    rcases hreceives.lost hlost with ⟨-, -, -, -, hleft⟩
    exact hleft
  | waited hreceives =>
    rcases hreceives.lost hlost with ⟨-, -, -, -, hleft⟩
    exact hleft
  | @fed asked r filled q engine hreceives hengine _ hfills hagain =>
    rcases hagain.lost hlost with ⟨packet, codec, hqueued, hkind, hleft⟩
    rcases hfills.sent_segments engine with ⟨hcodec, hsent⟩
    rw [hcodec] at hkind
    rcases hreceives.kept (by rw [hengine]; rfl) with hkept | ⟨held, hpending, hentered, hcontinue⟩
    . rw [← hkept, hleft]
      rcases hsent with hsame | ⟨again, -, hqueue⟩
      . rw [hsame]
      . rw [hqueue]
        rfl
    -- The packet that waits in front of the next one has the codec that was just entered.
    . exfalso
      rcases hsent with hsame | ⟨again, hagain, hqueue⟩
      . rw [hsame, hentered] at hqueued
        cases hqueued
      . have hfilled : filled = r := by
          cases hfills with
          | held => rfl
          | item hidle | ended hidle =>
            rw [(r.held_eq_nil.mp hidle).1] at hpending
            cases hpending
        rw [hqueue] at hqueued
        rw [hfilled, hpending] at hagain
        cases hagain
        cases hqueued
        rw [hcontinue] at hkind
        cases hkind

theorem doWork_lost (hattached : p.engine.isSome) (hlost : p.doWork.engine = none)
    : p.doWork.segments = { bounds := p.segments.bounds, phase := .switching } := by
  rcases p.doWork_works with ⟨asked, hworks⟩
  exact hworks.lost hattached hlost

end Change

end DecodePipeline.Pipeline
