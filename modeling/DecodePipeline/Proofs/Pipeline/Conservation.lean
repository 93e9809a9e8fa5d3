import DecodePipeline.Proofs.Pipeline.Holding
import DecodePipeline.Proofs.Pipeline.Observation

/-!
This module contains the conservation of packets: what a pipeline read from its feed is what its engines
accepted, in the same order, and then the packet that it holds, if there is one.
-/

namespace DecodePipeline

def Packet.SentAs (packet sent : Packet) : Prop :=
  -- An engine gets a packet as it is, or with its presentation time in place of a missing decode
  -- time.
  sent = packet ∨ (packet.dts = none ∧ sent = { packet with dts := packet.pts })

namespace Pipeline

variable {ω ε φ ρ : Type}

theorem sentAs_forEngine (p : Pipeline ω ε φ ρ) (packet : Packet)
    : packet.SentAs (p.forEngine packet) := by
  unfold forEngine Packet.SentAs
  split
  . next hmissing =>
    right
    simp_all
  . exact .inl rfl

structure Balanced (p : Pipeline (ObservedShared ω) (ObservedEngine ε) (ObservedFeed φ) ρ) :
    Prop where
  observers : p.HasObservers
  separate : p.Separate
  conserved : ∃ packets, p.feed.read = packets ++ p.held
    ∧ List.Forall₂ Packet.SentAs packets p.shared.accepted

section

variable {p : Pipeline (ObservedShared ω) (ObservedEngine ε) (ObservedFeed φ) ρ}

theorem Balanced.fillPending [PacketFeed φ] (hbalanced : p.Balanced)
    (hfill : p.fillPending.1 = false)
    : p.fillPending.2.Balanced := by
  rcases hbalanced.conserved with ⟨packets, hread, haccepted⟩
  rcases p.fillPending_cases hfill with
    ⟨-, hq⟩ | ⟨hheld, packet, feed, htry, hq⟩ | ⟨hheld, feed, htry, hq⟩
  . rw [hq]
    exact hbalanced
  . have hqueued : p.segments.queued = none := (p.held_eq_nil.mp hheld).2
    rw [hq]
    refine ⟨hbalanced.observers, .inr hqueued, packets, ?_, haccepted⟩
    refine (ObservedFeed.read_of_tryRead htry).trans ?_
    rw [hread, hheld]
    simp [held, hqueued, Poll.items]
  . rw [hq]
    refine ⟨hbalanced.observers, hbalanced.separate, packets, ?_, haccepted⟩
    refine (ObservedFeed.read_of_tryRead htry).trans ?_
    rw [hread]
    simp [held, Poll.items]

theorem Balanced.holdNewSegment (hbalanced : p.Balanced) : p.holdNewSegment.Balanced := by
  rcases p.holdNewSegment_cases with ⟨hhold, -⟩ | ⟨packet, hpending, hqueued, hhold⟩
  . rw [hhold]
    exact hbalanced
  . rcases hbalanced.conserved with ⟨packets, hread, haccepted⟩
    rw [hhold]
    refine ⟨hbalanced.observers, .inl rfl, packets, hread.trans ?_, haccepted⟩
    simp [held, hpending, hqueued, SegmentTracker.queue]

end

structure SameFlow (p q : Pipeline (ObservedShared ω) (ObservedEngine ε) (ObservedFeed φ) ρ) :
    Prop where
  attached : q.engine.isSome = p.engine.isSome
  drivers : q.drivers = p.drivers
  pending : q.pending = p.pending
  segments : q.segments = p.segments
  read : q.feed.read = p.feed.read
  sendings : q.shared.sendings = p.shared.sendings

variable {p q : Pipeline (ObservedShared ω) (ObservedEngine ε) (ObservedFeed φ) ρ}

theorem SameFlow.of_outline [Engine ω ε]
    (houtline : q.outline ObservedEngine.view = p.outline ObservedEngine.view)
    : p.SameFlow q where
  attached := congrArg Outline.attached houtline
  drivers := congrArg Outline.drivers houtline
  pending := congrArg Outline.pending houtline
  segments := congrArg Outline.segments houtline
  read := congrArg (·.feed.read) houtline
  sendings := congrArg (·.engines.2) houtline

theorem Balanced.of_sameFlow (hbalanced : p.Balanced) (hsame : p.SameFlow q) : q.Balanced := by
  rcases hbalanced with ⟨observers, separate, conserved⟩
  refine ⟨?_, ?_, ?_⟩
  . exact observers.of_eq hsame.drivers
  . exact separate.of_eq hsame.pending hsame.segments
  . unfold held ObservedShared.accepted
    rw [hsame.read, hsame.pending, hsame.segments, hsame.sendings]
    exact conserved

def Flows (p : Pipeline (ObservedShared ω) (ObservedEngine ε) (ObservedFeed φ) ρ) : Prop :=
  -- The packets are balanced, or a change of segments failed and left the pipeline without
  -- decoder.
  (p.engine.isSome ∧ p.Balanced) ∨ (p.engine = none ∧ p.segments.phase = .switching)

theorem Flows.of_sameFlow (hflows : p.Flows) (hsame : p.SameFlow q) : q.Flows := by
  rcases hflows with ⟨hengine, hbalanced⟩ | ⟨hengine, hphase⟩
  . exact .inl ⟨hsame.attached.trans hengine, hbalanced.of_sameFlow hsame⟩
  . refine .inr ⟨?_, ?_⟩
    . simpa [hengine] using hsame.attached
    . rw [hsame.segments]
      exact hphase

variable [Engine ω ε]

theorem Balanced.sendPending [PacketRecorder ρ] (hbalanced : p.Balanced)
    (engine : ObservedEngine ε)
    : (p.sendPending engine).Balanced := by
  have hseparate := hbalanced.separate.sendPending engine
  have houtline := outline_sendPending ObservedEngine.view p engine
  have hdrivers : (p.sendPending engine).drivers = p.drivers := congrArg Outline.drivers houtline
  have hfeed : (p.sendPending engine).feed = p.feed := congrArg Outline.feed houtline
  have hsegments : (p.sendPending engine).segments = p.segments :=
    congrArg Outline.segments houtline
  have hpending : (p.sendPending engine).pending
      = if (p.sendReply engine p.pendingFrameDrop).answer then none else p.pending :=
    congrArg Outline.pending houtline
  have hsendings : (p.sendPending engine).shared.sendings
      = p.shared.sendings ++ [⟨p.pending.map p.forEngine,
          (p.sendReply engine p.pendingFrameDrop).answer, engine.opened⟩] :=
    congrArg (·.engines.2) houtline
  rcases hbalanced with ⟨observers, separate, packets, hread, haccepted⟩
  refine ⟨?_, hseparate, ?_⟩
  . exact observers.of_eq hdrivers
  . unfold ObservedShared.accepted at haccepted ⊢
    unfold held
    rw [hfeed, hpending, hsegments, hsendings, List.filterMap_append]
    cases (p.sendReply engine p.pendingFrameDrop).answer with
    | false =>
      refine ⟨packets, hread, ?_⟩
      simpa using haccepted
    | true =>
      cases hsent : p.pending with
      | none =>
        refine ⟨packets, ?_, ?_⟩
        . simpa [held, hsent] using hread
        . simpa using haccepted
      | some packet =>
        have hqueued : p.segments.queued = none := by simpa [Separate, hsent] using separate
        refine ⟨packets ++ [packet], ?_, ?_⟩
        . simpa [held, hsent, hqueued] using hread
        . exact List.rel_append haccepted (.cons (sentAs_forEngine p packet) .nil)

theorem Balanced.feedPacket [PacketFeed φ] [PacketRecorder ρ] (hbalanced : p.Balanced)
    : p.feedPacket.Balanced := by
  cases hsending : p.sending with
  | none =>
    rcases p.feedPacket_of_not_sending hsending with hfeed | ⟨-, -, hempty, hfeed⟩
    . rw [hfeed]
      exact hbalanced
    . rcases hbalanced with ⟨observers, separate, packets, hread, haccepted⟩
      rw [hfeed]
      refine ⟨observers, separate, packets, ?_, haccepted⟩
      have htry : PacketFeed.tryRead p.feed
          = ((PacketFeed.tryRead p.feed).1, (PacketFeed.tryRead p.feed).2) := rfl
      refine (ObservedFeed.read_of_tryRead htry).trans ?_
      rw [hempty, hread]
      simp [held, Poll.items]
  | some sent =>
    rcases sent with ⟨engine, q⟩
    rw [feedPacket_of_sending p hsending]
    apply Balanced.sendPending
    rcases sending_eq hsending with ⟨-, -, hfill, rfl⟩
    exact (hbalanced.fillPending hfill).holdNewSegment

theorem switchSegment_held (p : Pipeline ω ε φ ρ) (hseparate : p.Separate)
    (hattached : p.switchSegment.engine.isSome)
    : p.switchSegment.held = p.held := by
  cases hqueued : p.segments.queued with
  | none => rw [switchSegment_of_queued_none p hqueued]
  | some packet =>
    have hpending : p.pending = none := by simpa [Separate, hqueued] using hseparate
    rcases outline_switchSegment (.nothing ω ε) p hqueued hattached with
      ⟨codec, engines, houtline, hengines⟩
    have hsent : p.switchSegment.pending = some packet := congrArg Outline.pending houtline
    have hsegments : p.switchSegment.segments = { bounds := packet.bounds } :=
      congrArg Outline.segments houtline
    simp [held, hsent, hsegments, hpending, hqueued]

theorem Balanced.switchSegment (hbalanced : p.Balanced) (hattached : p.switchSegment.engine.isSome)
    : p.switchSegment.Balanced := by
  cases hqueued : p.segments.queued with
  | none =>
    rw [switchSegment_of_queued_none p hqueued]
    exact hbalanced
  | some packet =>
    have hheld := switchSegment_held p hbalanced.separate hattached
    rcases outline_switchSegment ObservedEngine.view p hqueued hattached with
      ⟨codec, engines, houtline, hengines⟩
    have hfeed : p.switchSegment.feed = p.feed := congrArg Outline.feed houtline
    refine ⟨?_, hbalanced.separate.switchSegment, ?_⟩
    . exact hbalanced.observers.of_eq p.switchSegment_drivers
    . unfold ObservedShared.accepted
      rw [hfeed, hheld, switchSegment_sendings p hbalanced.observers]
      exact hbalanced.conserved

theorem Flows.switchSegment (hflows : p.Flows) (hattached : p.engine.isSome)
    : p.switchSegment.Flows := by
  rcases hflows with ⟨-, hbalanced⟩ | ⟨hengine, -⟩
  . by_cases hengine : p.switchSegment.engine.isSome
    . exact .inl ⟨hengine, hbalanced.switchSegment hengine⟩
    . have hnone : p.switchSegment.engine = none := by simpa using hengine
      exact .inr ⟨hnone, switchSegment_phase p hattached hnone⟩
  . simp [hengine] at hattached

theorem Flows.readFrame (hflows : p.Flows) : p.readFrame.Flows := by
  rcases readFrame_cases ObservedEngine.view p with ⟨q, houtline, hcases⟩
  have hq : q.Flows := hflows.of_sameFlow (.of_outline houtline)
  rcases hcases with hread | ⟨-, -, frame, pts, -, -, hread⟩ | ⟨hattached, -, hread⟩
  . rw [hread]
    exact hq
  . rw [hread]
    exact hq.of_sameFlow ⟨rfl, rfl, rfl, rfl, rfl, rfl⟩
  . rw [hread]
    exact hq.switchSegment ((congrArg Outline.attached houtline).trans hattached)

theorem Flows.feedPacket [PacketFeed φ] [PacketRecorder ρ] (hflows : p.Flows)
    : p.feedPacket.Flows := by
  rcases outline_feedPacket ObservedEngine.view p with
    ⟨feed, engines, pending, queued, phase, houtline⟩
  have hattached : p.feedPacket.engine.isSome = p.engine.isSome :=
    congrArg Outline.attached houtline
  rcases hflows with ⟨hengine, hbalanced⟩ | ⟨hengine, hphase⟩
  . exact .inl ⟨hattached.trans hengine, hbalanced.feedPacket⟩
  . have hfeed : p.feedPacket = p := by simp [Pipeline.feedPacket, hengine]
    rw [hfeed]
    exact .inr ⟨hengine, hphase⟩

theorem Flows.perform [PacketFeed φ] [PacketRecorder ρ] (hflows : p.Flows)
    (operation : Operation φ ρ) (hkeeps : operation.keepsStream)
    : (p.perform (operation.lift ObservedFeed.lift)).Flows := by
  cases operation with
  | work =>
    apply doWork_induct
    . exact hflows
    . exact fun q hq => hq.of_sameFlow ⟨rfl, rfl, rfl, rfl, rfl, rfl⟩
    . exact fun q hq => hq.readFrame
    . exact fun q hq => hq.feedPacket
  | take =>
    have houtline := outline_getFrame ObservedEngine.view p
    exact hflows.of_sameFlow
      ⟨congrArg Outline.attached houtline, congrArg Outline.drivers houtline,
        congrArg Outline.pending houtline, congrArg Outline.segments houtline,
        congrArg (·.feed.read) houtline, congrArg (·.engines.2) houtline⟩
  | reset | openDecoder => exact hkeeps.elim
  | setStart | setFramedrop | resetParams | attachRecorder | detachRecorder | refill | wait =>
    exact hflows.of_sameFlow ⟨rfl, rfl, rfl, rfl, rfl, rfl⟩

theorem Flows.afterPlain [PacketFeed φ] [PacketRecorder ρ] (hflows : p.Flows)
    (operations : List (Operation φ ρ))
    (hkeeps : ∀ operation ∈ operations, operation.keepsStream)
    : (p.afterPlain operations).Flows := by
  unfold Pipeline.afterPlain
  induction operations generalizing p with
  | nil => exact hflows
  | cons operation operations ih =>
    rw [List.map_cons, after_cons]
    apply ih
    . exact hflows.perform operation (hkeeps operation List.mem_cons_self)
    . exact fun later hlater => hkeeps later (List.mem_cons_of_mem operation hlater)

theorem Flows.of_openObserved [PacketFeed φ] (codec : SharedCodec) (drivers : List (Driver ω ε))
    (feed : φ) (shared : ω) (options : DecoderOptions) (now : UInt64)
    (hopen : openObserved codec drivers feed shared options now = (.ok (), p))
    : p.Flows := by
  let created : Pipeline (ObservedShared ω) (ObservedEngine ε) (ObservedFeed φ) ρ :=
    createObserved codec drivers feed shared options now
  have hcreated : created.HasObservers := ⟨drivers, rfl⟩
  have houtline := outline_openDecoder ObservedEngine.view created codec
  have hsendings := openDecoder_sendings created hcreated codec
  rw [show created.openDecoder codec = (.ok (), p) from hopen] at houtline hsendings
  have hattached : p.engine.isSome := congrArg Outline.attached houtline
  have hdrivers : p.drivers = created.drivers := congrArg Outline.drivers houtline
  have hpending : p.pending = none := congrArg Outline.pending houtline
  have hsegments : p.segments = {} := congrArg Outline.segments houtline
  have hfeed : p.feed = created.feed := congrArg Outline.feed houtline
  refine .inl ⟨hattached, ?_, .inl hpending, [], ?_, ?_⟩
  . exact hcreated.of_eq hdrivers
  . rw [hfeed, (p.held_eq_nil.mpr ⟨hpending, by rw [hsegments]⟩)]
    rfl
  . unfold ObservedShared.accepted
    rw [hsendings]
    exact .nil

/--
Whatever the engines and the feed do, the packets that were read are the packets that engines accepted
and the held packet, as long as no change of segments fails for want of a decoder. A packet is never
held back while another one is, and a change of segments keeps the held packet.
-/
theorem packets_conserved [PacketFeed φ] [PacketRecorder ρ] (codec : SharedCodec)
    (drivers : List (Driver ω ε)) (feed : φ) (shared : ω) (options : DecoderOptions) (now : UInt64)
    {start : Pipeline ω ε φ ρ}
    (hopen : openWith codec drivers feed shared options now = (.ok (), start))
    : (∃ observed, openObserved codec drivers feed shared options now = (.ok (), observed)
        ∧ ∀ operations : List (Operation φ ρ),
          (∀ operation ∈ operations, operation.keepsStream) →
            let p := observed.afterPlain operations
            p.plain drivers = start.after operations
              ∧ (p.segments.phase ≠ .switching →
                p.hasDecoder
                  ∧ (p.pending = none ∨ p.segments.queued = none)
                  ∧ p.held.length ≤ 1
                  ∧ ∃ packets, p.feed.read = packets ++ p.held
                    ∧ List.Forall₂ Packet.SentAs packets p.shared.accepted))
      ∧ (∀ q : Pipeline ω ε φ ρ, q.segments.hasQueued → q.holdNewSegment = q)
      ∧ (∀ q : Pipeline ω ε φ ρ, q.pending = none ∨ q.segments.queued = none →
          q.switchSegment.hasDecoder → q.switchSegment.held = q.held) := by
  refine ⟨?_, fun q => q.holdNewSegment_of_queued, fun q => q.switchSegment_held⟩
  rw [plain_openObserved] at hopen
  rcases hobserved : openObserved codec drivers feed shared options now with ⟨result, observed⟩
  rw [hobserved] at hopen
  simp only [Prod.map, id_eq, Prod.mk.injEq] at hopen
  rcases hopen with ⟨rfl, hplain⟩
  refine ⟨observed, rfl, ?_⟩
  intro operations hkeeps
  refine ⟨?_, ?_⟩
  . rw [← hplain]
    exact plain_afterPlain observed
      (openObserved_drivers codec drivers feed shared options now hobserved) operations
  . intro hphase
    have hstart : observed.Flows :=
      .of_openObserved codec drivers feed shared options now hobserved
    rcases hstart.afterPlain operations hkeeps with ⟨hengine, hbalanced⟩ | ⟨-, hstuck⟩
    . exact ⟨hengine, hbalanced.separate, hbalanced.separate.held_length, hbalanced.conserved⟩
    . exact absurd hstuck hphase

theorem sample_packets_conserved
    : ∃ observed, openObserved sampleCodec defaultDrivers (sampleFeed [samplePacket]) () {} 0
          = (.ok (), observed)
        ∧ let p : Pipeline (ObservedShared Unit) (ObservedEngine RawVideoEngine)
              (ObservedFeed PacketChannel) Collection := observed.afterPlain [.work, .work]
          p.segments.phase ≠ .switching
            ∧ ∃ packets, p.feed.read = packets ++ p.held
              ∧ List.Forall₂ Packet.SentAs packets p.shared.accepted := by
  let start : Except OpenError Unit × Pipeline Unit RawVideoEngine PacketChannel Collection :=
    openWith sampleCodec defaultDrivers (sampleFeed [samplePacket]) () {} 0
  have hopen : start = (.ok (), start.2) := by rfl
  rcases (packets_conserved sampleCodec defaultDrivers (sampleFeed [samplePacket]) () {} 0 hopen).1
    with ⟨observed, hobserved, hconserved⟩
  have hphase : ((openObserved sampleCodec (@defaultDrivers Unit) (sampleFeed [samplePacket]) () {}
      0).2.afterPlain [(.work : Operation PacketChannel Collection), .work]).segments.phase
      ≠ .switching := by decide +kernel
  rw [hobserved] at hphase
  have hkept := hconserved [.work, .work] (by simp [Operation.keepsStream])
  exact ⟨observed, hobserved, hphase, (hkept.2 hphase).2.2.2⟩

end Pipeline
end DecodePipeline
