import Mathlib.Data.List.Induction
import DecodePipeline.Proofs.Pipeline.Holding
import DecodePipeline.Proofs.Pipeline.Observation

/-!
This module contains the isolation of segments: an engine only ever gets packets of the current segment,
and it is the engine that was opened for the current codec.
-/

namespace DecodePipeline

def Packet.BelongsTo (packet : Packet) (bounds : SegmentBounds) (codec : SharedCodec) : Prop :=
  ∀ label, packet.segment = some label →
    (label.bounds.start == bounds.start) = true ∧ (label.bounds.stop == bounds.stop) = true
      ∧ ∀ named, label.codec = some named → named.same codec = true

theorem SegmentTracker.belongsTo_of_not_isNewSegment (t : SegmentTracker) (packet : Packet)
    (active : SharedCodec) (hnew : t.isNewSegment packet active = false)
    : packet.BelongsTo t.bounds active := by
  intro label hlabel
  unfold isNewSegment keepsCodec at hnew
  rw [hlabel] at hnew
  simp only [Option.any_some, Bool.or_eq_false_iff, bne, Bool.not_eq_false'] at hnew
  rcases hnew with ⟨⟨hstart, hstop⟩, hcodec⟩
  refine ⟨hstart, hstop, ?_⟩
  intro named hnamed
  simpa [hnamed] using hcodec

namespace Pipeline

variable {ω ε φ ρ : Type}

theorem segment_forEngine (p : Pipeline ω ε φ ρ) (packet : Packet)
    : (p.forEngine packet).segment = packet.segment := by
  unfold forEngine
  split <;> rfl

theorem pending_belongsTo [PacketFeed φ] {p q : Pipeline ω ε φ ρ} (hseparate : p.Separate)
    {engine : ε} (hsending : p.sending = some (engine, q)) {packet : Packet}
    (hpending : q.pending = some packet)
    : packet.BelongsTo q.segments.bounds q.codec := by
  rcases sending_eq hsending with ⟨-, -, hfill, rfl⟩
  have hfilled := hseparate.fillPending hfill
  generalize p.fillPending.2 = r at *
  rcases r.holdNewSegment_cases with ⟨hhold, hsame⟩ | ⟨held, -, -, hhold⟩
  . rw [hhold] at hpending ⊢
    have hqueued : r.segments.queued = none := by simpa [Separate, hpending] using hfilled
    have hstarts := hsame packet hpending
    simp only [startsSegment, SegmentTracker.hasQueued, hqueued, Option.isSome_none, Bool.not_false,
      Bool.true_and] at hstarts
    exact r.segments.belongsTo_of_not_isNewSegment packet r.codec hstarts
  . rw [hhold] at hpending
    simp at hpending

def Fits (p : Pipeline (ObservedShared ω) (ObservedEngine ε) (ObservedFeed φ) ρ) : Prop :=
  ∀ engine, p.engine = some engine → engine.opened = [p.codec.params]

variable {p q : Pipeline (ObservedShared ω) (ObservedEngine ε) (ObservedFeed φ) ρ}

theorem Fits.of_eq (hfits : p.Fits)
    (hengine : q.engine.map (·.opened) = p.engine.map (·.opened)) (hcodec : q.codec = p.codec)
    : q.Fits := by
  intro engine hsome
  rw [hsome, Option.map_some] at hengine
  rcases Option.map_eq_some_iff.mp hengine.symm with ⟨before, hbefore, hopened⟩
  rw [← hopened, hcodec]
  exact hfits before hbefore

structure Isolated (p : Pipeline (ObservedShared ω) (ObservedEngine ε) (ObservedFeed φ) ρ) :
    Prop where
  observers : p.HasObservers
  separate : p.Separate
  fits : p.Fits

theorem Isolated.createObserved (codec : SharedCodec) (drivers : List (Driver ω ε)) (feed : φ)
    (shared : ω) (options : DecoderOptions) (now : UInt64)
    : (createObserved codec drivers feed shared options now
        : Pipeline (ObservedShared ω) (ObservedEngine ε) (ObservedFeed φ) ρ).Isolated := by
  refine ⟨⟨drivers, rfl⟩, .inl rfl, ?_⟩
  intro engine hengine
  cases hengine

variable [Engine ω ε]

theorem Fits.of_outline (hfits : p.Fits)
    (houtline : q.outline ObservedEngine.view = p.outline ObservedEngine.view)
    : q.Fits :=
  hfits.of_eq (congrArg (·.engines.1) houtline) (congrArg Outline.codec houtline)

theorem Fits.openDecoder (hobservers : p.HasObservers) (codec : SharedCodec)
    : (p.openDecoder codec).2.Fits := by
  have houtline := outline_openDecoder ObservedEngine.view p codec
  have hcodec : (p.openDecoder codec).2.codec = codec := congrArg Outline.codec houtline
  have hattached : (p.openDecoder codec).2.engine.isSome = (p.openDecoder codec).1.isOk :=
    congrArg Outline.attached houtline
  intro engine hengine
  cases hopen : (p.openDecoder codec).1 with
  | ok =>
    have hopened := openDecoder_opened p hobservers codec hopen
    rw [hengine, Option.map_some, Option.some.injEq] at hopened
    rw [hopened, hcodec]
  | error reason =>
    rw [hengine, hopen] at hattached
    cases hattached

theorem Fits.switchSegment (hfits : p.Fits) (hobservers : p.HasObservers)
    : p.switchSegment.Fits := by
  intro engine hengine
  cases hqueued : p.segments.queued with
  | none =>
    rw [switchSegment_of_queued_none p hqueued] at hengine ⊢
    exact hfits engine hengine
  | some packet =>
    have hattached : p.switchSegment.engine.isSome := by simp [hengine]
    rcases outline_switchSegment ObservedEngine.view p hqueued hattached with
      ⟨codec, engines, houtline, hengines⟩
    have hcodec : p.switchSegment.codec = codec := congrArg Outline.codec houtline
    have hopened : p.switchSegment.engine.map (·.opened) = engines.1 :=
      congrArg (·.engines.1) houtline
    rcases hengines with ⟨-, hsame, hkept⟩ | ⟨hopen, hkept⟩
    . exact hfits.of_eq (hopened.trans (congrArg (·.1) hkept)) (hcodec.trans hsame) engine hengine
    . have hnew : ((p.switching packet).openDecoder codec).2.Fits :=
        Fits.openDecoder (p := p.switching packet) hobservers codec
      have hnewcodec : ((p.switching packet).openDecoder codec).2.codec = codec :=
        congrArg Outline.codec
          (outline_openDecoder ObservedEngine.view (p.switching packet) codec)
      exact hnew.of_eq (hopened.trans (congrArg (·.1) hkept)) (hcodec.trans hnewcodec.symm) engine
        hengine

theorem Fits.readFrame (hfits : p.Fits) (hobservers : p.HasObservers) : p.readFrame.Fits := by
  rcases readFrame_cases ObservedEngine.view p with ⟨q, houtline, hcases⟩
  have hq : q.Fits := hfits.of_outline houtline
  have hqobservers : q.HasObservers := hobservers.of_eq (congrArg Outline.drivers houtline)
  rcases hcases with hread | ⟨-, -, frame, pts, -, -, hread⟩ | ⟨-, -, hread⟩
  . rw [hread]
    exact hq
  . rw [hread]
    exact hq
  . rw [hread]
    exact hq.switchSegment hqobservers

theorem Fits.feedPacket [PacketFeed φ] [PacketRecorder ρ] (hfits : p.Fits) : p.feedPacket.Fits := by
  cases hsending : p.sending with
  | none =>
    rcases p.feedPacket_of_not_sending hsending with hfeed | ⟨-, -, -, hfeed⟩
    . rw [hfeed]
      exact hfits
    . rw [hfeed]
      exact hfits
  | some sent =>
    rcases sent with ⟨engine, q⟩
    rcases outline_sending ObservedEngine.view p hsending with
      ⟨hengine, -, -, feed, pending, queued, phase, houtline⟩
    have hcodec : q.codec = p.codec := congrArg Outline.codec houtline
    have hsent := outline_sendPending ObservedEngine.view q engine
    rw [feedPacket_of_sending p hsending]
    apply hfits.of_eq
    . refine (congrArg (·.engines.1) hsent).trans ?_
      rw [hengine]
      rfl
    . exact (congrArg Outline.codec hsent).trans hcodec

theorem Isolated.readFrame (hisolated : p.Isolated) : p.readFrame.Isolated :=
  ⟨hisolated.observers.of_eq p.readFrame_drivers, hisolated.separate.readFrame,
    hisolated.fits.readFrame hisolated.observers⟩

theorem Isolated.feedPacket [PacketFeed φ] [PacketRecorder ρ] (hisolated : p.Isolated)
    : p.feedPacket.Isolated :=
  ⟨hisolated.observers.of_eq p.feedPacket_drivers, hisolated.separate.feedPacket,
    hisolated.fits.feedPacket⟩

theorem Isolated.perform [PacketFeed φ] [PacketRecorder ρ] (hisolated : p.Isolated)
    (operation : Operation (ObservedFeed φ) ρ)
    : (p.perform operation).Isolated := by
  have hobservers := hisolated.observers.of_eq (p.perform_drivers operation)
  have hseparate := hisolated.separate.perform operation
  cases operation with
  | work =>
    apply doWork_induct
    . exact hisolated
    . exact fun q hq => ⟨hq.observers, hq.separate, hq.fits⟩
    . exact fun q hq => hq.readFrame
    . exact fun q hq => hq.feedPacket
  | take =>
    have houtline := outline_getFrame ObservedEngine.view p
    refine ⟨hobservers, hseparate, hisolated.fits.of_eq ?_ ?_⟩
    . exact congrArg (·.engines.1) houtline
    . exact congrArg Outline.codec houtline
  | reset =>
    have houtline := outline_reset ObservedEngine.view p
    refine ⟨hobservers, hseparate, hisolated.fits.of_eq ?_ ?_⟩
    . exact congrArg (·.engines.1) houtline
    . exact congrArg Outline.codec houtline
  | openDecoder codec => exact ⟨hobservers, hseparate, .openDecoder hisolated.observers codec⟩
  | setStart | setFramedrop | resetParams | attachRecorder | detachRecorder | refill | wait =>
    exact ⟨hobservers, hseparate, hisolated.fits⟩

def sendingTo (p : Pipeline (ObservedShared ω) (ObservedEngine ε) (ObservedFeed φ) ρ)
    (engine : ObservedEngine ε) : Sending where
  packet := p.pending.map p.forEngine
  accepted := (p.sendReply engine p.pendingFrameDrop).answer
  opened := engine.opened

variable [PacketFeed φ] [PacketRecorder ρ]

theorem feedPacket_sendings
    (p : Pipeline (ObservedShared ω) (ObservedEngine ε) (ObservedFeed φ) ρ)
    : p.feedPacket.shared.sendings
        = p.shared.sendings ++ (p.sending.map fun sent => sent.2.sendingTo sent.1).toList := by
  cases hsending : p.sending with
  | none =>
    rw [Option.map_none, Option.toList_none, List.append_nil]
    rcases p.feedPacket_of_not_sending hsending with hfeed | ⟨-, -, -, hfeed⟩
    . rw [hfeed]
    . rw [hfeed]
  | some sent =>
    rcases sent with ⟨engine, q⟩
    rcases outline_sending ObservedEngine.view p hsending with
      ⟨-, -, -, feed, pending, queued, phase, houtline⟩
    have hq : q.shared.sendings = p.shared.sendings := congrArg (·.engines.2) houtline
    rw [feedPacket_of_sending p hsending, ← hq]
    exact congrArg (·.engines.2) (outline_sendPending ObservedEngine.view q engine)

theorem doWork_sendings (p : Pipeline (ObservedShared ω) (ObservedEngine ε) (ObservedFeed φ) ρ)
    (hobservers : p.HasObservers)
    : p.doWork.shared.sendings
        = p.shared.sendings
          ++ (p.readFrame.sending.map fun sent => sent.2.sendingTo sent.1).toList := by
  have hread := readFrame_sendings p hobservers
  have hfeed := feedPacket_sendings p.readFrame
  have hagain := readFrame_sendings p.readFrame.feedPacket
    (hobservers.of_eq (p.readFrame.feedPacket_drivers.trans p.readFrame_drivers))
  rw [hread] at hfeed
  unfold doWork
  split
  . next hdetached =>
    have hsending : p.readFrame.sending = none := by
      rw [readFrame_of_detached p (by simpa using hdetached)]
      unfold sending
      split
      . simp_all
      . rfl
    simp [hsending]
  . dsimp only
    split
    . next hready =>
      have hsending : p.readFrame.sending = none := by
        unfold sending
        split
        . simp_all
        . rfl
      simp [hsending, hread]
    . split
      . exact hfeed
      . exact hagain.trans hfeed

theorem perform_sendings (hisolated : p.Isolated) (operation : Operation φ ρ) {sending : Sending}
    (hsent : sending ∈ (p.perform (operation.lift ObservedFeed.lift)).shared.sendings)
    : sending ∈ p.shared.sendings
        ∨ (operation = .work ∧ ∃ engine q, p.readFrame.sending = some (engine, q)
          ∧ sending = q.sendingTo engine) := by
  cases operation with
  | work =>
    have hsent' : sending ∈ p.doWork.shared.sendings := hsent
    rw [doWork_sendings p hisolated.observers, List.mem_append, Option.mem_toList,
      Option.map_eq_some_iff] at hsent'
    rcases hsent' with hbefore | ⟨sent, hsending, rfl⟩
    . exact .inl hbefore
    . exact .inr ⟨rfl, sent.1, sent.2, hsending, rfl⟩
  | take =>
    have htake : p.getFrame.2.2.shared.sendings = p.shared.sendings :=
      congrArg (·.engines.2) (outline_getFrame ObservedEngine.view p)
    left
    rw [← htake]
    exact hsent
  | reset =>
    have hreset : p.reset.shared.sendings = p.shared.sendings :=
      congrArg (·.engines.2) (outline_reset ObservedEngine.view p)
    left
    rw [← hreset]
    exact hsent
  | openDecoder codec =>
    left
    rw [← openDecoder_sendings p hisolated.observers codec]
    exact hsent
  | setStart | setFramedrop | resetParams | attachRecorder | detachRecorder | refill | wait =>
    exact .inl hsent

theorem Isolated.afterPlain (hisolated : p.Isolated) (operations : List (Operation φ ρ))
    : (p.afterPlain operations).Isolated := by
  unfold Pipeline.afterPlain
  apply after_induct
  . exact hisolated
  . exact fun q operation _ hq => hq.perform operation

/--
Whatever the engines and the feed do, and whatever happens to the pipeline: a packet that is sent
belongs to the segment that the pipeline reports when it sends, and the engine that gets it was opened
for the codec that the pipeline reports, and for no other.
-/
theorem sent_to_own_segment (codec : SharedCodec) (drivers : List (Driver ω ε)) (feed : φ)
    (shared : ω) (options : DecoderOptions) (now : UInt64) (operations : List (Operation φ ρ))
    : let start : Pipeline (ObservedShared ω) (ObservedEngine ε) (ObservedFeed φ) ρ :=
        createObserved codec drivers feed shared options now
      (start.afterPlain operations).plain drivers
          = (create codec drivers feed shared options now).after operations
        ∧ ∀ sending ∈ (start.afterPlain operations).shared.sendings,
          ∃ first rest, operations = first ++ .work :: rest ∧ ∃ (engine : ObservedEngine ε)
            (q : Pipeline (ObservedShared ω) (ObservedEngine ε) (ObservedFeed φ) ρ),
            (start.afterPlain first).readFrame.feedPacket = q.sendPending engine
            ∧ sending = q.sendingTo engine
            ∧ q.engine = some engine
            ∧ engine.opened = [q.codec.params]
            ∧ ∀ packet, sending.packet = some packet →
              packet.BelongsTo q.segments.bounds q.codec := by
  intro start
  have hstart : start.Isolated := .createObserved codec drivers feed shared options now
  refine ⟨plain_afterPlain start rfl operations, ?_⟩
  induction operations using List.reverseRecOn with
  | nil =>
    intro sending hsending
    cases hsending
  | append_singleton operations operation ih =>
    intro sending hsending
    rw [afterPlain_concat] at hsending
    have hisolated := hstart.afterPlain operations
    rcases perform_sendings hisolated operation hsending with hbefore | ⟨rfl, engine, q, hsent, rfl⟩
    . rcases ih sending hbefore with ⟨first, rest, hsplit, hrest⟩
      refine ⟨first, rest ++ [operation], ?_, hrest⟩
      rw [hsplit]
      simp
    . have hread := hisolated.readFrame
      rcases outline_sending ObservedEngine.view _ hsent with
        ⟨hengine, -, hreceiver, feed, pending, queued, phase, houtline⟩
      have hcodec : q.codec = (start.afterPlain operations).readFrame.codec :=
        congrArg Outline.codec houtline
      refine ⟨operations, [], rfl, engine, q, feedPacket_of_sending _ hsent, rfl, hreceiver, ?_, ?_⟩
      . rw [hcodec]
        exact hread.fits engine hengine
      . intro packet hpacket
        rcases Option.map_eq_some_iff.mp hpacket with ⟨pending, hpending, rfl⟩
        intro label hlabel
        rw [segment_forEngine] at hlabel
        exact pending_belongsTo hread.separate hsent hpending label hlabel

def sampleObserved :
    Pipeline (ObservedShared Unit) (ObservedEngine RawVideoEngine) (ObservedFeed PacketChannel)
      Collection :=
  createObserved sampleCodec defaultDrivers (sampleFeed [samplePacket]) () {} 0

theorem sample_sent_to_own_segment
    : ∃ sending ∈ (sampleObserved.afterPlain
          [.openDecoder sampleCodec, .work, .work]).shared.sendings,
        ∃ packet, sending.packet = some packet ∧ packet.segment = samplePacket.segment
          ∧ ∃ bounds codec, sending.opened = [codec.params] ∧ packet.BelongsTo bounds codec := by
  have hsent : (sampleObserved.afterPlain
      [.openDecoder sampleCodec, .work, .work]).shared.sendings.any (fun sending =>
        sending.packet.any fun packet => decide (packet.segment = samplePacket.segment)) := by
    decide +kernel
  rcases List.any_eq_true.mp hsent with ⟨sending, hmem, hpacket⟩
  rcases (Option.any_eq_true _ _).mp hpacket with ⟨packet, hsome, hsegment⟩
  have hown := (sent_to_own_segment sampleCodec defaultDrivers (sampleFeed [samplePacket]) () {} 0
    [.openDecoder sampleCodec, .work, .work]).2 sending hmem
  rcases hown with ⟨first, rest, -, engine, q, -, hq, -, hopened, hbelongs⟩
  refine ⟨sending, hmem, packet, hsome, of_decide_eq_true hsegment, q.segments.bounds, q.codec, ?_,
    hbelongs packet hsome⟩
  rw [hq]
  exact hopened

end Pipeline
end DecodePipeline
