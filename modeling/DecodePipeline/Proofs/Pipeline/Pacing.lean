import DecodePipeline.Proofs.Pipeline.Missing
import DecodePipeline.Proofs.Pipeline.Offering

/-!
This module contains the times that a pipeline gives its frames when those of the decoder do not
count: whatever the engines and the feed do, each frame follows the last one of the same segment.
-/

namespace DecodePipeline.Pipeline

open Passage

variable {ω ε φ ρ : Type} [Engine ω ε]

section Passages

def decoding (p : Pipeline ω ε φ ρ) (frame : Frame) : Passage :=
  .decoded frame (p.options.effectiveFps p.codec.params.frameRate) (p.finishFrame frame).1

def receiving (p : Pipeline ω ε φ ρ) : List Passage :=
  match p.engine, p.ready with
  | some engine, none =>
    let reply := Engine.receive engine p.shared
    match reply.answer with
    | .frame frame => [(p.afterReply reply).decoding frame]
    | _ => []
  | _, _ => []

def changing (p q : Pipeline ω ε φ ρ) : List Passage :=
  if p.segments.hasQueued && !q.segments.hasQueued then [.startedOver] else []

def reading (p : Pipeline ω ε φ ρ) : List Passage := p.receiving ++ p.changing p.readFrame

variable [PacketFeed φ]

def sends (p : Pipeline ω ε φ ρ) : List Passage :=
  p.feeding.flatMap fun offer => (offer.packet.map .offered).toList

variable [PacketRecorder ρ]

def working (p : Pipeline ω ε φ ρ) : List Passage :=
  -- without a packet to feed, there is nothing to read either
  let fed := p.readFrame.feedPacket
  p.reading ++ p.readFrame.sends ++ if fed.status == .waiting then [] else fed.reading

def passagesOf (p : Pipeline ω ε φ ρ) : Operation φ ρ → List Passage
  | .work => p.working
  | .reset | .openDecoder _ => [.startedOver]
  | _ => []

def passages (p : Pipeline ω ε φ ρ) : List (Operation φ ρ) → List Passage
  | [] => []
  | operation :: operations => p.passagesOf operation ++ (p.perform operation).passages operations

end Passages

section Changing

variable {p q : Pipeline ω ε φ ρ}

omit [Engine ω ε] in
theorem changing_of_same (hsegments : q.segments = p.segments) : p.changing q = [] := by
  unfold changing
  rw [hsegments]
  simp

omit [Engine ω ε] in
theorem changing_congr (hsegments : q.segments = p.segments) (r : Pipeline ω ε φ ρ)
    : q.changing r = p.changing r := by
  unfold changing
  rw [hsegments]

theorem changing_switchSegment
    : p.changing p.switchSegment = if p.segments.hasQueued then [.startedOver] else [] := by
  have hqueued := p.switchSegment_queued
  unfold changing SegmentTracker.hasQueued
  rw [hqueued]
  simp

theorem reading_of_same (hreceiving : p.receiving = []) (hread : p.readFrame = p)
    : p.reading = [] := by
  unfold reading
  rw [hreceiving, hread, changing_of_same rfl, List.append_nil]

theorem reading_of_detached (hengine : p.engine = none) : p.reading = [] := by
  apply reading_of_same _ (p.readFrame_of_detached hengine)
  unfold receiving
  rw [hengine]

theorem reading_of_ready (hready : p.ready.isSome) : p.reading = [] := by
  apply reading_of_same _ (p.readFrame_of_ready hready)
  rcases Option.isSome_iff_exists.mp hready with ⟨frame, hframe⟩
  unfold receiving
  rw [hframe]
  cases p.engine <;> rfl

variable [PacketFeed φ] [PacketRecorder ρ]

theorem working_of_detached (hengine : p.engine = none) : p.working = [] := by
  unfold working sends
  dsimp only
  rw [p.readFrame_of_detached hengine, p.feedPacket_of_detached hengine,
    p.feeding_of_detached hengine, reading_of_detached hengine]
  simp

theorem working_of_ready (hready : p.readFrame.ready.isSome) : p.working = p.reading := by
  have hkept : p.readFrame.feedPacket = p.readFrame := by
    rcases Option.isSome_iff_exists.mp hready with ⟨frame, hframe⟩
    unfold Pipeline.feedPacket
    rw [hframe]
    cases p.readFrame.engine <;> rfl
  unfold working sends
  dsimp only
  rw [hkept, p.readFrame.feeding_of_ready hready, reading_of_ready hready]
  simp

end Changing

section Packets

variable [PacketFeed φ] [PacketRecorder ρ] (p : Pipeline ω ε φ ρ)

omit [PacketFeed φ] [PacketRecorder ρ] in
theorem reading_packets : p.reading.filterMap packet? = [] := by
  have hreceiving : p.receiving.filterMap packet? = [] := by
    unfold receiving
    split
    . dsimp only
      split <;> rfl
    . rfl
  unfold reading changing
  rw [List.filterMap_append, hreceiving]
  split <;> rfl

omit [PacketRecorder ρ] in
theorem sends_packets : p.sends.filterMap packet? = p.feeding.filterMap (·.packet) := by
  unfold sends
  induction p.feeding with
  | nil => rfl
  | cons offer offers ih =>
    rw [List.flatMap_cons, List.filterMap_append, ih]
    cases hpacket : offer.packet with
    | none => simp [hpacket]
    | some packet => simp [hpacket, packet?]

theorem passagesOf_packets (operation : Operation φ ρ)
    : (p.passagesOf operation).filterMap packet? = (p.offersOf operation).filterMap (·.packet) := by
  cases operation with
  | work =>
    unfold passagesOf offersOf working offering
    simp only [List.filterMap_append, reading_packets, sends_packets]
    split
    . simp
    . simp [reading_packets]
  | take | reset | openDecoder | setStart | setFramedrop | resetParams | attachRecorder
  | detachRecorder | refill | wait => rfl

theorem passages_packets (operations : List (Operation φ ρ))
    : (p.passages operations).filterMap packet? = (p.offers operations).filterMap (·.packet) := by
  induction operations generalizing p with
  | nil => rfl
  | cons operation operations ih =>
    rw [passages, offers, List.filterMap_append, List.filterMap_append, p.passagesOf_packets, ih]

end Packets

section Timeline

variable {p : Pipeline ω ε φ ρ}

theorem resetSegment_timeline (p : Pipeline ω ε φ ρ)
    : p.resetSegment.timeline = { trust := p.timeline.trust } := by
  rcases p.command_eq .reset with ⟨engine, shared, hcommand⟩
  unfold resetSegment
  rw [hcommand]
  rfl

theorem reset_timeline (p : Pipeline ω ε φ ρ) : p.reset.timeline = {} := by
  have hreset := (p.say .reset).resetSegment_timeline
  unfold reset Reconciler.restartProbe
  dsimp only
  rw [hreset]

theorem switchSegment_timeline {packet : Packet} (hqueued : p.segments.queued = some packet)
    : ∃ trust, p.switchSegment.timeline = { trust } := by
  cases hkind : SegmentTracker.switchKind packet p.codec with
  | «continue» =>
    rw [switchSegment_of_continue p hqueued hkind]
    exact ⟨p.timeline.trust, (p.switching packet).resetSegment_timeline⟩
  | reinit codec =>
    have hforgets := ((p.switching packet).openDecoder_forgets codec).1
    rw [switchSegment_of_reinit p hqueued hkind]
    rcases hresult : (p.switching packet).openDecoder codec with ⟨result, q⟩
    rw [hresult] at hforgets
    cases result with
    | ok => exact ⟨.fresh, hforgets⟩
    | error reason => exact ⟨.fresh, hforgets⟩

theorem finishFrame_uncorrected (huncorrected : p.options.correctPts = false) (frame : Frame)
    : let rate := p.options.effectiveFps p.codec.params.frameRate
      (p.finishFrame frame).1 = p.timeline.synthesized rate
        ∧ (p.finishFrame frame).2.2.timeline
          = (p.timeline.reconcile frame.pts frame.dts false rate).2
        ∧ (p.finishFrame frame).2.2.health = p.health.recordDecoded true := by
  intro rate
  have hreconciled := p.timeline.reconcile_uncorrected frame.pts frame.dts rate
  have hdelay : ((p.settleTime frame).2.settleParams frame).2.delayRate = none := by
    have houtline := (outline_settleParams (.nothing ω ε) (p.settleTime frame).2 frame).trans
      (outline_settleTime (.nothing ω ε) p frame)
    have hoptions : ((p.settleTime frame).2.settleParams frame).2.options = p.options :=
      congrArg Outline.options houtline
    unfold delayRate
    rw [hoptions, huncorrected, Bool.and_false]
    rfl
  have hfinish : p.finishFrame frame
      = ((p.settleTime frame).1,
          { frame with
            pts := some (p.settleTime frame).1
            params := ((p.settleTime frame).2.settleParams frame).1 },
          ((p.settleTime frame).2.settleParams frame).2) := by
    unfold finishFrame compensate
    dsimp only
    rw [hdelay]
  have htime : (p.settleTime frame).1 = (p.timeline.reconcile frame.pts frame.dts false rate).1.pts
      ∧ (p.settleTime frame).2.timeline
        = (p.timeline.reconcile frame.pts frame.dts false rate).2
      ∧ (p.settleTime frame).2.health
        = p.health.recordDecoded
          (p.timeline.reconcile frame.pts frame.dts false rate).1.synthesized := by
    unfold settleTime
    dsimp only
    rw [huncorrected]
    exact ⟨rfl, rfl, rfl⟩
  rw [hfinish]
  rw [hreconciled.1] at htime
  exact htime

end Timeline

section Paced

variable [PacketRecorder ρ]

structure Paced (p : Pipeline ω ε φ ρ) (passages : List Passage) : Prop where
  uncorrected : p.options.correctPts = false
  paces : p.timeline.Paces p.health passages
  ready : ∀ frame, p.ready = some frame → frame.pts = lastGiven passages
  noneMissing : p.NoneMissing

variable {p q : Pipeline ω ε φ ρ} {passages : List Passage}

omit [Engine ω ε] in
theorem Paced.and_nothing (hp : p.Paced passages) : p.Paced (passages ++ []) := by
  rw [List.append_nil]
  exact hp

omit [Engine ω ε] in
theorem Paced.and_unchanged (hq : q.Paced passages) (hsegments : q.segments = p.segments)
    : q.Paced (passages ++ p.changing q) := by
  rw [changing_of_same hsegments]
  exact hq.and_nothing

omit [Engine ω ε] in
theorem Paced.startedOver (hp : p.Paced passages) {trust : Trust}
    (hoptions : q.options = p.options) (htimeline : q.timeline = { trust })
    (hframes : q.health.framesDecoded = p.health.framesDecoded)
    (hsynthesized : q.health.synthesizedPts = p.health.synthesizedPts)
    (hready : q.ready = none) (hnone : q.NoneMissing)
    : q.Paced (passages ++ [.startedOver]) where
  uncorrected := hoptions ▸ hp.uncorrected
  paces := by
    rw [htimeline]
    exact (hp.paces.reset trust).of_health hframes hsynthesized
  ready := by simp [hready]
  noneMissing := hnone

theorem Paced.reset (hp : p.Paced passages) : p.reset.Paced (passages ++ [.startedOver]) := by
  have houtline := outline_reset (.nothing ω ε) p
  apply hp.startedOver
  . exact congrArg Outline.options houtline
  . exact p.reset_timeline
  . rw [p.reset_health]
  . rw [p.reset_health]
  . exact congrArg Outline.ready houtline
  . exact hp.noneMissing.reset

omit [Engine ω ε] in
theorem Paced.getFrame (hp : p.Paced passages) : p.getFrame.2.2.Paced passages := by
  unfold Pipeline.getFrame
  split
  . refine { hp with paces := hp.paces.of_health rfl rfl, ready := ?_ }
    intro frame hframe
    cases hframe
  . exact hp

theorem Paced.openDecoder (hp : p.Paced passages) (codec : SharedCodec)
    : (p.openDecoder codec).2.Paced (passages ++ [.startedOver]) := by
  have houtline := outline_openDecoder (.nothing ω ε) p codec
  apply hp.startedOver
  . exact congrArg Outline.options houtline
  . exact (p.openDecoder_forgets codec).1
  . rw [p.openDecoder_health]
  . rw [p.openDecoder_health]
  . exact congrArg Outline.ready houtline
  . exact hp.noneMissing.openDecoder codec

theorem Paced.switchSegment (hp : p.Paced passages) (hready : p.ready = none)
    : p.switchSegment.Paced (passages ++ p.changing p.switchSegment) := by
  rw [changing_switchSegment]
  unfold SegmentTracker.hasQueued
  cases hqueued : p.segments.queued with
  | none =>
    rw [switchSegment_of_queued_none p hqueued]
    exact hp.and_nothing
  | some packet =>
    rcases switchSegment_timeline hqueued with ⟨trust, htimeline⟩
    apply hp.startedOver
    . exact p.switchSegment_sameSetting.options
    . exact htimeline
    . exact p.switchSegment_counted Health.framesDecoded fun _ _ => rfl
    . exact p.switchSegment_counted Health.synthesizedPts fun _ _ => rfl
    . exact switchSegment_ready p hready
    . exact hp.noneMissing.switchSegment

section Reading

theorem Paced.finishFrame (hp : p.Paced passages) (hready : p.ready = none) (frame : Frame)
    : (p.finishFrame frame).2.2.Paced (passages ++ [p.decoding frame]) := by
  rcases finishFrame_uncorrected hp.uncorrected frame with ⟨htime, htimeline, hhealth⟩
  have houtline := outline_finishFrame (.nothing ω ε) p frame
  have hoptions : (p.finishFrame frame).2.2.options = p.options :=
    congrArg Outline.options houtline
  have hidle : (p.finishFrame frame).2.2.ready = p.ready := congrArg Outline.ready houtline
  refine ⟨?_, ?_, ?_, ?_⟩
  . rw [hoptions]
    exact hp.uncorrected
  . unfold decoding
    rw [htimeline, hhealth, htime]
    exact hp.paces.reconcile frame (p.options.effectiveFps_pos p.codec.params.frameRate)
  . simp [hidle, hready]
  . exact hp.noneMissing.finishFrame hp.uncorrected frame

theorem Paced.offer (hp : p.Paced passages) (hready : p.ready = none) (frame : Frame)
    : (p.offer frame).Paced (passages ++ p.decoding frame :: p.changing (p.offer frame)) := by
  have hfinished := hp.finishFrame hready frame
  have houtline := outline_finishFrame (.nothing ω ε) p frame
  have hgiven : (p.finishFrame frame).2.1.pts = lastGiven (passages ++ [p.decoding frame]) := by
    rw [p.finishFrame_pts frame, lastGiven_concat passages rfl]
    rfl
  rw [List.append_cons]
  generalize passages ++ [p.decoding frame] = before at hfinished hgiven ⊢
  unfold Pipeline.offer
  rcases hresult : p.finishFrame frame with ⟨pts, settled, q⟩
  rw [hresult] at hfinished hgiven houtline
  have hsegments : q.segments = p.segments := congrArg Outline.segments houtline
  have hidle : q.ready = none := (congrArg Outline.ready houtline).trans hready
  dsimp only at hfinished hgiven ⊢
  have hdiscarded : ({ q with
      maySkip := false, health := q.health.recordDiscarded, status := .again }
        : Pipeline ω ε φ ρ).Paced before :=
    { hfinished with paces := hfinished.paces.of_health rfl rfl }
  split
  . split
    . rw [endSegment_eq, ← changing_congr hsegments]
      exact hdiscarded.switchSegment hidle
    . exact hdiscarded.and_unchanged hsegments
  . apply Paced.and_unchanged
    . refine { hfinished with ready := ?_ }
      intro stored hstored
      cases hstored
      exact hgiven
    . exact hsegments

theorem Paced.readFrame (hp : p.Paced passages) : p.readFrame.Paced (passages ++ p.reading) := by
  cases hengine : p.engine with
  | none =>
    rw [readFrame_of_detached p hengine, reading_of_detached hengine]
    exact hp.and_nothing
  | some engine =>
    cases hready : p.ready with
    | some frame =>
      have hstored : p.ready.isSome := by simp [hready]
      rw [readFrame_of_ready p hstored, reading_of_ready hstored]
      exact hp.and_nothing
    | none =>
      have hreceived : (p.afterReply (Engine.receive engine p.shared)).Paced passages := { hp with }
      unfold reading receiving Pipeline.readFrame
      rw [hengine, hready]
      dsimp only
      generalize hq : p.afterReply (Engine.receive engine p.shared) = q at hreceived ⊢
      have hsegments : q.segments = p.segments := by
        rw [← hq]
        rfl
      have hidle : q.ready = none := by
        rw [← hq]
        exact hready
      cases (Engine.receive engine p.shared).answer with
      | frame frame =>
        rw [← changing_congr hsegments]
        exact hreceived.offer hidle frame
      | pending =>
        have hmissed : q.noteMissing.Paced passages ∧ q.noteMissing.segments = p.segments := by
          unfold noteMissing
          split
          . exact ⟨{ hreceived with paces := hreceived.paces.of_health rfl rfl }, hsegments⟩
          . exact ⟨hreceived, hsegments⟩
        apply Paced.and_unchanged
        . exact { hmissed.1 with }
        . exact hmissed.2
      | exhausted =>
        dsimp only
        have hended : ({ q with maySkip := false, status := .ended } : Pipeline ω ε φ ρ).Paced
            passages := { hreceived with }
        rw [endSegment_eq, ← changing_congr hsegments]
        exact hended.switchSegment hidle

end Reading

section Feeding

theorem Paced.sendPending (hp : p.Paced passages) (engine : ε)
    : (p.sendPending engine).Paced (passages ++ (p.pending.map Passage.offered).toList) := by
  have houtline := outline_sendPending (.nothing ω ε) p engine
  have hready : (p.sendPending engine).ready = p.ready := p.sendPending_ready engine
  have htimeline := p.sendPending_timeline engine
  have hhealth := p.sendPending_health engine
  refine ⟨?_, ?_, ?_, hp.noneMissing.sendPending engine⟩
  . exact (congrArg (·.options.correctPts) houtline).trans hp.uncorrected
  . cases hpending : p.pending with
    | none =>
      rw [hpending] at htimeline hhealth
      rw [htimeline, hhealth]
      simpa using hp.paces
    | some packet =>
      rw [hpending] at htimeline hhealth
      rw [htimeline]
      apply (hp.paces.notePacket packet).of_health
      . rw [hhealth]
        dsimp only
        split <;> rfl
      . rw [hhealth]
        dsimp only
        split <;> rfl
  . intro frame hframe
    rw [hready] at hframe
    rw [hp.ready frame hframe]
    cases p.pending with
    | none => simp
    | some packet =>
      have hkept : lastGiven (passages ++ [.offered packet]) = lastGiven passages :=
        lastGiven_concat passages rfl
      exact hkept.symm

variable [PacketFeed φ]

omit [Engine ω ε] in
theorem Paced.sending (hp : p.Paced passages) {engine : ε} (hsending : p.sending = some (engine, q))
    : q.Paced passages := by
  have hnone := hp.noneMissing.sending hsending
  rcases sending_fields hsending with ⟨feed, pending, queued, phase, journal, rfl⟩
  exact { hp with noneMissing := hnone }

theorem Paced.feedPacket (hp : p.Paced passages) : p.feedPacket.Paced (passages ++ p.sends) := by
  unfold sends feeding
  cases hsending : p.sending with
  | none =>
    apply Paced.and_nothing
    rcases p.feedPacket_of_not_sending hsending with hfeed | ⟨-, -, -, hfeed⟩
    . rw [hfeed]
      exact hp
    . rw [hfeed]
      exact { hp with }
  | some sent =>
    rcases sent with ⟨engine, q⟩
    have hsent := (hp.sending hsending).sendPending engine
    have hoffer : (q.offerTo engine).packet = q.pending := rfl
    rw [feedPacket_of_sending p hsending]
    simpa [hoffer] using hsent

theorem Paced.doWork (hp : p.Paced passages) : p.doWork.Paced (passages ++ p.working) := by
  have hread := hp.readFrame
  have hfed := hread.feedPacket
  unfold Pipeline.doWork
  split
  . next hdetached =>
    rw [working_of_detached (by simpa using hdetached)]
    exact Paced.and_nothing { hp with }
  . dsimp only
    split
    . next hready =>
      rw [working_of_ready hready]
      exact hread
    . unfold working
      dsimp only
      rw [← List.append_assoc, ← List.append_assoc]
      split
      . exact hfed.and_nothing
      . exact hfed.readFrame

theorem Paced.perform (hp : p.Paced passages) (operation : Operation φ ρ)
    : (p.perform operation).Paced (passages ++ p.passagesOf operation) := by
  cases operation with
  | work => exact hp.doWork
  | take => exact hp.getFrame.and_nothing
  | reset => exact hp.reset
  | openDecoder codec => exact hp.openDecoder codec
  | setStart | setFramedrop | resetParams | attachRecorder | detachRecorder | refill | wait =>
    exact Paced.and_nothing { hp with }

theorem Paced.after (hp : p.Paced passages) (operations : List (Operation φ ρ))
    : (p.after operations).Paced (passages ++ p.passages operations) := by
  induction operations generalizing p passages with
  | nil => exact hp.and_nothing
  | cons operation operations ih =>
    rw [after_cons, Pipeline.passages, ← List.append_assoc]
    exact ih (hp.perform operation)

end Feeding

end Paced

variable [PacketFeed φ] [PacketRecorder ρ]

/--
Without the times of the decoder all times are made up, whatever the engines report. From one start
of the timeline to the next, the first frame has the time of the earliest packet that was offered,
and each frame follows the last one at the distance of a frame, so the times never run backwards.
Every frame is counted as one whose time was made up, and nobody is warned of it.
-/
theorem makes_times_up (codec : SharedCodec) (drivers : List (Driver ω ε)) (feed : φ) (shared : ω)
    (options : DecoderOptions) (now : UInt64) (huncorrected : options.correctPts = false)
    (operations : List (Operation φ ρ))
    : let start : Pipeline ω ε φ ρ := create codec drivers feed shared options now
      let passages := start.passages operations
      let p := start.after operations
      Spaced passages
        ∧ passages.filterMap packet? = (start.offers operations).filterMap (·.packet)
        ∧ p.timeline.decoded = lastGiven passages
        ∧ (∀ frame, p.ready = some frame → frame.pts = lastGiven passages)
        ∧ p.health.framesDecoded = .ofNat (passages.countP (·.isDecoded))
        ∧ p.health.synthesizedPts = p.health.framesDecoded
        ∧ p.timeline.warnings = 0
        ∧ ∀ notice ∈ p.journal, notice.isMissing → notice.SaidBy ρ := by
  intro start passages p
  have hstart : start.Paced [] := by
    refine ⟨huncorrected, ?_, ?_, ?_⟩
    . exact Reconciler.paces_empty.of_health rfl rfl
    . intro frame hframe
      cases hframe
    . intro notice hnotice
      exact absurd hnotice (Array.not_mem_empty notice)
  have hp : p.Paced passages := hstart.after operations
  exact ⟨hp.paces.spaced, start.passages_packets operations, hp.paces.decoded, hp.ready,
    hp.paces.frames, hp.paces.synthesized, hp.paces.warnings, hp.noneMissing⟩

theorem sample_makes_times_up
    : let options : DecoderOptions := { correctPts := false, fallbackFps := 0 / 0 }
      let start : Pipeline Unit RawVideoEngine PacketChannel Collection :=
        create sampleCodec defaultDrivers (sampleFeed [samplePacket, samplePacket]) () options 0
      let operations : List (Operation PacketChannel Collection) :=
        [.openDecoder sampleCodec, .work, .work, .take, .work]
      let passages := start.passages operations
      let p := start.after operations
      options.correctPts = false
        ∧ Spaced passages
        ∧ passages.countP (·.isDecoded) = 2
        ∧ p.ready.isSome
        ∧ p.ready.bind (·.pts) = some (Timestamp.offset ⟨0.5⟩ (1 / 25))
        ∧ p.health.synthesizedPts = 2 := by
  intro options start operations passages p
  rcases makes_times_up sampleCodec defaultDrivers (sampleFeed [samplePacket, samplePacket]) ()
    options 0 rfl operations with ⟨hspaced, -, -, hready, hframes, hsynthesized, -, -⟩
  have hcount : passages.countP (·.isDecoded) = 2 := by decide +kernel
  have hlast : lastGiven passages = some (Timestamp.offset ⟨0.5⟩ (1 / 25)) := by decide +kernel
  have hstored : p.ready.isSome := by decide +kernel
  rcases Option.isSome_iff_exists.mp hstored with ⟨frame, hframe⟩
  refine ⟨rfl, hspaced, hcount, hstored, ?_, ?_⟩
  . rw [hframe, ← hlast]
    exact hready frame hframe
  . rw [hsynthesized, hframes, hcount]
    rfl

end DecodePipeline.Pipeline
