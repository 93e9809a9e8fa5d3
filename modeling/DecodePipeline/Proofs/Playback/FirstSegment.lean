import DecodePipeline.Proofs.Pipeline.Reading
import DecodePipeline.Proofs.Playback.StartCut

/-!
This module contains playbacks whose first packet starts a segment. The start of the pipeline is gone
before that packet is decoded, so the same frames come out as from a pipeline without start.
-/

namespace DecodePipeline

namespace Pipeline

variable {ω φ ρ : Type} {p : Pipeline ω RawVideoEngine φ ρ} {e : RawVideoEngine}

structure Unstarted (p : Pipeline ω RawVideoEngine φ ρ) : Prop where
  calm : ∃ e, p.Calm e
  pending : p.pending = none
  segments : p.segments = {}

theorem Calm.setStart (hcalm : p.Calm e) (start : Option Timestamp) : (p.setStart start).Calm e :=
  ⟨hcalm.engine, hcalm.ready, hcalm.idle, hcalm.queued⟩

theorem readFrame_setStart_of_idle (hrunning : p.Running e) (hqueue : e.queue = [])
    (hdraining : e.draining = false) (start : Option Timestamp)
    : (p.setStart start).readFrame = p.readFrame.setStart start := by
  have hrunning' : (p.setStart start).Running e := ⟨hrunning.engine, hrunning.ready, hrunning.params⟩
  have hmissing : (p.setStart start).noteMissing = p.noteMissing.setStart start := by
    unfold noteMissing Pipeline.setStart
    dsimp only
    split <;> rfl
  rw [readFrame_of_idle hrunning hqueue hdraining, readFrame_of_idle hrunning' hqueue hdraining,
    hmissing]
  rfl

theorem readFrame_setStart_of_sent [PacketRecorder ρ] (hrunning : p.Running e)
    (hqueue : e.queue = []) (hpending : p.pending = none) (start : Option Timestamp)
    : ((p.setStart start).sendPending e).readFrame
        = if p.segments.hasQueued then (p.sendPending e).readFrame
          else (p.sendPending e).readFrame.setStart start := by
  rcases sendPending_of_pending_none hrunning.params hpending with ⟨hcore, -⟩
  have hrunning' := hrunning.update hcore rfl
  have hstarted : ((p.sendPending e).setStart start).Running _ :=
    ⟨hrunning'.engine, hrunning'.ready, hrunning'.params⟩
  have hsegments : (p.sendPending e).segments = p.segments := congrArg Core.segments hcore
  rw [sendPending_setStart p start hpending e, readFrame_of_drained hrunning' hqueue rfl,
    readFrame_of_drained hstarted hqueue rfl, ← hsegments]
  let drained : Pipeline ω RawVideoEngine φ ρ :=
    { p.sendPending e with maySkip := false, status := .ended }
  change (drained.setStart start).endSegment
    = if drained.segments.hasQueued then drained.endSegment else drained.endSegment.setStart start
  cases hqueued : drained.segments.queued with
  | none =>
    rw [endSegment_of_queued_none drained hqueued,
      endSegment_of_queued_none (drained.setStart start) hqueued]
    unfold SegmentTracker.hasQueued
    rw [hqueued]
    rfl
  | some packet =>
    rw [endSegment_of_queued drained hqueued, endSegment_of_queued (drained.setStart start) hqueued,
      switchSegment_setStart drained start hqueued]
    unfold SegmentTracker.hasQueued
    rw [hqueued]
    rfl

section Work

variable [PacketRecorder ρ] [PacketFeed φ] {feed : φ}

theorem feedPacket_of_unread (hcalm : p.Calm e) (hpending : p.pending = none)
    : p.feedPacket
        = match PacketFeed.tryRead p.feed with
          | (.item packet, feed) => (p.withInput feed (some packet)).holdNewSegment.sendPending e
          | (.empty, feed) => { p.withInput feed none with status := .waiting }
          | (.ended, feed) => (p.withInput feed none).sendPending e := by
  rw [feedPacket_of_running hcalm.running, fillPending_eq hcalm.queued, incoming_of_none hpending]
  rcases PacketFeed.tryRead p.feed with ⟨poll, feed⟩
  cases poll with
  | item packet => rfl
  | empty => rfl
  | ended =>
    dsimp only
    rw [holdNewSegment_of_pending_none (p.withInput feed none) rfl]

theorem doWork_of_unread (hcalm : p.Calm e) (hpending : p.pending = none)
    : p.doWork
        = match PacketFeed.tryRead p.feed with
          | (.item packet, feed) =>
            ((p.readFrame.withInput feed (some packet)).holdNewSegment.sendPending e).readFrame
          | (.empty, feed) => { p.readFrame.withInput feed none with status := .waiting }
          | (.ended, feed) => ((p.readFrame.withInput feed none).sendPending e).readFrame := by
  rcases doWork_of_calm hcalm with ⟨q, rfl, hcore, hcalm', hwork⟩
  have hpending' : p.readFrame.pending = none := (congrArg Core.pending hcore).trans hpending
  rw [hwork, feedPacket_of_unread hcalm' hpending',
    show p.readFrame.feed = p.feed from congrArg Core.feed hcore]
  rcases PacketFeed.tryRead p.feed with ⟨poll, feed⟩
  cases poll with
  | item packet =>
    dsimp only
    rw [sendPending_status]
    rfl
  | empty => rfl
  | ended =>
    dsimp only
    rw [sendPending_status]
    rfl

theorem doWork_setStart (hunstarted : p.Unstarted)
    (hread : ∀ x, (PacketFeed.tryRead p.feed).1 ≠ .item x) (start : Option Timestamp)
    : (p.setStart start).doWork = p.doWork.setStart start := by
  rcases hunstarted.calm with ⟨e, hcalm⟩
  have hidle := readFrame_setStart_of_idle hcalm.running hcalm.idle.queue hcalm.idle.draining start
  have hcore := core_readFrame_of_idle hcalm.running hcalm.idle.queue hcalm.idle.draining
  rw [doWork_of_unread hcalm hunstarted.pending,
    doWork_of_unread (hcalm.setStart start) hunstarted.pending, hidle,
    show (p.setStart start).feed = p.feed from rfl]
  rcases hpoll : PacketFeed.tryRead p.feed with ⟨poll, feed⟩
  rw [hpoll] at hread
  -- Only a packet makes the start matter.
  cases poll with
  | item packet => exact absurd rfl (hread packet)
  | empty => rfl
  | ended =>
    have hrunning := (hcalm.of_core hcore.1).running.withInput feed none
    have hqueued : (p.readFrame.withInput feed none).segments.queued = none :=
      (hcalm.of_core hcore.1).queued
    have hsent := readFrame_setStart_of_sent hrunning hcalm.idle.queue rfl start
    unfold SegmentTracker.hasQueued at hsent
    rw [hqueued] at hsent
    exact hsent

theorem doWork_setStart_of_new (hunstarted : p.Unstarted) {x : Packet}
    (hread : (PacketFeed.tryRead p.feed).1 = .item x)
    (hnew : SegmentTracker.isNewSegment {} x p.codec = true) (start : Option Timestamp)
    : (p.setStart start).doWork = p.doWork := by
  rcases hunstarted.calm with ⟨e, hcalm⟩
  have hidle := readFrame_setStart_of_idle hcalm.running hcalm.idle.queue hcalm.idle.draining start
  have hcore := core_readFrame_of_idle hcalm.running hcalm.idle.queue hcalm.idle.draining
  rw [doWork_of_unread hcalm hunstarted.pending,
    doWork_of_unread (hcalm.setStart start) hunstarted.pending, hidle,
    show (p.setStart start).feed = p.feed from rfl]
  rcases hpoll : PacketFeed.tryRead p.feed with ⟨poll, feed⟩
  rw [hpoll] at hread
  cases hread
  have hcalm' := hcalm.of_core hcore.1
  generalize p.readFrame = q at *
  let r := q.withInput feed (some x)
  have hstarts : r.startsSegment x = true := by
    unfold startsSegment SegmentTracker.hasQueued
    rw [show r.segments = {} from (congrArg Core.segments hcore.1).trans hunstarted.segments,
      show r.codec = p.codec from congrArg Core.codec hcore.1, hnew]
    rfl
  have hheld := holdNewSegment_of_new r rfl hstarts
  have hheld' := holdNewSegment_of_new (r.setStart start) rfl hstarts
  dsimp only
  rw [show (q.setStart start).withInput feed (some x) = r.setStart start from rfl, hheld', hheld]
  have hrunning : Running ({ r.say (.newSegment x.anyTime) with
      pending := none, segments := r.segments.queue x }) e :=
    ⟨hcalm'.engine, hcalm'.ready, hcalm'.running.params⟩
  exact readFrame_setStart_of_sent hrunning hcalm.idle.queue rfl start

end Work

end Pipeline

namespace Playback

variable {ω ε ρ : Type} {s s' t : Playback ω RawVideoEngine ρ} {start : Option Timestamp}

def setStart (s : Playback ω ε ρ) (start : Option Timestamp) : Playback ω ε ρ :=
  { s with pipeline := s.pipeline.setStart start }

structure Untouched (s : Playback ω RawVideoEngine ρ) : Prop where
  pipeline : s.pipeline.Unstarted
  stage : s.stage = .working ∨ s.stage = .sleeping
  first : ∃ producer, s.producers = [producer]
    ∧ ∀ x, (s.pipeline.feed.packets.queue ++ producer.packets).head? = some x →
        SegmentTracker.isNewSegment {} x s.pipeline.codec = true

def IsDone (s : Playback ω ε ρ) : Prop :=
  s.stage = .finishing ∨ s.stage = .finished ∨ s.stage = .gone

inductive Agree (start : Option Timestamp) (s t : Playback ω RawVideoEngine ρ) : Prop where
  | same (hsame : t = s)
  | different (hstart : t = s.setStart start) (hidle : s.Untouched ∨ s.IsDone)

theorem Agree.handed (hagree : Agree start s t) : t.handed = s.handed ∧ t.taken = s.taken := by
  cases hagree with
  | same hsame =>
    rw [hsame]
    exact ⟨rfl, rfl⟩
  | different hstart hidle =>
    rw [hstart]
    exact ⟨rfl, rfl⟩

variable [PacketRecorder ρ]

theorem stepStage_setStart (hstage : s.stage ≠ .working)
    : (s.setStart start).stepStage = s.stepStage.map (·.setStart start) := by
  unfold stepStage
  rw [show (s.setStart start).stage = s.stage from rfl]
  cases hphase : s.stage with
  | working => exact absurd hphase hstage
  | sleeping =>
    change (s.setStart start).awake = s.awake.map (·.setStart start)
    unfold awake
    rw [show (s.setStart start).pipeline.feed = s.pipeline.feed from rfl]
    rcases s.pipeline.feed.takeWakeup with ⟨wakeup, feed⟩
    cases wakeup <;> rfl
  | delivering frame =>
    change (s.setStart start).deliver frame = (s.deliver frame).map (·.setStart start)
    unfold deliver
    rw [show (s.setStart start).output = s.output from rfl]
    rcases s.output.send frame with ⟨outcome, output⟩
    cases outcome <;> rfl
  | finishing => rfl
  | finished =>
    change some (s.setStart start).dismiss = some (s.dismiss.setStart start)
    unfold dismiss
    dsimp only [setStart, Pipeline.setStart, withFeed]
    split <;> rfl
  | gone => rfl

theorem step_setStart {actor : Actor} (hactor : actor = .stage → s.stage ≠ .working)
    : (s.setStart start).step actor = (s.step actor).map (·.setStart start) := by
  cases actor with
  | producer index =>
    unfold step
    dsimp only [setStart]
    cases s.producers[index]? with
    | none => rfl
    | some producer =>
      simp only [Option.bind_eq_bind, Option.bind_some]
      rw [show (s.pipeline.setStart start).feed = s.pipeline.feed from rfl]
      cases stepProducer producer s.pipeline.feed <;> rfl
  | stage => exact stepStage_setStart (hactor rfl)
  | consumer =>
    change (s.setStart start).stepConsumer = s.stepConsumer.map (·.setStart start)
    unfold stepConsumer
    rw [show (s.setStart start).consumerGone = s.consumerGone from rfl,
      show (s.setStart start).output = s.output from rfl]
    cases s.consumerGone with
    | true => rfl
    | false =>
      rcases s.output.receive with ⟨poll, output⟩
      cases poll <;> rfl

theorem work_setStart (hwork : (s.pipeline.setStart start).doWork = s.pipeline.doWork.setStart start)
    : (s.setStart start).work = s.work.setStart start := by
  have hframe (p : Pipeline ω RawVideoEngine PacketChannel ρ)
      : (p.setStart start).getFrame = (p.getFrame.1, p.getFrame.2.1, p.getFrame.2.2.setStart start) := by
    unfold Pipeline.getFrame
    rw [show (p.setStart start).ready = p.ready from rfl]
    cases p.ready <;> rfl
  unfold work
  rw [show (s.setStart start).pipeline = s.pipeline.setStart start from rfl, hwork, hframe]
  rcases s.pipeline.doWork.getFrame with ⟨frame, status, q⟩
  cases frame with
  | some frame => rfl
  | none => cases status <;> rfl

theorem Untouched.workStep (huntouched : s.Untouched)
    : Agree start s.work (s.setStart start).work := by
  have hunstarted := huntouched.pipeline
  rcases hunstarted.calm with ⟨e, hcalm⟩
  rcases huntouched.first with ⟨producer, hproducers, hfirst⟩
  have hincoming := Pipeline.incoming_of_none hunstarted.pending
  rcases hpoll : PacketFeed.tryRead s.pipeline.feed with ⟨poll, feed⟩
  have hread : (PacketFeed.tryRead s.pipeline.feed).1 = poll := congrArg Prod.fst hpoll
  rw [hpoll] at hincoming
  cases poll with
  | item x =>
    rcases PacketChannel.queue_of_item hread with ⟨queue, hqueue⟩
    have hnew := hfirst x (by rw [hqueue]; rfl)
    refine .same ?_
    unfold work
    rw [show (s.setStart start).pipeline = s.pipeline.setStart start from rfl,
      Pipeline.doWork_setStart_of_new hunstarted hread hnew]
    rfl
  | empty =>
    have hsame := Pipeline.doWork_setStart hunstarted (by simp [hread]) start
    rcases Pipeline.doWork_of_empty hcalm hincoming with ⟨hcore, hstatus⟩
    have hfeed : feed = s.pipeline.feed := by
      rw [← (PacketChannel.tryRead_of_empty hread).2.2, hpoll]
    have hkept : s.pipeline.doWork.core = s.pipeline.core := by
      rw [hcore, hfeed, ← hunstarted.pending]
      rfl
    have hready := (congrArg Core.ready hkept).trans hcalm.ready
    rw [work_setStart hsame, work_of_waiting (Pipeline.getFrame_of_none hready hstatus (by decide))]
    refine .different rfl (Or.inl ⟨⟨⟨e, hcalm.of_core hkept⟩, ?_, ?_⟩, Or.inr rfl, producer, ?_⟩)
    . exact (congrArg Core.pending hkept).trans hunstarted.pending
    . exact (congrArg Core.segments hkept).trans hunstarted.segments
    . refine ⟨hproducers, ?_⟩
      change ∀ x, (s.pipeline.doWork.core.feed.packets.queue ++ producer.packets).head? = some x →
        SegmentTracker.isNewSegment {} x s.pipeline.doWork.core.codec = true
      rw [hkept]
      exact hfirst
  | ended =>
    have hsame := Pipeline.doWork_setStart hunstarted (by simp [hread]) start
    rcases Pipeline.doWork_of_ended hcalm hincoming with ⟨hstatus, e', hcore⟩
    have hready := (congrArg Core.ready hcore).trans hcalm.ready
    rw [work_setStart hsame, work_of_ended (Pipeline.getFrame_of_none hready hstatus (by decide))]
    exact .different rfl (Or.inr (Or.inl rfl))

theorem Untouched.step (huntouched : s.Untouched) {actor : Actor}
    (hactor : actor = .stage → s.stage ≠ .working) (hstep : s.step actor = some s')
    : s'.Untouched := by
  have hunstarted := huntouched.pipeline
  rcases huntouched.first with ⟨producer, hproducers, hfirst⟩
  have hfed (feed : PacketChannel) : ({ s.pipeline with feed } : Pipeline ω _ _ ρ).Unstarted := by
    rcases hunstarted.calm with ⟨e, hcalm⟩
    exact ⟨⟨e, hcalm.engine, hcalm.ready, hcalm.idle, hcalm.queued⟩, hunstarted.pending,
      hunstarted.segments⟩
  cases actor with
  | producer index =>
    rcases step_producer hproducers hstep with ⟨producer', feed, hproducer, rfl⟩
    refine ⟨hfed feed, huntouched.stage, producer', rfl, ?_⟩
    have hwaiting : feed.packets.queue ++ producer'.packets
        = s.pipeline.feed.packets.queue ++ producer.packets := by
      rcases stepProducer_cases hproducer
        with ⟨x, packets, -, rfl, rfl, rfl⟩ | ⟨-, -, rfl, rfl⟩ | ⟨-, rfl, rfl⟩ | ⟨-, rfl, rfl⟩
      . exact List.append_assoc _ _ _
      . rfl
      . rfl
      . rfl
    change ∀ x, (feed.packets.queue ++ producer'.packets).head? = some x →
      SegmentTracker.isNewSegment {} x s.pipeline.codec = true
    rw [hwaiting]
    exact hfirst
  | stage =>
    rcases huntouched.stage with hworking | hsleeping
    . exact absurd hworking (hactor rfl)
    . change s.stepStage = some s' at hstep
      unfold stepStage at hstep
      rw [hsleeping] at hstep
      rcases awake_cases hstep with ⟨-, rfl⟩
      exact ⟨hfed _, Or.inl rfl, producer, hproducers, hfirst⟩
  | consumer =>
    rcases stepConsumer_cases hstep with ⟨-, ⟨frame, queue, -, rfl⟩ | ⟨-, -, rfl⟩⟩
    . exact ⟨hunstarted, huntouched.stage, producer, hproducers, hfirst⟩
    . exact ⟨hunstarted, huntouched.stage, producer, hproducers, hfirst⟩

theorem IsDone.step (hdone : s.IsDone) {actor : Actor} (hstep : s.step actor = some s')
    : s'.IsDone := by
  cases actor with
  | producer index =>
    rcases step_producers hstep with ⟨producer, producer', feed, -, -, rfl⟩
    exact hdone
  | stage =>
    change s.stepStage = some s' at hstep
    unfold stepStage at hstep
    rcases hdone with hphase | hphase | hphase
    . rw [hphase] at hstep
      cases hstep
      exact Or.inr (Or.inl rfl)
    . rw [hphase] at hstep
      cases hstep
      refine Or.inr (Or.inr ?_)
      unfold dismiss
      dsimp only
      split <;> rfl
    . rw [hphase] at hstep
      cases hstep
  | consumer =>
    rcases stepConsumer_cases hstep with ⟨-, ⟨frame, queue, -, rfl⟩ | ⟨-, -, rfl⟩⟩
    . exact hdone
    . exact hdone

theorem Agree.step (hagree : Agree start s t) {actor : Actor} (hstep : s.step actor = some s')
    : ∃ t', t.step actor = some t' ∧ Agree start s' t' := by
  cases hagree with
  | same hsame =>
    rw [hsame]
    exact ⟨s', hstep, .same rfl⟩
  | different hstart hidle =>
    rw [hstart]
    by_cases hworking : actor = .stage ∧ s.stage = .working
    . rcases hworking with ⟨rfl, hstage⟩
      have huntouched : s.Untouched := by
        rcases hidle with huntouched | hdone
        . exact huntouched
        . unfold IsDone at hdone
          simp [hstage] at hdone
      have hwork : s.work = s' := by
        change s.stepStage = some s' at hstep
        unfold stepStage at hstep
        rw [hstage] at hstep
        exact Option.some.inj hstep
      refine ⟨(s.setStart start).work, ?_, ?_⟩
      . change (s.setStart start).stepStage = _
        unfold stepStage
        rw [show (s.setStart start).stage = .working from hstage]
      . rw [← hwork]
        exact huntouched.workStep
    . have hactor : actor = .stage → s.stage ≠ .working :=
        fun hstage hphase => hworking ⟨hstage, hphase⟩
      refine ⟨s'.setStart start, ?_, .different rfl ?_⟩
      . rw [step_setStart hactor, hstep]
        rfl
      . rcases hidle with huntouched | hdone
        . exact Or.inl (huntouched.step hactor hstep)
        . exact Or.inr (hdone.step hstep)

theorem Agree.play (hagree : Agree start s t) {schedule : List Actor}
    (hplay : s.play schedule = some s')
    : ∃ t', t.play schedule = some t' ∧ Agree start s' t' := by
  induction schedule generalizing s t with
  | nil =>
    cases hplay
    exact ⟨t, rfl, hagree⟩
  | cons actor schedule ih =>
    rcases Option.bind_eq_some_iff.mp hplay with ⟨next, hstep, hrest⟩
    rcases hagree.step hstep with ⟨next', hstep', hagree'⟩
    rcases ih hagree' hrest with ⟨t', hplay', hagree''⟩
    exact ⟨t', Option.bind_eq_some_iff.mpr ⟨next', hstep', hplay'⟩, hagree''⟩

end Playback
end DecodePipeline
