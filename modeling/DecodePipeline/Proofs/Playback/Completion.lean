import DecodePipeline.Proofs.Playback.Stage

/-!
This module contains the runs of a playback of uncompressed video. Whatever the schedule is, the
pictures arrive in order, and nobody has to wait any more only when all of them have arrived.
-/

namespace DecodePipeline.Playback

variable {ω ρ : Type} {s s' : Playback ω RawVideoEngine ρ} {producer : Producer}
  {first : SharedCodec} {packets : List Packet}

theorem Accounts.isPrefix (haccounts : s.Accounts first packets)
    : s.taken.toList.map Frame.picture <+: packets.filterMap (·.shown first) := by
  rw [← haccounts.pictures]
  unfold handed
  simp only [List.map_append, List.append_assoc]
  apply List.prefix_append

theorem Sound.ended (hsound : s.Sound producer first packets) (hgone : s.consumerGone = true)
    : s.pipeline.status = .ended
        ∧ s.taken.toList.map Frame.picture = packets.filterMap (·.shown first) := by
  rcases hsound.watched.complete hgone with ⟨hsenders, hqueue⟩
  have hended : s.Ended producer 0 ∧ s.stage.frame = none := by
    have hstreams (hstreams : s.Streams first packets) : False := by
      rw [hstreams.senders] at hsenders
      cases hsenders
    have hstaged := hsound.staged
    cases hstage : s.stage with
    | working =>
      rw [hstage] at hstaged
      exact (hstreams hstaged).elim
    | sleeping =>
      rw [hstage] at hstaged
      exact (hstreams hstaged.1).elim
    | delivering frame =>
      rw [hstage] at hstaged
      exact (hstreams hstaged).elim
    | finishing =>
      rw [hstage] at hstaged
      have hone : s.output.senders = 1 := hstaged.senders
      rw [hsenders] at hone
      cases hone
    | finished =>
      rw [hstage] at hstaged
      exact ⟨hstaged, rfl⟩
    | gone =>
      rw [hstage] at hstaged
      exact ⟨hstaged, rfl⟩
  refine ⟨hended.1.status, ?_⟩
  rw [← hsound.accounts.pictures, hended.1.todo]
  unfold handed
  rw [hended.2, hqueue]
  simp

theorem sound_start {pipeline : Pipeline ω RawVideoEngine PacketChannel ρ} {feedRoom outputRoom : Nat}
    (hfollows : pipeline.Follows first packets) (hfeed : pipeline.feed = .ofCapacity feedRoom)
    (hpending : pipeline.pending = none)
    (hstart : start pipeline packets (some (.ofCapacity outputRoom)) = .ok s)
    : s.Sound { packets } first packets ∧ s.weight = 8 * packets.length + 9 := by
  cases hstart
  have hroom (capacity : Nat) : 0 < max capacity 1 := by omega
  have hfollows' : (pipeline.say (.stageStarted pipeline.decoder)).Follows first packets :=
    hfollows.of_core rfl
  refine ⟨⟨rfl, ?_, ⟨?_, ?_⟩, ?_, ?_⟩, ?_⟩
  . refine ⟨?_, ?_, ?_⟩
    . simp only [Pipeline.say, hfeed]
      exact hroom feedRoom
    . simp only [Pipeline.say, hfeed]
      rfl
    . intro hleft
      cases hleft
  . simp [handed, todo, Pipeline.say, hfeed, hpending, PacketChannel.ofCapacity, Channel.ofCapacity,
      StagePhase.frame]
  . simp [todo, Pipeline.say, hfeed, hpending, PacketChannel.ofCapacity, Channel.ofCapacity]
  . refine ⟨hroom outputRoom, rfl, ?_⟩
    intro hgone
    cases hgone
  . refine ⟨hfollows', ?_, rfl⟩
    simp only [Pipeline.say, hfeed]
    rfl
  . simp [weight, Pipeline.say, hfeed, hpending, PacketChannel.ofCapacity, Channel.ofCapacity,
      PacketChannel.weight, Producer.weight, ProducerPhase.weight, StagePhase.weight]

variable [PacketRecorder ρ]

def play {ω ε ρ : Type} [Engine ω ε] [PacketRecorder ρ] (s : Playback ω ε ρ) (schedule : List Actor) :
    Option (Playback ω ε ρ) :=
  schedule.foldlM step s

theorem play_append {ω ε ρ : Type} [Engine ω ε] [PacketRecorder ρ] (s : Playback ω ε ρ)
    (first last : List Actor)
    : s.play (first ++ last) = (s.play first).bind (·.play last) := by
  unfold play
  rw [List.foldlM_append]
  rfl

theorem play_induct {ω ε ρ : Type} [Engine ω ε] [PacketRecorder ρ] {s s' : Playback ω ε ρ}
    {motive : Playback ω ε ρ → Prop}
    {schedule : List Actor} (start : motive s)
    (step : ∀ s s' actor, motive s → s.step actor = some s' → motive s')
    (hplay : s.play schedule = some s')
    : motive s' := by
  induction schedule generalizing s with
  | nil =>
    cases hplay
    exact start
  | cons actor schedule ih =>
    rcases Option.bind_eq_some_iff.mp hplay with ⟨next, hstep, hplay⟩
    exact ih (step s next actor start hstep) hplay

theorem exists_play_round {ω ε ρ : Type} [Engine ω ε] [PacketRecorder ρ] (s : Playback ω ε ρ)
    : ∃ schedule, s.play schedule = some s.round := by
  unfold round
  generalize s.actors = actors
  induction actors generalizing s with
  | nil => exact ⟨[], rfl⟩
  | cons actor actors ih =>
    rw [List.foldl_cons]
    rcases ih ((s.step actor).getD s) with ⟨schedule, hplay⟩
    cases hstep : s.step actor with
    | none =>
      rw [hstep] at hplay
      exact ⟨schedule, hplay⟩
    | some next =>
      rw [hstep] at hplay
      exact ⟨actor :: schedule, Option.bind_eq_some_iff.mpr ⟨next, hstep, hplay⟩⟩

theorem exists_play_run {ω ε ρ : Type} [Engine ω ε] [PacketRecorder ρ] (s : Playback ω ε ρ)
    (rounds : Nat)
    : ∃ schedule, s.play schedule = some (s.run rounds) := by
  induction rounds generalizing s with
  | zero => exact ⟨[], rfl⟩
  | succ rounds ih =>
    unfold run
    split
    . exact ⟨[], rfl⟩
    . rcases s.exists_play_round with ⟨first, hfirst⟩
      rcases ih s.round with ⟨last, hlast⟩
      refine ⟨first ++ last, ?_⟩
      rw [play_append, hfirst]
      exact hlast

def IsStuck {ω ε ρ : Type} [Engine ω ε] [PacketRecorder ρ] (s : Playback ω ε ρ) : Prop :=
  ∀ actor, s.step actor = none

theorem Sound.step (hsound : s.Sound producer first packets) (hplain : PlainStream first packets)
    {actor : Actor} (hstep : s.step actor = some s')
    : ∃ producer', s'.Sound producer' first packets ∧ s'.weight < s.weight := by
  cases actor with
  | producer index => exact hsound.producerStep hstep
  | stage => exact ⟨producer, hsound.stageStep hplain hstep⟩
  | consumer => exact ⟨producer, hsound.consumerStep hstep⟩

theorem Sound.play (hsound : s.Sound producer first packets) (hplain : PlainStream first packets)
    {schedule : List Actor} (hplay : s.play schedule = some s')
    : ∃ producer', s'.Sound producer' first packets ∧ s'.weight + schedule.length ≤ s.weight := by
  induction schedule generalizing s producer with
  | nil =>
    cases hplay
    exact ⟨producer, hsound, Nat.le_refl _⟩
  | cons actor schedule ih =>
    rcases Option.bind_eq_some_iff.mp hplay with ⟨next, hstep, hrest⟩
    rcases hsound.step hplain hstep with ⟨producer', hnext, hless⟩
    rcases ih hnext hrest with ⟨producer'', hsound', hweight⟩
    refine ⟨producer'', hsound', ?_⟩
    rw [List.length_cons]
    omega

theorem waits_of_stepProducer_none {feed : PacketChannel} (hnone : stepProducer producer feed = none)
    : producer.phase = .gone
        ∨ producer.phase = .sending ∧ feed.packets.capacity ≤ feed.packets.queue.length := by
  rcases producer with ⟨packets, phase⟩
  cases phase with
  | sending =>
    cases packets with
    | nil => cases hnone
    | cons x packets =>
      refine Or.inr ⟨rfl, ?_⟩
      unfold stepProducer PacketChannel.push Channel.send at hnone
      dsimp only at hnone
      by_cases hfull : feed.packets.capacity ≤ feed.packets.queue.length
      . exact hfull
      . rw [if_neg hfull] at hnone
        cases hreceiving : feed.packets.receiving with
        | true =>
          rw [if_neg (by rw [hreceiving]; decide)] at hnone
          cases hnone
        | false =>
          rw [if_pos (by rw [hreceiving]; decide)] at hnone
          cases hnone
  | waking => cases hnone
  | leaving => cases hnone
  | gone => exact Or.inl rfl

theorem IsStuck.producerWaits (hstuck : s.IsStuck) (hproducers : s.producers = [producer])
    : producer.phase = .gone ∨ producer.phase = .sending
        ∧ s.pipeline.feed.packets.capacity ≤ s.pipeline.feed.packets.queue.length := by
  have hstep := hstuck (.producer 0)
  unfold Playback.step at hstep
  dsimp only at hstep
  rw [hproducers] at hstep
  apply waits_of_stepProducer_none
  rcases hproducer : stepProducer producer s.pipeline.feed with _ | ⟨producer', feed⟩
  . rfl
  . change (stepProducer producer s.pipeline.feed).bind _ = none at hstep
    rw [hproducer] at hstep
    cases hstep

theorem IsStuck.consumerWaits {ε : Type} [Engine ω ε] {s : Playback ω ε ρ} (hstuck : s.IsStuck)
    (hpresent : s.consumerGone = false)
    : s.output.queue = [] ∧ s.output.senders ≠ 0 := by
  have hstep : s.stepConsumer = none := hstuck .consumer
  unfold stepConsumer Channel.receive at hstep
  rw [if_neg (by rw [hpresent]; decide)] at hstep
  cases hqueue : s.output.queue with
  | nil =>
    refine ⟨rfl, ?_⟩
    intro hsenders
    rw [hqueue, hsenders] at hstep
    cases hstep
  | cons frame queue =>
    rw [hqueue] at hstep
    cases hstep

theorem IsStuck.consumerGone {ε : Type} [Engine ω ε] {s : Playback ω ε ρ} (hstuck : s.IsStuck)
    (hsenders : s.output.senders = 0)
    : s.consumerGone = true := by
  cases hpresent : s.consumerGone with
  | true => rfl
  | false => exact absurd hsenders (hstuck.consumerWaits hpresent).2

theorem Sound.outputEmpty (hsound : s.Sound producer first packets) (hstuck : s.IsStuck)
    : s.output.queue = [] := by
  cases hpresent : s.consumerGone with
  | true => exact (hsound.watched.complete hpresent).2
  | false => exact (hstuck.consumerWaits hpresent).1

theorem Sound.stageGone (hsound : s.Sound producer first packets) (hstuck : s.IsStuck)
    : s.stage = .gone := by
  have hstep : s.stepStage = none := hstuck .stage
  have hstaged := hsound.staged
  unfold stepStage at hstep
  cases hstage : s.stage with
  | working =>
    rw [hstage] at hstep
    cases hstep
  | sleeping =>
    -- whoever could wake the stage up would make a step
    rw [hstage] at hstep hstaged
    have hwakeup : s.pipeline.feed.wakeup = false := by
      unfold Playback.awake PacketChannel.takeWakeup at hstep
      cases hwakeup : s.pipeline.feed.wakeup with
      | true =>
        rw [hwakeup] at hstep
        cases hstep
      | false => rfl
    have hwakes := hstaged.2
    have hroom := hsound.feeds.room
    unfold Producer.Wakes at hwakes
    rw [hwakeup] at hwakes
    rcases hstuck.producerWaits hsound.producers with hphase | ⟨hphase, hfull⟩
    . simp [hphase] at hwakes
    . rw [hphase] at hwakes
      simp only [Bool.false_eq_true, reduceCtorEq, false_or, true_and] at hwakes
      rw [hwakes, List.length_nil] at hfull
      omega
  | delivering frame =>
    -- the consumer has made room
    have hroom := hsound.watched.room
    rw [hstage] at hstep
    dsimp only at hstep
    rw [deliver_eq hsound.watched.receiving, hsound.outputEmpty hstuck, List.length_nil,
      if_neg (by omega)] at hstep
    cases hstep
  | finishing =>
    rw [hstage] at hstep
    cases hstep
  | finished =>
    rw [hstage] at hstep
    cases hstep
  | gone => rfl

theorem Sound.isOver (hsound : s.Sound producer first packets) (hstuck : s.IsStuck)
    : s.isOver = true := by
  have hstage := hsound.stageGone hstuck
  have hended : s.Ended producer 0 := hsound.staged_of_stage hstage
  have hgone : producer.phase = .gone := by
    rcases hstuck.producerWaits hsound.producers with hphase | ⟨hphase, -⟩
    . exact hphase
    . have hleft := hended.left
      rw [hphase] at hleft
      cases hleft
  unfold Playback.isOver
  simp [hsound.producers, hgone, hstage, hstuck.consumerGone hended.senders]

theorem Sound.exists_isOver (hsound : s.Sound producer first packets)
    (hplain : PlainStream first packets)
    : ∃ schedule s', s.play schedule = some s' ∧ s'.isOver = true := by
  induction hweight : s.weight using Nat.strongRecOn generalizing s producer with
  | ind weight ih =>
    by_cases hstuck : s.IsStuck
    . exact ⟨[], s, rfl, hsound.isOver hstuck⟩
    . unfold IsStuck at hstuck
      rcases not_forall.mp hstuck with ⟨actor, hactor⟩
      rcases Option.ne_none_iff_exists'.mp hactor with ⟨next, hstep⟩
      rcases hsound.step hplain hstep with ⟨producer', hnext, hless⟩
      rw [hweight] at hless
      rcases ih next.weight hless hnext rfl with ⟨schedule, s', hplay, hover⟩
      refine ⟨actor :: schedule, s', ?_, hover⟩
      unfold Playback.play
      rw [List.foldlM_cons, hstep]
      exact hplay

/-- The pictures arrive in order, and the consumer goes away only after the last of them. -/
structure Delivers (s : Playback ω RawVideoEngine ρ) (pictures : List Picture) : Prop where
  ordered : s.taken.toList.map Frame.picture <+: pictures
  ended : s.consumerGone = true
    → s.pipeline.status = .ended ∧ s.taken.toList.map Frame.picture = pictures
  progresses : s.IsStuck → s.isOver = true
  finishes : ∃ schedule s', s.play schedule = some s' ∧ s'.isOver = true

theorem Sound.delivers (hsound : s.Sound producer first packets) (hplain : PlainStream first packets)
    {schedule : List Actor} (hplay : s.play schedule = some s')
    : s'.Delivers (packets.filterMap (·.shown first)) ∧ schedule.length ≤ s.weight := by
  rcases hsound.play hplain hplay with ⟨producer', hsound', hless⟩
  refine ⟨⟨hsound'.accounts.isPrefix, hsound'.ended, hsound'.isOver, ?_⟩, ?_⟩
  . exact hsound'.exists_isOver hplain
  . omega

section Rounds

theorem Sound.turns (hsound : s.Sound producer first packets) (hplain : PlainStream first packets)
    (actors : List Actor)
    : let next := actors.foldl (fun s actor => (s.step actor).getD s) s
      ∃ producer', next.Sound producer' first packets
        ∧ (next.weight < s.weight ∨ next = s ∧ ∀ actor ∈ actors, s.step actor = none) := by
  induction actors generalizing s producer with
  | nil => exact ⟨producer, hsound, Or.inr ⟨rfl, by simp⟩⟩
  | cons actor actors ih =>
    rw [List.foldl_cons]
    cases hstep : s.step actor with
    | none =>
      rcases ih hsound with ⟨producer', hsound', hless | ⟨hsame, hwait⟩⟩
      . exact ⟨producer', hsound', Or.inl hless⟩
      . exact ⟨producer', hsound', Or.inr ⟨hsame, List.forall_mem_cons.mpr ⟨hstep, hwait⟩⟩⟩
    | some next =>
      rcases hsound.step hplain hstep with ⟨producer', hnext, hless⟩
      rcases ih hnext with ⟨producer'', hsound', hless' | ⟨hsame, -⟩⟩
      . exact ⟨producer'', hsound', Or.inl (Nat.lt_trans hless' hless)⟩
      . refine ⟨producer'', hsound', Or.inl ?_⟩
        rw [Option.getD_some, hsame]
        exact hless

theorem isStuck_of_actors (hproducers : s.producers = [producer])
    (hwait : ∀ actor ∈ s.actors, s.step actor = none)
    : s.IsStuck := by
  unfold actors at hwait
  rw [hproducers] at hwait
  intro actor
  cases actor with
  | producer index =>
    cases index with
    | zero => exact hwait (.producer 0) (by simp)
    | succ index =>
      unfold Playback.step
      dsimp only
      rw [hproducers]
      rfl
  | stage => exact hwait .stage (by simp)
  | consumer => exact hwait .consumer (by simp)

theorem Sound.run (hsound : s.Sound producer first packets) (hplain : PlainStream first packets)
    {rounds : Nat} (hrounds : s.weight < rounds)
    : (s.run rounds).isOver = true
        ∧ ∃ producer', (s.run rounds).Sound producer' first packets := by
  induction rounds generalizing s producer with
  | zero => omega
  | succ rounds ih =>
    unfold Playback.run
    split
    . next hover => exact ⟨hover, producer, hsound⟩
    . next hover =>
      rcases hsound.turns hplain s.actors with ⟨producer', hsound', hless | ⟨-, hwait⟩⟩
      . exact ih hsound' (show s.round.weight < rounds by unfold round; omega)
      . exact absurd (hsound.isOver (isStuck_of_actors hsound.producers hwait)) hover

end Rounds

end DecodePipeline.Playback
