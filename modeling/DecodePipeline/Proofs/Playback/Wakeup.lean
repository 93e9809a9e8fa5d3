import DecodePipeline.Proofs.Pipeline.Reading
import DecodePipeline.Proofs.Playback.Completion

/-!
This module contains the waiting in a playback with any engine and any number of producers. Nobody
sleeps while there is something to read, unless a producer is about to wake the reader up, and until
all is over somebody can make a step.
-/

namespace DecodePipeline.Playback

inductive Move where
  | act (actor : Actor)
  -- A producer shares its sender with a new one.
  | join (index : Nat) (packets : List Packet)
  -- A wake-up comes to a reader that was woken up a moment ago, and is left over.
  | echo

section Moves

variable {ω ε ρ : Type}

def enlist (s : Playback ω ε ρ) (packets : List Packet) : Playback ω ε ρ :=
  { s.withFeed s.pipeline.feed.addSender with producers := s.producers ++ [{ packets }] }

def move [Engine ω ε] [PacketRecorder ρ] (s : Playback ω ε ρ) : Move → Option (Playback ω ε ρ)
  | .act actor => s.step actor
  | .join index packets =>
    (s.producers[index]?.filter (·.phase.isSender)).map fun _ => s.enlist packets
  | .echo => some (s.withFeed s.pipeline.feed.wake)

def moves [Engine ω ε] [PacketRecorder ρ] (s : Playback ω ε ρ) (history : List Move) :
    Option (Playback ω ε ρ) :=
  history.foldlM move s

def Awaits (s : Playback ω ε ρ) : Prop :=
  (s.pipeline.feed.packets.queue = [] ∧ ∃ producer ∈ s.producers, producer.phase.isSender)
    ∨ ∃ producer ∈ s.producers, producer.phase = .waking ∨ producer.phase = .leaving

/--
A stage that sleeps without a wake-up has nothing to read and somebody who sends, or somebody who is
about to wake it up. Until all is over somebody can make a step.
-/
structure Lively [Engine ω ε] [PacketRecorder ρ] (s : Playback ω ε ρ) : Prop where
  awaits : s.stage = .sleeping → s.pipeline.feed.wakeup = false → s.Awaits
  progresses : s.isOver = false → ∃ actor s', s.step actor = some s'

end Moves

section Reading

variable {feed feed' : PacketChannel}

structure SameEnds (feed feed' : PacketChannel) : Prop where
  capacity : feed'.packets.capacity = feed.packets.capacity
  senders : feed'.packets.senders = feed.packets.senders
  receiving : feed'.packets.receiving = feed.packets.receiving

theorem sameEnds_tryRead (feed : PacketChannel) : SameEnds feed (PacketFeed.tryRead feed).2 := by
  cases hqueue : feed.packets.queue with
  | nil =>
    rw [PacketChannel.tryRead_of_nil hqueue]
    exact ⟨rfl, rfl, rfl⟩
  | cons packet queue =>
    rw [PacketChannel.tryRead_of_cons hqueue]
    exact ⟨rfl, rfl, rfl⟩

end Reading

section Invariant

variable {ω ε ρ : Type} {s s' : Playback ω ε ρ}

structure Linked (s : Playback ω ε ρ) : Prop where
  room : 0 < s.pipeline.feed.packets.capacity
  senders : s.pipeline.feed.packets.senders = s.producers.countP (·.phase.isSender)
  awaits : s.stage = .sleeping → s.pipeline.feed.wakeup = true ∨ s.Awaits
  closed : s.stage = .gone → s.pipeline.feed.packets.queue = []
    ∧ s.pipeline.feed.packets.receiving = false
  watched : s.Watched
  output : s.output.senders = if s.stage = .finished ∨ s.stage = .gone then 0 else 1

theorem linked_start {pipeline : Pipeline ω ε PacketChannel ρ} {packets : List Packet}
    {feedRoom outputRoom : Nat} (hfeed : pipeline.feed = .ofCapacity feedRoom)
    (hstart : start pipeline packets (some (.ofCapacity outputRoom)) = .ok s)
    : s.Linked := by
  cases hstart
  have hroom (capacity : Nat) : 0 < max capacity 1 := by omega
  refine ⟨?_, ?_, ?_, ?_, ?_, ?_⟩
  . simp only [Pipeline.say, hfeed]
    apply hroom
  . simp [Pipeline.say, hfeed, PacketChannel.ofCapacity, Channel.ofCapacity,
      ProducerPhase.isSender]
  . intro hstage
    cases hstage
  . intro hstage
    cases hstage
  . refine ⟨hroom outputRoom, rfl, ?_⟩
    intro hgone
    cases hgone
  . simp [Channel.ofCapacity]

theorem Linked.delivering (hlinked : s.Linked) (hopen : s.stage ≠ .finished ∧ s.stage ≠ .gone)
    : s.output.senders = 1 := by
  have houtput := hlinked.output
  rw [if_neg (by simp [hopen])] at houtput
  exact houtput

theorem Linked.present (hlinked : s.Linked) (hopen : s.stage ≠ .finished ∧ s.stage ≠ .gone)
    : s.consumerGone = false :=
  hlinked.watched.present (hlinked.delivering hopen)

structure Acted (producer : Producer) (feed : PacketChannel) (producer' : Producer)
    (feed' : PacketChannel) : Prop where
  capacity : feed'.packets.capacity = feed.packets.capacity
  receiving : feed'.packets.receiving = feed.packets.receiving
  queue : feed.packets.receiving = false → feed'.packets.queue = feed.packets.queue
  senders : feed'.packets.senders + producer.phase.isSender.toNat
    = feed.packets.senders + producer'.phase.isSender.toNat
  wakes : feed'.wakeup = true ∨ producer'.phase = .waking ∨ producer'.phase = .leaving

theorem stepProducer_acted {producer producer' : Producer} {feed feed' : PacketChannel}
    (hcounted : producer.phase.isSender = true → 0 < feed.packets.senders)
    (hstep : stepProducer producer feed = some (producer', feed'))
    : Acted producer feed producer' feed' := by
  rcases stepProducer_cases hstep
    with ⟨x, packets, hreceiving, rfl, rfl, rfl⟩ | ⟨hphase, -, rfl, rfl⟩ | ⟨hphase, rfl, rfl⟩
      | ⟨hphase, rfl, rfl⟩
  . refine ⟨rfl, rfl, ?_, rfl, Or.inr (Or.inl rfl)⟩
    intro hclosed
    rw [hreceiving] at hclosed
    cases hclosed
  . rw [hphase] at hcounted
    have hsome := hcounted rfl
    refine ⟨rfl, rfl, fun _ => rfl, ?_, Or.inr (Or.inr rfl)⟩
    simp only [hphase, ProducerPhase.isSender, PacketChannel.release, Channel.removeSender,
      Bool.toNat_true, Bool.toNat_false]
    omega
  . refine ⟨rfl, rfl, fun _ => rfl, ?_, Or.inl rfl⟩
    rw [hphase]
    rfl
  . refine ⟨rfl, rfl, fun _ => rfl, ?_, Or.inl rfl⟩
    rw [hphase]
    rfl

theorem countP_isSender_set {producers : List Producer} {index : Nat} {producer : Producer}
    (hget : producers[index]? = some producer) (producer' : Producer)
    : (producers.set index producer').countP (·.phase.isSender) + producer.phase.isSender.toNat
        = producers.countP (·.phase.isSender) + producer'.phase.isSender.toNat := by
  rcases List.getElem?_eq_some_iff.mp hget with ⟨hindex, rfl⟩
  have hpos : producers[index].phase.isSender = true → 0 < producers.countP (·.phase.isSender) := by
    intro hsender
    rw [List.countP_pos_iff]
    exact ⟨producers[index], List.getElem_mem hindex, hsender⟩
  rw [List.countP_set hindex]
  cases hold : producers[index].phase.isSender with
  | false => cases producer'.phase.isSender <;> simp
  | true =>
    have hpos := hpos hold
    cases producer'.phase.isSender
    all_goals
      simp only [if_true, Bool.false_eq_true, if_false, Bool.toNat_true, Bool.toNat_false]
      omega

theorem Linked.consumerStep (hlinked : s.Linked) (hstep : s.stepConsumer = some s')
    : s'.Linked := by
  rcases stepConsumer_cases hstep
    with ⟨hpresent, ⟨frame, queue, hqueue, rfl⟩ | ⟨hqueue, hsenders, rfl⟩⟩
  . refine ⟨hlinked.room, hlinked.senders, hlinked.awaits, hlinked.closed, ?_, hlinked.output⟩
    exact watched_of_present hlinked.watched.room hlinked.watched.receiving hpresent
  . refine ⟨hlinked.room, hlinked.senders, hlinked.awaits, hlinked.closed, ?_, hlinked.output⟩
    exact ⟨hlinked.watched.room, hlinked.watched.receiving, fun _ => ⟨hsenders, hqueue⟩⟩

theorem Linked.enlist (hlinked : s.Linked) (packets : List Packet) : (s.enlist packets).Linked := by
  refine ⟨hlinked.room, ?_, ?_, hlinked.closed, ?_, hlinked.output⟩
  . change s.pipeline.feed.packets.senders + 1 = (s.producers ++ [{ packets : Producer }]).countP _
    rw [List.countP_append, hlinked.senders]
    rfl
  . intro hsleeping
    rcases hlinked.awaits hsleeping
      with hwakeup | ⟨hqueue, producer, hmem, hsender⟩ | ⟨producer, hmem, hphase⟩
    . exact Or.inl hwakeup
    . exact Or.inr (Or.inl ⟨hqueue, producer, List.mem_append_left _ hmem, hsender⟩)
    . exact Or.inr (Or.inr ⟨producer, List.mem_append_left _ hmem, hphase⟩)
  . exact ⟨hlinked.watched.room, hlinked.watched.receiving, hlinked.watched.complete⟩

theorem Linked.proceed (hlinked : s.Linked)
    (hpackets : s'.pipeline.feed.packets = s.pipeline.feed.packets)
    (hproducers : s'.producers = s.producers) (hstage : s'.stage ≠ .sleeping ∧ s'.stage ≠ .gone)
    (hwatched : s'.Watched) (houtput : s'.output.senders = if s'.stage = .finished then 0 else 1)
    : s'.Linked := by
  refine ⟨?_, ?_, fun hsleeping => absurd hsleeping hstage.1, fun hgone => absurd hgone hstage.2,
    hwatched, ?_⟩
  . rw [hpackets]
    exact hlinked.room
  . rw [hpackets, hproducers]
    exact hlinked.senders
  . rw [houtput]
    simp [hstage.2]

section Steps

variable [Engine ω ε] [PacketRecorder ρ]

theorem Linked.producerStep (hlinked : s.Linked) {index : Nat}
    (hstep : s.step (.producer index) = some s')
    : s'.Linked := by
  rcases step_producers hstep with ⟨producer, producer', feed, hget, hproducer, rfl⟩
  rcases List.getElem?_eq_some_iff.mp hget with ⟨hindex, hproducerAt⟩
  have hmem : producer ∈ s.producers := List.mem_of_getElem? hget
  have hmem' : producer' ∈ s.producers.set index producer' := List.mem_set hindex producer'
  have hcounted : producer.phase.isSender = true → 0 < s.pipeline.feed.packets.senders := by
    intro hsender
    rw [hlinked.senders, List.countP_pos_iff]
    exact ⟨producer, hmem, hsender⟩
  have hacted := stepProducer_acted hcounted hproducer
  refine ⟨?_, ?_, ?_, ?_, ?_, hlinked.output⟩
  . change 0 < feed.packets.capacity
    rw [hacted.capacity]
    exact hlinked.room
  . have hsenders := hacted.senders
    have hcount := countP_isSender_set hget producer'
    rw [hlinked.senders] at hsenders
    change feed.packets.senders = (s.producers.set index producer').countP _
    omega
  . intro _
    rcases hacted.wakes with hwakeup | hphase
    . exact Or.inl hwakeup
    . exact Or.inr (Or.inr ⟨producer', hmem', hphase⟩)
  . intro hstage
    rcases hlinked.closed hstage with ⟨hqueue, hclosed⟩
    exact ⟨(hacted.queue hclosed).trans hqueue, hacted.receiving.trans hclosed⟩
  . exact ⟨hlinked.watched.room, hlinked.watched.receiving, hlinked.watched.complete⟩

theorem Linked.workStep (hlinked : s.Linked) (hstage : s.stage = .working) : s.work.Linked := by
  have hopen : s.stage ≠ .finished ∧ s.stage ≠ .gone := by simp [hstage]
  rcases work_cases hstage with ⟨stage, frames, hwork, hopen', -, hsleeping⟩
  have hfeed : s.pipeline.doWork.getFrame.2.2.feed = s.pipeline.doWork.feed :=
    congrArg Outline.feed (Pipeline.outline_getFrame (.nothing ω ε) s.pipeline.doWork)
  generalize s.pipeline.doWork.getFrame.2.2 = q at *
  have hends : SameEnds s.pipeline.feed q.feed := by
    rw [hfeed]
    rcases s.pipeline.doWork_feed with hfeed | hfeed
    . rw [hfeed]
      exact ⟨rfl, rfl, rfl⟩
    . rw [hfeed]
      exact sameEnds_tryRead s.pipeline.feed
  rw [hwork]
  refine ⟨?_, ?_, ?_, ?_, ?_, ?_⟩
  . dsimp only
    rw [hends.capacity]
    exact hlinked.room
  . dsimp only
    rw [hends.senders]
    exact hlinked.senders
  . intro hstage
    rcases hsleeping hstage with ⟨hready, hwaiting⟩
    rcases s.pipeline.doWork_waiting hready hwaiting with ⟨hempty, hread⟩
    rcases PacketChannel.tryRead_of_empty hempty with ⟨hqueue, hsenders, hsame⟩
    have hfeed' : q.feed = s.pipeline.feed := hfeed.trans (hread.trans hsame)
    refine Or.inr (Or.inl ⟨?_, ?_⟩)
    . dsimp only
      rw [hfeed']
      exact hqueue
    . rw [hlinked.senders] at hsenders
      exact List.countP_pos_iff.mp (Nat.pos_of_ne_zero hsenders)
  . intro hgone
    exact absurd hgone hopen'.2
  . exact watched_of_present hlinked.watched.room hlinked.watched.receiving
      (hlinked.present hopen)
  . dsimp only
    rw [hlinked.delivering hopen, if_neg (by simp [hopen'])]

omit [Engine ω ε] in
theorem Linked.dismissStep (hlinked : s.Linked) (hstage : s.stage = .finished) : s.dismiss.Linked := by
  rcases dismiss_eq s with ⟨q, hdismiss, hfeed, -⟩
  rw [hdismiss]
  refine ⟨?_, ?_, ?_, ?_, ?_, ?_⟩
  . dsimp only
    rw [hfeed]
    exact hlinked.room
  . dsimp only
    rw [hfeed]
    exact hlinked.senders
  . intro hsleeping
    cases hsleeping
  . intro _
    dsimp only
    rw [hfeed]
    exact ⟨rfl, rfl⟩
  . exact ⟨hlinked.watched.room, hlinked.watched.receiving, hlinked.watched.complete⟩
  . have houtput := hlinked.output
    rw [if_pos (Or.inl hstage)] at houtput
    exact houtput

theorem Linked.stageStep (hlinked : s.Linked) (hstep : s.stepStage = some s') : s'.Linked := by
  have hwatched := hlinked.watched
  unfold stepStage at hstep
  cases hstage : s.stage with
  | working =>
    rw [hstage] at hstep
    cases hstep
    exact hlinked.workStep hstage
  | sleeping =>
    have hsenders := hlinked.delivering (by simp [hstage])
    rw [hstage] at hstep
    rcases awake_cases hstep with ⟨-, rfl⟩
    exact hlinked.proceed rfl rfl (by simp) ⟨hwatched.room, hwatched.receiving, hwatched.complete⟩
      hsenders
  | delivering frame =>
    have hsenders := hlinked.delivering (by simp [hstage])
    rw [hstage] at hstep
    dsimp only at hstep
    rw [deliver_eq hwatched.receiving] at hstep
    split at hstep
    . cases hstep
    . cases hstep
      exact hlinked.proceed rfl rfl (by simp)
        (watched_of_present hwatched.room hwatched.receiving (hwatched.present hsenders)) hsenders
  | finishing =>
    have hsenders := hlinked.delivering (by simp [hstage])
    rw [hstage] at hstep
    cases hstep
    refine hlinked.proceed rfl rfl (by simp [finish])
      (watched_of_present hwatched.room hwatched.receiving (hwatched.present hsenders)) ?_
    change s.output.senders - 1 = 0
    rw [hsenders]
  | finished =>
    rw [hstage] at hstep
    cases hstep
    exact hlinked.dismissStep hstage
  | gone =>
    rw [hstage] at hstep
    cases hstep

theorem Linked.step (hlinked : s.Linked) {actor : Actor} (hstep : s.step actor = some s')
    : s'.Linked := by
  cases actor with
  | producer index => exact hlinked.producerStep hstep
  | stage => exact hlinked.stageStep hstep
  | consumer => exact hlinked.consumerStep hstep

theorem Linked.move (hlinked : s.Linked) {move : Move} (hmove : s.move move = some s')
    : s'.Linked := by
  cases move with
  | act actor => exact hlinked.step hmove
  | join index packets =>
    rcases Option.map_eq_some_iff.mp hmove with ⟨producer, -, rfl⟩
    exact hlinked.enlist packets
  | echo =>
    cases hmove
    refine ⟨hlinked.room, hlinked.senders, fun _ => Or.inl rfl, hlinked.closed, ?_, hlinked.output⟩
    exact ⟨hlinked.watched.room, hlinked.watched.receiving, hlinked.watched.complete⟩

theorem Linked.moves (hlinked : s.Linked) {history : List Move}
    (hmoves : s.moves history = some s')
    : s'.Linked := by
  induction history generalizing s with
  | nil =>
    cases hmoves
    exact hlinked
  | cons move history ih =>
    rcases Option.bind_eq_some_iff.mp hmoves with ⟨next, hmove, hrest⟩
    exact ih (hlinked.move hmove) hrest

theorem IsStuck.producers (hstuck : s.IsStuck) {producer : Producer} (hmem : producer ∈ s.producers)
    : producer.phase = .gone ∨ producer.phase = .sending
        ∧ s.pipeline.feed.packets.capacity ≤ s.pipeline.feed.packets.queue.length := by
  rcases List.mem_iff_getElem?.mp hmem with ⟨index, hget⟩
  have hstep := hstuck (.producer index)
  apply waits_of_stepProducer_none
  rcases hproducer : stepProducer producer s.pipeline.feed with _ | ⟨producer', feed⟩
  . rfl
  . unfold Playback.step at hstep
    dsimp only at hstep
    rw [hget] at hstep
    change (stepProducer producer s.pipeline.feed).bind _ = none at hstep
    rw [hproducer] at hstep
    cases hstep

theorem Linked.awaits_of_stuck (hlinked : s.Linked) (hstuck : s.IsStuck) (hstage : s.stage = .sleeping)
    : s.pipeline.feed.wakeup = true := by
  have hroom := hlinked.room
  rcases hlinked.awaits hstage
    with hwakeup | ⟨hqueue, producer, hmem, hsender⟩ | ⟨producer, hmem, hphase⟩
  . exact hwakeup
  . -- there is room for whatever the producer sends
    rcases hstuck.producers hmem with hphase | ⟨-, hfull⟩
    . rw [hphase] at hsender
      cases hsender
    . rw [hqueue, List.length_nil] at hfull
      omega
  . rcases hstuck.producers hmem with hphase' | ⟨hphase', -⟩
    . simp [hphase'] at hphase
    . simp [hphase'] at hphase

theorem Linked.stageGone (hlinked : s.Linked) (hstuck : s.IsStuck) : s.stage = .gone := by
  have hstep : s.stepStage = none := hstuck .stage
  unfold stepStage at hstep
  cases hstage : s.stage with
  | working =>
    rw [hstage] at hstep
    cases hstep
  | sleeping =>
    rw [hstage] at hstep
    have hwakeup := hlinked.awaits_of_stuck hstuck hstage
    unfold awake PacketChannel.takeWakeup at hstep
    rw [hwakeup] at hstep
    cases hstep
  | delivering frame =>
    have hopen : s.stage ≠ .finished ∧ s.stage ≠ .gone := by simp [hstage]
    have hroom := hlinked.watched.room
    rw [hstage] at hstep
    dsimp only at hstep
    rw [deliver_eq hlinked.watched.receiving, (hstuck.consumerWaits (hlinked.present hopen)).1,
      List.length_nil, if_neg (by omega)] at hstep
    cases hstep
  | finishing =>
    rw [hstage] at hstep
    cases hstep
  | finished =>
    rw [hstage] at hstep
    cases hstep
  | gone => rfl

theorem Linked.isOver (hlinked : s.Linked) (hstuck : s.IsStuck) : s.isOver = true := by
  have hstage := hlinked.stageGone hstuck
  have hroom := hlinked.room
  have hgone : ∀ producer ∈ s.producers, producer.phase = .gone := by
    intro producer hmem
    rcases hstuck.producers hmem with hphase | ⟨-, hfull⟩
    . exact hphase
    . -- nothing is left in a closed feed, and whoever sends into it is turned away
      rw [(hlinked.closed hstage).1, List.length_nil] at hfull
      omega
  have hsenders := hlinked.output
  rw [if_pos (Or.inr hstage)] at hsenders
  unfold Playback.isOver
  simp [hstage, hstuck.consumerGone hsenders]
  exact hgone

theorem Linked.lively (hlinked : s.Linked) : s.Lively := by
  refine ⟨?_, ?_⟩
  . intro hstage hwakeup
    rcases hlinked.awaits hstage with hstored | hawaits
    . rw [hwakeup] at hstored
      cases hstored
    . exact hawaits
  . intro hover
    by_contra hnone
    have hstuck : s.IsStuck := by
      intro actor
      rw [Option.eq_none_iff_forall_ne_some]
      intro s' hstep
      exact hnone ⟨actor, s', hstep⟩
    rw [hlinked.isOver hstuck] at hover
    cases hover

/--
Whatever the producers, the stage and the consumer do, nobody sleeps without somebody to wake them up,
and as long as the playback is not over somebody can make a step. This holds with any number of senders
and any room in the channels, and it does not matter why the stage has ended.
-/
theorem lively_of_moves {pipeline : Pipeline ω ε PacketChannel ρ} {feedRoom : Nat}
    (hfeed : pipeline.feed = .ofCapacity feedRoom) (packets : List Packet) (outputRoom : Nat)
    : ∃ first, start pipeline packets (some (.ofCapacity outputRoom)) = .ok first
        ∧ ∀ history s, first.moves history = some s → s.Lively := by
  refine ⟨_, rfl, ?_⟩
  intro history s hmoves
  exact ((linked_start hfeed rfl).moves hmoves).lively

open Pipeline (foreignPacket)

def samplePipeline : Pipeline Unit RawVideoEngine PacketChannel Collection :=
  (Pipeline.openWith Pipeline.sampleCodec defaultDrivers (.ofCapacity 1) () {} 0).2

def sampleHistory : List Move :=
  [.act .stage, .join 0 [foreignPacket], .act (.producer 0), .act (.producer 0), .echo, .act .stage,
   .act .stage, .act .stage, .act .stage]

-- The decoder of the second segment cannot be opened, and packets are left when the stage is gone.
theorem sample_lively
    : samplePipeline.feed = .ofCapacity 1
        ∧ ∃ first, start samplePipeline [foreignPacket, foreignPacket, foreignPacket]
            (some (.ofCapacity 1)) = .ok first
          ∧ ∃ s, first.moves sampleHistory = some s ∧ s.stage = .gone
            ∧ s.producers.map (·.packets) = [[foreignPacket, foreignPacket], [foreignPacket]]
            ∧ s.isOver = false ∧ s.Lively := by
  have hfeed : samplePipeline.feed = .ofCapacity 1 := by decide +kernel
  rcases lively_of_moves hfeed [foreignPacket, foreignPacket, foreignPacket] 1
    with ⟨first, hstart, hlively⟩
  have hrun : ((start samplePipeline [foreignPacket, foreignPacket, foreignPacket]
      (some (.ofCapacity 1))).toOption.bind (moves · sampleHistory)).any fun s =>
        decide (s.stage = .gone
          ∧ s.producers.map (·.packets) = [[foreignPacket, foreignPacket], [foreignPacket]]
          ∧ s.isOver = false) := by
    decide +kernel
  rw [hstart] at hrun
  rcases (Option.any_eq_true _ _).mp hrun with ⟨s, hmoves, hdecided⟩
  rcases of_decide_eq_true hdecided with ⟨hstage, hpackets, hover⟩
  exact ⟨hfeed, first, hstart, s, hmoves, hstage, hpackets, hover, hlively sampleHistory s hmoves⟩

end Steps

end Invariant

end DecodePipeline.Playback
