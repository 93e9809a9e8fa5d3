import DecodePipeline.Playback.Basic
import DecodePipeline.Proofs.Pipeline.Reading
import DecodePipeline.Proofs.Playback.Stream

/-!
This module contains what every step of a playback of uncompressed video keeps. The pictures of the
packets that are used up are handed on, nobody sleeps while there is something to do, and a weight
that becomes less with every step bounds the number of steps.
-/

namespace DecodePipeline

def ProducerPhase.isSender : ProducerPhase → Bool
  | .sending | .waking => true
  | .leaving | .gone => false

def ProducerPhase.weight : ProducerPhase → Nat
  | .sending => 4
  | .waking => 7
  | .leaving => 3
  | .gone => 0

def StagePhase.frame : StagePhase → Option Frame
  | .delivering frame => some frame
  | _ => none

def StagePhase.weight : StagePhase → Nat
  | .working => 4
  | .sleeping => 3
  | .delivering _ => 6
  | .finishing => 2
  | .finished => 1
  | .gone => 0

def PacketChannel.weight (feed : PacketChannel) : Nat :=
  4 * feed.packets.queue.length + 2 * feed.wakeup.toNat

namespace Producer

def weight (producer : Producer) : Nat := 8 * producer.packets.length + producer.phase.weight

structure Feeds (producer : Producer) (feed : PacketChannel) : Prop where
  room : 0 < feed.packets.capacity
  senders : feed.packets.senders = if producer.phase.isSender then 1 else 0
  complete : producer.phase.isSender = false → producer.packets = []

def Wakes (producer : Producer) (feed : PacketChannel) : Prop :=
  -- A wake-up is stored, or the producer makes a step before it waits.
  feed.wakeup = true ∨ producer.phase = .waking ∨ producer.phase = .leaving
    ∨ producer.phase = .sending ∧ feed.packets.queue = []

end Producer

namespace Playback

variable {ω ε ρ : Type}

section Producers

variable {producer producer' : Producer} {feed feed' : PacketChannel}

theorem stepProducer_cases (hstep : stepProducer producer feed = some (producer', feed'))
    : (∃ x packets, feed.packets.receiving = true ∧ producer = ⟨x :: packets, .sending⟩
          ∧ producer' = ⟨packets, .waking⟩
          ∧ feed' = { feed with packets.queue := feed.packets.queue ++ [x] })
        ∨ (producer.phase = .sending ∧ (feed.packets.receiving = true → producer.packets = [])
          ∧ producer' = ⟨producer.packets, .leaving⟩ ∧ feed' = feed.release)
        ∨ (producer.phase = .waking ∧ producer' = ⟨producer.packets, .sending⟩ ∧ feed' = feed.wake)
        ∨ (producer.phase = .leaving ∧ producer' = ⟨producer.packets, .gone⟩ ∧ feed' = feed.wake) := by
  rcases producer with ⟨packets, phase⟩
  cases phase with
  | sending =>
    cases packets with
    | nil =>
      cases hstep
      exact Or.inr (Or.inl ⟨rfl, fun _ => rfl, rfl, rfl⟩)
    | cons x packets =>
      unfold stepProducer PacketChannel.push Channel.send at hstep
      dsimp only at hstep
      split at hstep
      . next hsent =>
        split at hsent
        . cases hsent
        . next hreceiving =>
          split at hsent
          . cases hsent
          . cases hsent
            cases hstep
            exact Or.inl ⟨x, packets, by simpa using hreceiving, rfl, rfl, rfl⟩
      . next hclosed =>
        split at hclosed
        . next hreceiving =>
          cases hclosed
          cases hstep
          refine Or.inr (Or.inl ⟨rfl, ?_, rfl, rfl⟩)
          intro hopen
          rw [hopen] at hreceiving
          cases hreceiving
        . split at hclosed <;> cases hclosed
      . cases hstep
  | waking =>
    cases hstep
    exact Or.inr (Or.inr (Or.inl ⟨rfl, rfl, rfl⟩))
  | leaving =>
    cases hstep
    exact Or.inr (Or.inr (Or.inr ⟨rfl, rfl, rfl⟩))
  | gone => cases hstep

structure Fed (producer : Producer) (feed : PacketChannel) (producer' : Producer)
    (feed' : PacketChannel) : Prop where
  feeds : producer'.Feeds feed'
  packets : feed'.packets.queue ++ producer'.packets = feed.packets.queue ++ producer.packets
  receiving : feed'.packets.receiving = feed.packets.receiving
  left : producer.phase.isSender = false → producer'.phase.isSender = false
  wakes : producer.Wakes feed → producer'.Wakes feed'
  weight : producer'.weight + feed'.weight < producer.weight + feed.weight

theorem stepProducer_spec (hfeeds : producer.Feeds feed)
    (hopen : producer.phase.isSender = true → feed.packets.receiving = true)
    (hstep : stepProducer producer feed = some (producer', feed'))
    : Fed producer feed producer' feed' := by
  have hsenders := hfeeds.senders
  have hcomplete := hfeeds.complete
  have hwake : feed.wake.weight ≤ feed.weight + 2 := by
    simp only [PacketChannel.wake, PacketChannel.weight, Bool.toNat_true]
    omega
  rcases stepProducer_cases hstep
    with ⟨x, packets, -, rfl, rfl, rfl⟩ | ⟨hphase, hnone, rfl, rfl⟩ | ⟨hphase, rfl, rfl⟩
      | ⟨hphase, rfl, rfl⟩
  . refine ⟨⟨hfeeds.room, hsenders, ?_⟩, ?_, rfl, ?_, ?_, ?_⟩
    . intro hleft
      cases hleft
    . simp
    . intro hleft
      cases hleft
    . intro hwakes
      exact Or.inr (Or.inl rfl)
    . simp only [Producer.weight, ProducerPhase.weight, PacketChannel.weight, List.length_cons,
        List.length_append, List.length_nil]
      omega
  . rw [hphase] at hsenders hopen
    have hnone := hnone (hopen rfl)
    refine ⟨⟨hfeeds.room, ?_, ?_⟩, rfl, rfl, ?_, ?_, ?_⟩
    . simp only [PacketChannel.release, Channel.removeSender, hsenders]
      rfl
    . intro hleft
      exact hnone
    . intro hleft
      rfl
    . intro hwakes
      exact Or.inr (Or.inr (Or.inl rfl))
    . simp only [Producer.weight, hphase, ProducerPhase.weight]
      change _ + feed.weight < _
      omega
  . rw [hphase] at hsenders hcomplete
    refine ⟨⟨hfeeds.room, hsenders, hcomplete⟩, rfl, rfl, ?_, ?_, ?_⟩
    . intro hleft
      rw [hphase] at hleft
      cases hleft
    . intro hwakes
      exact Or.inl rfl
    . simp only [Producer.weight, hphase, ProducerPhase.weight]
      omega
  . rw [hphase] at hsenders hcomplete
    refine ⟨⟨hfeeds.room, hsenders, hcomplete⟩, rfl, rfl, ?_, ?_, ?_⟩
    . intro hleft
      rfl
    . intro hwakes
      exact Or.inl rfl
    . simp only [Producer.weight, hphase, ProducerPhase.weight]
      omega

theorem step_producers [Engine ω ε] [PacketRecorder ρ] {s s' : Playback ω ε ρ} {index : Nat}
    (hstep : s.step (.producer index) = some s')
    : ∃ producer producer' feed, s.producers[index]? = some producer
        ∧ stepProducer producer s.pipeline.feed = some (producer', feed)
        ∧ s' = { s.withFeed feed with producers := s.producers.set index producer' } := by
  rcases Option.bind_eq_some_iff.mp hstep with ⟨producer, hget, hstep⟩
  rcases Option.bind_eq_some_iff.mp hstep with ⟨⟨producer', feed⟩, hproducer, hstep⟩
  cases hstep
  exact ⟨producer, producer', feed, hget, hproducer, rfl⟩

end Producers

def todo (s : Playback ω ε ρ) : List Packet :=
  s.pipeline.pending.toList ++ s.pipeline.feed.packets.queue ++ s.producers.flatMap (·.packets)

def handed (s : Playback ω ε ρ) : List Frame :=
  s.taken.toList ++ s.output.queue ++ s.stage.frame.toList

def weight (s : Playback ω ε ρ) : Nat :=
  -- An upper bound for the number of steps that are left.
  (s.producers.map (·.weight)).sum + s.pipeline.feed.weight
    + 3 * s.pipeline.pending.toList.length + s.stage.weight + s.output.queue.length
    + (!s.consumerGone).toNat

structure Accounts (s : Playback ω ε ρ) (first : SharedCodec) (packets : List Packet) : Prop where
  pictures : s.handed.map Frame.picture ++ s.todo.filterMap (·.shown first)
    = packets.filterMap (·.shown first)
  known : ∀ x ∈ s.todo, x ∈ packets

structure Watched (s : Playback ω ε ρ) : Prop where
  room : 0 < s.output.capacity
  receiving : s.output.receiving = true
  complete : s.consumerGone = true → s.output.senders = 0 ∧ s.output.queue = []

theorem watched_of_present {s : Playback ω ε ρ} (hroom : 0 < s.output.capacity)
    (hreceiving : s.output.receiving = true) (hpresent : s.consumerGone = false)
    : s.Watched := by
  refine ⟨hroom, hreceiving, ?_⟩
  intro hgone
  rw [hpresent] at hgone
  cases hgone

theorem Watched.present {s : Playback ω ε ρ} (hwatched : s.Watched) (hsenders : s.output.senders = 1)
    : s.consumerGone = false := by
  cases hgone : s.consumerGone with
  | false => rfl
  | true =>
    rw [(hwatched.complete hgone).1] at hsenders
    cases hsenders

structure Streams (s : Playback ω RawVideoEngine ρ) (first : SharedCodec)
    (packets : List Packet) : Prop where
  follows : s.pipeline.Follows first packets
  receiving : s.pipeline.feed.packets.receiving = true
  senders : s.output.senders = 1

structure Ended (s : Playback ω ε ρ) (producer : Producer) (senders : Nat) : Prop where
  status : s.pipeline.status = .ended
  todo : s.todo = []
  left : producer.phase.isSender = false
  senders : s.output.senders = senders

def Staged (s : Playback ω RawVideoEngine ρ) (producer : Producer) (first : SharedCodec)
    (packets : List Packet) : StagePhase → Prop
  | .working | .delivering _ => s.Streams first packets
  | .sleeping => s.Streams first packets ∧ producer.Wakes s.pipeline.feed
  | .finishing => s.Ended producer 1
  | .finished | .gone => s.Ended producer 0

structure Sound (s : Playback ω RawVideoEngine ρ) (producer : Producer) (first : SharedCodec)
    (packets : List Packet) : Prop where
  producers : s.producers = [producer]
  feeds : producer.Feeds s.pipeline.feed
  accounts : s.Accounts first packets
  watched : s.Watched
  staged : s.Staged producer first packets s.stage

section Steps

variable {s s' : Playback ω RawVideoEngine ρ} {producer producer' : Producer} {first : SharedCodec}
  {packets : List Packet} {feed : PacketChannel}

theorem Sound.staged_of_stage (hsound : s.Sound producer first packets) {phase : StagePhase}
    (hstage : s.stage = phase)
    : s.Staged producer first packets phase := by
  rw [← hstage]
  exact hsound.staged

theorem Staged.imp {s' : Playback ω RawVideoEngine ρ} {phase : StagePhase}
    (hstaged : s.Staged producer first packets phase)
    (hstreams : s.Streams first packets → s'.Streams first packets)
    (hwakes : producer.Wakes s.pipeline.feed → producer'.Wakes s'.pipeline.feed)
    (hended : ∀ senders, s.Ended producer senders → s'.Ended producer' senders)
    : s'.Staged producer' first packets phase := by
  cases phase with
  | working => exact hstreams hstaged
  | sleeping => exact ⟨hstreams hstaged.1, hwakes hstaged.2⟩
  | delivering frame => exact hstreams hstaged
  | finishing => exact hended 1 hstaged
  | finished => exact hended 0 hstaged
  | gone => exact hended 0 hstaged

-- the feed has a reader as long as it has a sender
theorem Sound.receiving (hsound : s.Sound producer first packets)
    (hsender : producer.phase.isSender = true)
    : s.pipeline.feed.packets.receiving = true := by
  have hstaged := hsound.staged
  have hended {senders : Nat} (hended : s.Ended producer senders) : False := by
    rw [hended.left] at hsender
    cases hsender
  cases hstage : s.stage with
  | working =>
    rw [hstage] at hstaged
    exact hstaged.receiving
  | sleeping =>
    rw [hstage] at hstaged
    exact hstaged.1.receiving
  | delivering frame =>
    rw [hstage] at hstaged
    exact hstaged.receiving
  | finishing =>
    rw [hstage] at hstaged
    exact (hended hstaged).elim
  | finished =>
    rw [hstage] at hstaged
    exact (hended hstaged).elim
  | gone =>
    rw [hstage] at hstaged
    exact (hended hstaged).elim

def afterProducer (s : Playback ω ε ρ) (producer : Producer) (feed : PacketChannel) : Playback ω ε ρ :=
  { s.withFeed feed with producers := [producer] }

theorem step_producer [PacketRecorder ρ] (hproducers : s.producers = [producer]) {index : Nat}
    (hstep : s.step (.producer index) = some s')
    : ∃ producer' feed, stepProducer producer s.pipeline.feed = some (producer', feed)
        ∧ s' = s.afterProducer producer' feed := by
  rcases step_producers hstep with ⟨_, producer', feed, hget, hproducer, rfl⟩
  rw [hproducers] at hget ⊢
  cases index with
  | zero =>
    cases hget
    exact ⟨producer', feed, hproducer, rfl⟩
  | succ index => cases hget

theorem todo_afterProducer (hproducers : s.producers = [producer])
    (hfed : Fed producer s.pipeline.feed producer' feed)
    : (s.afterProducer producer' feed).todo = s.todo := by
  have hpackets := hfed.packets
  simp only [todo, afterProducer, withFeed, hproducers, List.flatMap_cons, List.flatMap_nil,
    List.append_nil, List.append_assoc]
  rw [hpackets]

theorem Streams.afterProducer (hstreams : s.Streams first packets)
    (hfed : Fed producer s.pipeline.feed producer' feed)
    : (s.afterProducer producer' feed).Streams first packets := by
  have hfollows := hstreams.follows
  refine ⟨⟨?_, ?_, ?_, ?_⟩, ?_, ?_⟩
  . exact hfollows.resting.withInput feed s.pipeline.pending
  . exact hfollows.codec
  . exact hfollows.plain
  . exact hfollows.home
  . exact hfed.receiving.trans hstreams.receiving
  . exact hstreams.senders

theorem Ended.afterProducer {senders : Nat} (hended : s.Ended producer senders)
    (hproducers : s.producers = [producer]) (hfed : Fed producer s.pipeline.feed producer' feed)
    : (s.afterProducer producer' feed).Ended producer' senders := by
  refine ⟨?_, ?_, ?_, ?_⟩
  . exact hended.status
  . exact (todo_afterProducer hproducers hfed).trans hended.todo
  . exact hfed.left hended.left
  . exact hended.senders

theorem Sound.producerStep [PacketRecorder ρ] (hsound : s.Sound producer first packets) {index : Nat}
    (hstep : s.step (.producer index) = some s')
    : ∃ producer', s'.Sound producer' first packets ∧ s'.weight < s.weight := by
  have hproducers := hsound.producers
  rcases step_producer hproducers hstep with ⟨producer', feed, hproducer, rfl⟩
  have hfed := stepProducer_spec hsound.feeds hsound.receiving hproducer
  have htodo := todo_afterProducer hproducers hfed
  refine ⟨producer', ⟨rfl, hfed.feeds, ⟨?_, ?_⟩, ?_, ?_⟩, ?_⟩
  . rw [htodo]
    exact hsound.accounts.pictures
  . rw [htodo]
    exact hsound.accounts.known
  . exact ⟨hsound.watched.room, hsound.watched.receiving, hsound.watched.complete⟩
  . apply hsound.staged.imp
    . intro hstreams
      exact hstreams.afterProducer hfed
    . exact hfed.wakes
    . intro senders hended
      exact hended.afterProducer hproducers hfed
  . have hweight := hfed.weight
    simp only [weight, afterProducer, withFeed, hproducers, List.map_cons, List.map_nil, List.sum_cons,
      List.sum_nil]
    omega

-- the consumer takes no part in what the stage and the producer do
theorem Staged.of_consumer {phase : StagePhase} (hstaged : s.Staged producer first packets phase)
    (hpipeline : s'.pipeline = s.pipeline) (hproducers : s'.producers = s.producers)
    (hsenders : s'.output.senders = s.output.senders)
    : s'.Staged producer first packets phase := by
  have htodo : s'.todo = s.todo := by
    unfold todo
    rw [hpipeline, hproducers]
  apply hstaged.imp
  . intro hstreams
    refine ⟨?_, ?_, hsenders.trans hstreams.senders⟩
    . rw [hpipeline]
      exact hstreams.follows
    . rw [hpipeline]
      exact hstreams.receiving
  . intro hwakes
    rw [hpipeline]
    exact hwakes
  . intro senders hended
    refine ⟨?_, htodo.trans hended.todo, hended.left, hsenders.trans hended.senders⟩
    rw [hpipeline]
    exact hended.status

theorem stepConsumer_cases {ε : Type} {s s' : Playback ω ε ρ} (hstep : s.stepConsumer = some s')
    : s.consumerGone = false
        ∧ ((∃ frame queue, s.output.queue = frame :: queue
            ∧ s' = { s with output.queue := queue, taken := s.taken.push frame })
          ∨ (s.output.queue = [] ∧ s.output.senders = 0 ∧ s' = { s with consumerGone := true })) := by
  unfold stepConsumer at hstep
  split at hstep
  . cases hstep
  . next hpresent =>
    refine ⟨Bool.eq_false_iff.mpr hpresent, ?_⟩
    unfold Channel.receive at hstep
    cases hqueue : s.output.queue with
    | nil =>
      rw [hqueue] at hstep
      dsimp only at hstep
      by_cases hsenders : s.output.senders = 0
      . rw [hsenders] at hstep
        cases hstep
        exact Or.inr ⟨rfl, hsenders, rfl⟩
      . rw [if_neg (mt beq_iff_eq.mp hsenders)] at hstep
        cases hstep
    | cons frame queue =>
      rw [hqueue] at hstep
      cases hstep
      exact Or.inl ⟨frame, queue, rfl, rfl⟩

theorem Sound.consumerStep (hsound : s.Sound producer first packets)
    (hstep : s.stepConsumer = some s')
    : s'.Sound producer first packets ∧ s'.weight < s.weight := by
  rcases stepConsumer_cases hstep
    with ⟨hpresent, ⟨frame, queue, hqueue, rfl⟩ | ⟨hqueue, hsenders, rfl⟩⟩
  . refine ⟨⟨hsound.producers, hsound.feeds, ⟨?_, hsound.accounts.known⟩, ?_, ?_⟩, ?_⟩
    . rw [← hsound.accounts.pictures]
      simp only [handed, hqueue, Array.toList_push, List.append_assoc, List.cons_append, List.nil_append]
      rfl
    . exact watched_of_present hsound.watched.room hsound.watched.receiving hpresent
    . exact hsound.staged.of_consumer rfl rfl rfl
    . simp only [weight, hqueue, List.length_cons]
      omega
  . have haccounts := hsound.accounts
    refine ⟨⟨hsound.producers, hsound.feeds, ⟨haccounts.pictures, haccounts.known⟩, ?_, ?_⟩, ?_⟩
    . refine ⟨hsound.watched.room, hsound.watched.receiving, ?_⟩
      intro hgone
      exact ⟨hsenders, hqueue⟩
    . exact hsound.staged.of_consumer rfl rfl rfl
    . simp only [weight, hpresent, Bool.not_true, Bool.not_false, Bool.toNat_true, Bool.toNat_false]
      omega

end Steps

end Playback
end DecodePipeline
