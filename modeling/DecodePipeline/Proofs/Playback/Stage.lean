import DecodePipeline.Proofs.Playback.Invariant

/-!
This module contains the steps of the stage in a playback of uncompressed video.
-/

namespace DecodePipeline

namespace Pipeline

variable {ω ρ : Type} {p : Pipeline ω RawVideoEngine PacketChannel ρ}

theorem incoming_of_cons {x : Packet} {queue : List Packet}
    (harrived : p.pending.toList ++ p.feed.packets.queue = x :: queue)
    : p.incoming = (.item x, { p.feed with packets.queue := queue }) := by
  cases hpending : p.pending with
  | none =>
    rw [hpending] at harrived
    have hqueue : p.feed.packets.queue = x :: queue := harrived
    rw [incoming_of_none hpending, PacketChannel.tryRead_of_cons hqueue]
  | some y =>
    rw [hpending] at harrived
    rcases List.cons.inj harrived with ⟨hsame, hqueue⟩
    rw [incoming_of_some hpending, hsame, ← hqueue]
    rfl

theorem incoming_of_nil (harrived : p.pending.toList ++ p.feed.packets.queue = [])
    : p.incoming = (if p.feed.packets.senders == 0 then .ended else .empty, p.feed) := by
  rcases List.append_eq_nil_iff.mp harrived with ⟨hpending, hqueue⟩
  rw [incoming_of_none (Option.toList_eq_nil_iff.mp hpending), PacketChannel.tryRead_of_nil hqueue]

end Pipeline

namespace Playback

variable {ω ρ : Type} {s s' : Playback ω RawVideoEngine ρ} {producer : Producer}
  {first : SharedCodec} {packets : List Packet}
  {q : Pipeline ω RawVideoEngine PacketChannel ρ}

section Work

def afterWork (s : Playback ω RawVideoEngine ρ) (q : Pipeline ω RawVideoEngine PacketChannel ρ)
    (stage : StagePhase) (frames : Nat) : Playback ω RawVideoEngine ρ :=
  { s with pipeline := q, stage, frames }

theorem todo_afterWork {stage : StagePhase} {frames : Nat} {queue : List Packet}
    (hfeed : q.feed = { s.pipeline.feed with packets.queue := queue })
    : (s.afterWork q stage frames).todo
        = q.pending.toList ++ queue ++ s.producers.flatMap (·.packets) := by
  unfold todo afterWork
  dsimp only
  rw [hfeed]

theorem Sound.worked (hsound : s.Sound producer first packets) (hidle : s.stage.frame = none)
    {stage : StagePhase} {frames : Nat} (used : List Packet) {queue : List Packet}
    (hfeed : q.feed = { s.pipeline.feed with packets.queue := queue })
    (harrived : s.pipeline.pending.toList ++ s.pipeline.feed.packets.queue
      = used ++ (q.pending.toList ++ queue))
    (hpictures : stage.frame.toList.map Frame.picture = used.filterMap (·.shown first))
    (hstaged : (s.afterWork q stage frames).Staged producer first packets stage)
    (hweight : 4 * queue.length + 3 * q.pending.toList.length + stage.weight
      < 4 * s.pipeline.feed.packets.queue.length + 3 * s.pipeline.pending.toList.length
        + s.stage.weight)
    : (s.afterWork q stage frames).Sound producer first packets
        ∧ (s.afterWork q stage frames).weight < s.weight := by
  have htodo : s.todo = used ++ (s.afterWork q stage frames).todo := by
    rw [todo_afterWork hfeed]
    unfold todo
    rw [harrived, List.append_assoc]
  have hhanded : (s.afterWork q stage frames).handed = s.handed ++ stage.frame.toList := by
    unfold handed
    rw [hidle]
    simp [afterWork]
  refine ⟨⟨hsound.producers, ?_, ⟨?_, ?_⟩, ?_, hstaged⟩, ?_⟩
  . refine ⟨?_, ?_, hsound.feeds.complete⟩
    . simp only [afterWork, hfeed]
      exact hsound.feeds.room
    . simp only [afterWork, hfeed]
      exact hsound.feeds.senders
  . rw [hhanded, ← hsound.accounts.pictures, htodo, List.filterMap_append, List.map_append, hpictures,
      List.append_assoc]
  . intro x hx
    apply hsound.accounts.known
    rw [htodo]
    exact List.mem_append_right used hx
  . exact ⟨hsound.watched.room, hsound.watched.receiving, hsound.watched.complete⟩
  . simp only [weight, afterWork, PacketChannel.weight, hfeed]
    omega

theorem Streams.afterWork {queue : List Packet} {stage : StagePhase} {frames : Nat}
    (hstreams : s.Streams first packets) (hfollows : q.Follows first packets)
    (hfeed : q.feed = { s.pipeline.feed with packets.queue := queue })
    : (s.afterWork q stage frames).Streams first packets := by
  refine ⟨hfollows, ?_, hstreams.senders⟩
  simp only [Playback.afterWork, hfeed]
  exact hstreams.receiving

variable [PacketRecorder ρ]

theorem work_of_some {frame : Frame} {status : Status}
    (hwork : s.pipeline.doWork.getFrame = (some frame, status, q))
    : s.work = s.afterWork q (.delivering frame) (s.frames + 1) := by
  unfold work
  rw [hwork]
  rfl

theorem work_of_again (hstage : s.stage = .working)
    (hwork : s.pipeline.doWork.getFrame = (none, .again, q))
    : s.work = s.afterWork q .working s.frames := by
  unfold work
  rw [hwork, ← hstage]
  rfl

theorem work_of_waiting (hwork : s.pipeline.doWork.getFrame = (none, .waiting, q))
    : s.work = s.afterWork q .sleeping s.frames := by
  unfold work
  rw [hwork]
  rfl

theorem work_of_ended (hwork : s.pipeline.doWork.getFrame = (none, .ended, q))
    : s.work = s.afterWork q .finishing s.frames := by
  unfold work
  rw [hwork]
  rfl

theorem work_cases {ε : Type} [Engine ω ε] {s : Playback ω ε ρ} (hstage : s.stage = .working)
    : ∃ stage frames,
        s.work = { s with pipeline := s.pipeline.doWork.getFrame.2.2, stage, frames }
          ∧ (stage ≠ .finished ∧ stage ≠ .gone) ∧ stage.frame = s.pipeline.doWork.ready
          ∧ (stage = .sleeping →
            s.pipeline.doWork.ready = none ∧ s.pipeline.doWork.status = .waiting) := by
  unfold work Pipeline.getFrame
  cases hready : s.pipeline.doWork.ready with
  | some frame => exact ⟨.delivering frame, s.frames + 1, rfl, by simp, rfl, by simp⟩
  | none =>
    dsimp only
    cases hstatus : s.pipeline.doWork.status with
    | ready => exact ⟨.working, s.frames, by rw [← hstage]; rfl, by simp, rfl, by simp⟩
    | again => exact ⟨.working, s.frames, by rw [← hstage]; rfl, by simp, rfl, by simp⟩
    | waiting => exact ⟨.sleeping, s.frames, rfl, by simp, rfl, by simp⟩
    | ended => exact ⟨.finishing, s.frames, rfl, by simp, rfl, by simp⟩

theorem Sound.work_of_nil (hsound : s.Sound producer first packets) (hstage : s.stage = .working)
    (hstreams : s.Streams first packets)
    (harrived : s.pipeline.pending.toList ++ s.pipeline.feed.packets.queue = [])
    : s.work.Sound producer first packets ∧ s.work.weight < s.weight := by
  have hidle : s.stage.frame = none := by
    rw [hstage]
    rfl
  have hqueue := (List.append_eq_nil_iff.mp harrived).2
  have hincoming := Pipeline.incoming_of_nil harrived
  have hsame : { s.pipeline.feed with packets.queue := [] } = s.pipeline.feed := by
    rw [← hqueue]
  rw [hsound.feeds.senders] at hincoming
  cases hsender : producer.phase.isSender with
  | true =>
    rw [hsender] at hincoming
    rcases hstreams.follows.wait hincoming with ⟨hwork, hfollows, hfeed, hpending⟩
    have hwakes : producer.Wakes s.pipeline.feed := by
      unfold Producer.Wakes
      cases hphase : producer.phase with
      | sending => exact Or.inr (Or.inr (Or.inr ⟨rfl, hqueue⟩))
      | waking => exact Or.inr (Or.inl rfl)
      | leaving => exact Or.inr (Or.inr (Or.inl rfl))
      | gone =>
        rw [hphase] at hsender
        cases hsender
    rw [work_of_waiting hwork]
    apply hsound.worked hidle [] (hfeed.trans hsame.symm)
    . rw [harrived, hpending]
      rfl
    . rfl
    . refine ⟨⟨hfollows, ?_, hstreams.senders⟩, ?_⟩
      . simp only [afterWork, hfeed]
        exact hstreams.receiving
      . simp only [afterWork, hfeed]
        exact hwakes
    . rw [hstage, hpending]
      simp only [StagePhase.weight, Option.toList_none, List.length_nil]
      omega
  | false =>
    rw [hsender] at hincoming
    rcases hstreams.follows.finish hincoming with ⟨hwork, hstatus, hfeed, hpending⟩
    have hfeed' := hfeed.trans hsame.symm
    rw [work_of_ended hwork]
    apply hsound.worked hidle [] hfeed'
    . rw [harrived, hpending]
      rfl
    . rfl
    . refine ⟨hstatus, ?_, hsender, hstreams.senders⟩
      rw [todo_afterWork hfeed', hpending, hsound.producers]
      simp [hsound.feeds.complete hsender]
    . rw [hstage, hpending]
      simp only [StagePhase.weight, Option.toList_none, List.length_nil]
      omega

section Arrival

variable {x : Packet} {queue : List Packet}

theorem Sound.work_of_new (hsound : s.Sound producer first packets) (hstage : s.stage = .working)
    (hstreams : s.Streams first packets) (hplain : PlainStream first packets)
    (harrived : s.pipeline.pending.toList ++ s.pipeline.feed.packets.queue = x :: queue)
    (hx : x ∈ packets) (hnew : s.pipeline.startsSegment x = true)
    : s.work.Sound producer first packets ∧ s.work.weight < s.weight := by
  have hidle : s.stage.frame = none := by
    rw [hstage]
    rfl
  have hlength := congrArg List.length harrived
  rw [List.length_append, List.length_cons] at hlength
  have hnone : s.pipeline.pending = none := by
    cases hcase : s.pipeline.pending with
    | none => rfl
    | some y =>
      -- a pending packet belongs to the current segment
      have hhome := hstreams.follows.home y hcase
      rw [hcase] at harrived
      rw [(List.cons.inj harrived).1, hnew] at hhome
      cases hhome
  rcases hstreams.follows.advance hplain hx (Pipeline.incoming_of_cons harrived) hnew
    with ⟨hwork, hfollows, hfeed, hpending⟩
  rw [work_of_again hstage hwork]
  apply hsound.worked hidle [] hfeed
  . rw [harrived, hpending]
    rfl
  . rfl
  . exact hstreams.afterWork hfollows hfeed
  . rw [hnone] at hlength ⊢
    rw [hstage, hpending]
    simp only [StagePhase.weight, Option.toList_none, Option.toList_some, List.length_nil,
      List.length_cons] at hlength ⊢
    omega

theorem Sound.work_of_home (hsound : s.Sound producer first packets) (hstage : s.stage = .working)
    (hstreams : s.Streams first packets) (hplain : PlainStream first packets)
    (harrived : s.pipeline.pending.toList ++ s.pipeline.feed.packets.queue = x :: queue)
    (hx : x ∈ packets) (hhome : s.pipeline.startsSegment x = false)
    : s.work.Sound producer first packets ∧ s.work.weight < s.weight := by
  have hidle : s.stage.frame = none := by
    rw [hstage]
    rfl
  have hlength := congrArg List.length harrived
  rw [List.length_append, List.length_cons] at hlength
  have hone : s.pipeline.pending.toList.length ≤ 1 := Option.length_toList_le
  rcases hstreams.follows.consume hplain hx (Pipeline.incoming_of_cons harrived) hhome
    with ⟨hfollows, hfeed, hpending, hpicture, hstatus⟩
  rcases hwork : s.pipeline.doWork.getFrame with ⟨frame, status, q⟩
  rw [hwork] at hfollows hfeed hpending hpicture hstatus
  dsimp only at hfollows hfeed hpending hpicture hstatus
  have harrived' : s.pipeline.pending.toList ++ s.pipeline.feed.packets.queue
      = [x] ++ (q.pending.toList ++ queue) := by
    rw [harrived, hpending]
    rfl
  cases frame with
  | some frame =>
    rw [work_of_some hwork]
    apply hsound.worked hidle [x] hfeed harrived'
    . rw [List.filterMap_cons, ← hpicture]
      rfl
    . exact hstreams.afterWork hfollows hfeed
    . rw [hstage, hpending]
      simp only [StagePhase.weight, Option.toList_none, List.length_nil]
      omega
  | none =>
    rw [hstatus rfl] at hwork
    rw [work_of_again hstage hwork]
    apply hsound.worked hidle [x] hfeed harrived'
    . rw [List.filterMap_cons, ← hpicture]
      rfl
    . exact hstreams.afterWork hfollows hfeed
    . rw [hstage, hpending]
      simp only [StagePhase.weight, Option.toList_none, List.length_nil]
      omega

end Arrival

theorem Sound.workStep (hsound : s.Sound producer first packets) (hplain : PlainStream first packets)
    (hstage : s.stage = .working)
    : s.work.Sound producer first packets ∧ s.work.weight < s.weight := by
  have hstreams : s.Streams first packets := hsound.staged_of_stage hstage
  cases harrived : s.pipeline.pending.toList ++ s.pipeline.feed.packets.queue with
  | nil => exact hsound.work_of_nil hstage hstreams harrived
  | cons x queue =>
    have hx : x ∈ packets := by
      apply hsound.accounts.known
      unfold todo
      rw [harrived]
      exact List.mem_cons_self
    cases hnew : s.pipeline.startsSegment x with
    | true => exact hsound.work_of_new hstage hstreams hplain harrived hx hnew
    | false => exact hsound.work_of_home hstage hstreams hplain harrived hx hnew

end Work

section Delivery

theorem awake_cases {ε : Type} {s s' : Playback ω ε ρ} (hstep : s.awake = some s')
    : s.pipeline.feed.wakeup = true
        ∧ s' = { s.withFeed { s.pipeline.feed with wakeup := false } with stage := .working } := by
  unfold awake PacketChannel.takeWakeup at hstep
  cases hwakeup : s.pipeline.feed.wakeup with
  | true =>
    rw [hwakeup] at hstep
    cases hstep
    exact ⟨rfl, rfl⟩
  | false =>
    rw [hwakeup] at hstep
    cases hstep

theorem Sound.awakeStep (hsound : s.Sound producer first packets) (hstage : s.stage = .sleeping)
    (hstep : s.awake = some s')
    : s'.Sound producer first packets ∧ s'.weight < s.weight := by
  have hstaged : s.Streams first packets ∧ producer.Wakes s.pipeline.feed :=
    hsound.staged_of_stage hstage
  have hfollows := hstaged.1.follows
  rcases awake_cases hstep with ⟨hwakeup, rfl⟩
  refine ⟨⟨hsound.producers, ?_, ⟨?_, ?_⟩, ?_, ?_⟩, ?_⟩
  . exact ⟨hsound.feeds.room, hsound.feeds.senders, hsound.feeds.complete⟩
  . rw [← hsound.accounts.pictures]
    unfold handed
    rw [hstage]
    rfl
  . exact hsound.accounts.known
  . exact ⟨hsound.watched.room, hsound.watched.receiving, hsound.watched.complete⟩
  . refine ⟨⟨?_, ?_, ?_, ?_⟩, hstaged.1.receiving, hstaged.1.senders⟩
    . exact hfollows.resting.withInput _ s.pipeline.pending
    . exact hfollows.codec
    . exact hfollows.plain
    . exact hfollows.home
  . simp only [weight, withFeed, PacketChannel.weight, hwakeup, hstage, StagePhase.weight,
      Bool.toNat_true, Bool.toNat_false]
    omega

theorem deliver_eq {ε : Type} {s : Playback ω ε ρ} (hreceiving : s.output.receiving = true)
    (frame : Frame)
    : s.deliver frame
        = if s.output.capacity ≤ s.output.queue.length then none
          else some { s with output.queue := s.output.queue ++ [frame], stage := .working } := by
  unfold deliver Channel.send
  rw [if_neg (by rw [hreceiving]; decide)]
  by_cases hfull : s.output.capacity ≤ s.output.queue.length
  . rw [if_pos hfull, if_pos hfull]
  . rw [if_neg hfull, if_neg hfull]

theorem Sound.deliverStep (hsound : s.Sound producer first packets) {frame : Frame}
    (hstage : s.stage = .delivering frame) (hstep : s.deliver frame = some s')
    : s'.Sound producer first packets ∧ s'.weight < s.weight := by
  have hstreams : s.Streams first packets := hsound.staged_of_stage hstage
  have hroom := hsound.watched.room
  rw [deliver_eq hsound.watched.receiving] at hstep
  split at hstep
  . cases hstep
  . cases hstep
    refine ⟨⟨hsound.producers, hsound.feeds, ⟨?_, hsound.accounts.known⟩, ?_, ?_⟩, ?_⟩
    . rw [← hsound.accounts.pictures]
      unfold handed
      rw [hstage]
      simp [StagePhase.frame]
      rfl
    . exact watched_of_present hsound.watched.room hsound.watched.receiving
        (hsound.watched.present hstreams.senders)
    . exact ⟨hstreams.follows, hstreams.receiving, hstreams.senders⟩
    . simp only [weight, hstage, StagePhase.weight, List.length_append, List.length_cons,
        List.length_nil]
      omega

theorem Sound.finishStep (hsound : s.Sound producer first packets) (hstage : s.stage = .finishing)
    : s.finish.Sound producer first packets ∧ s.finish.weight < s.weight := by
  have hended : s.Ended producer 1 := hsound.staged_of_stage hstage
  refine ⟨⟨hsound.producers, hsound.feeds, ⟨?_, hsound.accounts.known⟩, ?_, ?_⟩, ?_⟩
  . rw [← hsound.accounts.pictures]
    unfold handed
    rw [hstage]
    rfl
  . exact watched_of_present hsound.watched.room hsound.watched.receiving
      (hsound.watched.present hended.senders)
  . refine ⟨hended.status, hended.todo, hended.left, ?_⟩
    change s.output.senders - 1 = 0
    rw [hended.senders]
  . simp only [weight, hstage, StagePhase.weight, finish, say, Pipeline.say, Channel.removeSender]
    omega

variable [PacketRecorder ρ]

theorem dismiss_eq {ε : Type} (s : Playback ω ε ρ)
    : ∃ q : Pipeline ω ε PacketChannel ρ,
        s.dismiss = { s with pipeline := q, stage := .gone }
        ∧ q.feed = s.pipeline.feed.close ∧ q.pending = s.pipeline.pending
        ∧ q.status = s.pipeline.status := by
  unfold dismiss
  dsimp only
  split
  . exact ⟨_, rfl, rfl, rfl, rfl⟩
  . exact ⟨_, rfl, rfl, rfl, rfl⟩

theorem Sound.dismissStep (hsound : s.Sound producer first packets) (hstage : s.stage = .finished)
    : s.dismiss.Sound producer first packets ∧ s.dismiss.weight < s.weight := by
  have hended : s.Ended producer 0 := hsound.staged_of_stage hstage
  have htodo := hended.todo
  unfold todo at htodo
  rcases List.append_eq_nil_iff.mp htodo with ⟨harrived, hpackets⟩
  rcases List.append_eq_nil_iff.mp harrived with ⟨hnone, hqueue⟩
  rcases dismiss_eq s with ⟨q, hdismiss, hfeed, hpending, hstatus⟩
  have htodo' : s.dismiss.todo = s.todo := by
    unfold todo
    rw [hdismiss]
    dsimp only
    rw [hfeed, hpending, hqueue]
    rfl
  refine ⟨⟨?_, ?_, ⟨?_, ?_⟩, ?_, ?_⟩, ?_⟩
  . rw [hdismiss]
    exact hsound.producers
  . rw [hdismiss]
    dsimp only
    rw [hfeed]
    exact ⟨hsound.feeds.room, hsound.feeds.senders, hsound.feeds.complete⟩
  . rw [htodo', ← hsound.accounts.pictures, hdismiss]
    unfold handed
    rw [hstage]
    rfl
  . rw [htodo']
    exact hsound.accounts.known
  . rw [hdismiss]
    exact ⟨hsound.watched.room, hsound.watched.receiving, hsound.watched.complete⟩
  . have hended' : s.dismiss.Ended producer 0 := by
      refine ⟨?_, htodo'.trans hended.todo, hended.left, ?_⟩
      . rw [hdismiss]
        exact hstatus.trans hended.status
      . rw [hdismiss]
        exact hended.senders
    rw [show s.dismiss.stage = .gone by rw [hdismiss]]
    exact hended'
  . rw [hdismiss]
    simp only [weight, hfeed, hpending, hstage, StagePhase.weight, PacketChannel.weight,
      PacketChannel.close, Channel.close, List.length_nil]
    omega

end Delivery

theorem Sound.stageStep [PacketRecorder ρ] (hsound : s.Sound producer first packets)
    (hplain : PlainStream first packets) (hstep : s.stepStage = some s')
    : s'.Sound producer first packets ∧ s'.weight < s.weight := by
  unfold stepStage at hstep
  cases hstage : s.stage with
  | working =>
    rw [hstage] at hstep
    cases hstep
    exact hsound.workStep hplain hstage
  | sleeping =>
    rw [hstage] at hstep
    exact hsound.awakeStep hstage hstep
  | delivering frame =>
    rw [hstage] at hstep
    exact hsound.deliverStep hstage hstep
  | finishing =>
    rw [hstage] at hstep
    cases hstep
    exact hsound.finishStep hstage
  | finished =>
    rw [hstage] at hstep
    cases hstep
    exact hsound.dismissStep hstage
  | gone =>
    rw [hstage] at hstep
    cases hstep

end Playback
end DecodePipeline
