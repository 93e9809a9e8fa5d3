import DecodePipeline.Feed.Channel
import DecodePipeline.Proofs.Pipeline.Feeding

/-!
This module contains what a step of a pipeline does to its feed: it reads the feed at most once, and it
waits only if there was nothing to read.
-/

namespace DecodePipeline

namespace PacketChannel

variable {channel : PacketChannel} {packet : Packet} {queue : List Packet}

theorem tryRead_of_cons (hqueue : channel.packets.queue = packet :: queue)
    : PacketFeed.tryRead channel = (.item packet, { channel with packets.queue := queue }) := by
  unfold PacketFeed.tryRead instPacketFeed Channel.receive
  dsimp only
  rw [hqueue]

theorem tryRead_of_nil (hqueue : channel.packets.queue = [])
    : PacketFeed.tryRead channel
        = (if channel.packets.senders == 0 then .ended else .empty, channel) := by
  unfold PacketFeed.tryRead instPacketFeed Channel.receive
  dsimp only
  rw [hqueue]

theorem queue_of_item (hitem : (PacketFeed.tryRead channel).1 = .item packet)
    : ∃ queue, channel.packets.queue = packet :: queue := by
  cases hqueue : channel.packets.queue with
  | nil =>
    rw [tryRead_of_nil hqueue] at hitem
    dsimp only at hitem
    split at hitem <;> cases hitem
  | cons first queue =>
    rw [tryRead_of_cons hqueue] at hitem
    cases hitem
    exact ⟨queue, rfl⟩

theorem tryRead_of_empty (hempty : (PacketFeed.tryRead channel).1 = .empty)
    : channel.packets.queue = [] ∧ channel.packets.senders ≠ 0
        ∧ (PacketFeed.tryRead channel).2 = channel := by
  cases hqueue : channel.packets.queue with
  | nil =>
    rw [tryRead_of_nil hqueue] at hempty ⊢
    refine ⟨rfl, ?_, rfl⟩
    intro hsenders
    rw [hsenders] at hempty
    cases hempty
  | cons first queue =>
    rw [tryRead_of_cons hqueue] at hempty
    cases hempty

theorem mem_of_mem_tryRead (hmem : packet ∈ (PacketFeed.tryRead channel).2.packets.queue)
    : packet ∈ channel.packets.queue := by
  cases hqueue : channel.packets.queue with
  | nil =>
    rw [tryRead_of_nil hqueue] at hmem
    exact hqueue ▸ hmem
  | cons first queue =>
    rw [tryRead_of_cons hqueue] at hmem
    exact List.mem_cons_of_mem first hmem

end PacketChannel

namespace Pipeline

variable {ω ε φ ρ : Type}

structure SameSetting (p q : Pipeline ω ε φ ρ) : Prop where
  drivers : q.drivers = p.drivers
  options : q.options = p.options
  feed : q.feed = p.feed

theorem SameSetting.trans {p q r : Pipeline ω ε φ ρ} (hpq : p.SameSetting q) (hqr : q.SameSetting r)
    : p.SameSetting r := by
  refine ⟨?_, ?_, ?_⟩
  . rw [hqr.drivers, hpq.drivers]
  . rw [hqr.options, hpq.options]
  . rw [hqr.feed, hpq.feed]

variable [Engine ω ε]

theorem sameSetting_of_outline {α : Type} (view : Engine.View ω ε α) {p q : Pipeline ω ε φ ρ}
    (houtline : q.outline view = p.outline view)
    : p.SameSetting q := by
  simp only [outline, Outline.mk.injEq] at houtline
  rcases houtline with ⟨-, hdrivers, hoptions, hfeed, -⟩
  exact ⟨hdrivers, hoptions, hfeed⟩

theorem switchSegment_sameSetting (p : Pipeline ω ε φ ρ) : p.SameSetting p.switchSegment := by
  cases hqueued : p.segments.queued with
  | none =>
    rw [switchSegment_of_queued_none p hqueued]
    exact ⟨rfl, rfl, rfl⟩
  | some packet =>
    cases hkind : SegmentTracker.switchKind packet p.codec with
    | «continue» =>
      have houtline := outline_switchSegment_continue (.nothing ω ε) p hqueued hkind
      simp only [outline, Outline.mk.injEq] at houtline
      rcases houtline with ⟨-, hdrivers, hoptions, hfeed, -⟩
      exact ⟨hdrivers, hoptions, hfeed⟩
    | reinit codec =>
      have houtline := outline_switchSegment_reinit (.nothing ω ε) p hqueued hkind
      simp only [outline, Outline.mk.injEq] at houtline
      rcases houtline with ⟨-, hdrivers, hoptions, hfeed, -⟩
      exact ⟨hdrivers, hoptions, hfeed⟩

theorem readFrame_sameSetting (p : Pipeline ω ε φ ρ) : p.SameSetting p.readFrame := by
  rcases readFrame_cases (.nothing ω ε) p with ⟨q, houtline, hcases⟩
  have hq : p.SameSetting q := sameSetting_of_outline _ houtline
  rcases hcases with hread | ⟨-, -, frame, pts, -, -, hread⟩ | ⟨-, -, hread⟩
  . rw [hread]
    exact hq
  . rw [hread]
    exact ⟨hq.drivers, hq.options, hq.feed⟩
  . rw [hread]
    exact hq.trans q.switchSegment_sameSetting

section Status

theorem switchSegment_status (p : Pipeline ω ε φ ρ) (hstatus : p.status ≠ .waiting)
    : p.switchSegment.status ≠ .waiting := by
  cases hqueued : p.segments.queued with
  | none =>
    rw [switchSegment_of_queued_none p hqueued]
    exact hstatus
  | some packet =>
    cases hkind : SegmentTracker.switchKind packet p.codec with
    | «continue» =>
      rw [switchSegment_of_continue p hqueued hkind]
      simp [entered]
    | reinit codec =>
      rw [switchSegment_of_reinit p hqueued hkind]
      split <;> simp [entered]

theorem endSegment_status (p : Pipeline ω ε φ ρ) (hstatus : p.status ≠ .waiting)
    : p.endSegment.status ≠ .waiting := by
  unfold endSegment
  split
  . exact p.switchSegment_status hstatus
  . exact hstatus

theorem offer_status (p : Pipeline ω ε φ ρ) (frame : Frame) : (p.offer frame).status ≠ .waiting := by
  unfold offer
  dsimp only
  split
  . split
    . apply endSegment_status
      simp
    . simp
  . simp

theorem readFrame_status (p : Pipeline ω ε φ ρ) (hengine : p.engine.isSome) (hready : p.ready = none)
    : p.readFrame.status ≠ .waiting := by
  rcases Option.isSome_iff_exists.mp hengine with ⟨engine, hengine⟩
  unfold readFrame
  rw [hengine, hready]
  dsimp only
  split
  . apply offer_status
  . simp
  . apply endSegment_status
    simp

theorem readFrame_of_waiting (p : Pipeline ω ε φ ρ) (hwaiting : p.readFrame.status = .waiting)
    : p.readFrame = p := by
  cases hengine : p.engine with
  | none => exact readFrame_of_detached p hengine
  | some engine =>
    cases hready : p.ready with
    | some frame => exact readFrame_of_ready p (Option.isSome_of_eq_some hready)
    | none => exact absurd hwaiting (p.readFrame_status (Option.isSome_of_eq_some hengine) hready)

theorem sendPending_status [PacketRecorder ρ] (p : Pipeline ω ε φ ρ) (engine : ε)
    : (p.sendPending engine).status = .again := by
  unfold sendPending
  dsimp only
  split <;> rfl

end Status

variable [PacketFeed φ] [PacketRecorder ρ]

theorem feedPacket_feed (p : Pipeline ω ε φ ρ)
    : p.feedPacket.feed = p.feed ∨ p.feedPacket.feed = (PacketFeed.tryRead p.feed).2 := by
  cases hsending : p.sending with
  | none =>
    rcases p.feedPacket_of_not_sending hsending with hfeed | ⟨-, -, -, hfeed⟩
    . rw [hfeed]
      exact Or.inl rfl
    . rw [hfeed]
      exact Or.inr rfl
  | some sent =>
    rcases sent with ⟨engine, q⟩
    have hsent : p.feedPacket.feed = q.feed := by
      rw [feedPacket_of_sending p hsending]
      exact congrArg Outline.feed (outline_sendPending (.nothing ω ε) q engine)
    rcases sending_eq hsending with ⟨-, -, hfill, rfl⟩
    have hheld : p.fillPending.2.holdNewSegment.feed = p.fillPending.2.feed := by
      rcases p.fillPending.2.holdNewSegment_cases with ⟨hhold, -⟩ | ⟨packet, -, -, hhold⟩
      . rw [hhold]
      . rw [hhold]
        rfl
    rw [hsent, hheld]
    rcases p.fillPending_cases hfill with ⟨-, hq⟩ | ⟨-, packet, feed, htry, hq⟩ | ⟨-, feed, htry, hq⟩
    . rw [hq]
      exact Or.inl rfl
    . rw [hq, htry]
      exact Or.inr rfl
    . rw [hq, htry]
      exact Or.inr rfl

theorem doWork_feed (p : Pipeline ω ε φ ρ)
    : p.doWork.feed = p.feed ∨ p.doWork.feed = (PacketFeed.tryRead p.feed).2 := by
  have hread := p.readFrame_sameSetting.feed
  have hfed := p.readFrame.feedPacket_feed
  rw [hread] at hfed
  unfold doWork
  split
  . exact Or.inl rfl
  . dsimp only
    split
    . exact Or.inl hread
    . split
      . exact hfed
      . rw [p.readFrame.feedPacket.readFrame_sameSetting.feed]
        exact hfed

theorem feedPacket_waiting (p : Pipeline ω ε φ ρ) (hstatus : p.status ≠ .waiting)
    (hwaiting : p.feedPacket.status = .waiting)
    : (PacketFeed.tryRead p.feed).1 = .empty
        ∧ p.feedPacket.feed = (PacketFeed.tryRead p.feed).2 := by
  cases hsending : p.sending with
  | none =>
    rcases p.feedPacket_of_not_sending hsending with hfeed | ⟨-, -, hempty, hfeed⟩
    . rw [hfeed] at hwaiting
      exact absurd hwaiting hstatus
    . rw [hfeed]
      exact ⟨hempty, rfl⟩
  | some sent =>
    rw [feedPacket_of_sending p hsending, sendPending_status] at hwaiting
    cases hwaiting

theorem doWork_of_stored (p : Pipeline ω ε φ ρ) (hengine : p.engine.isSome)
    (hready : p.readFrame.ready.isSome)
    : p.doWork = p.readFrame := by
  unfold doWork
  rw [if_neg (by simp [Option.isNone_eq_false_iff.mpr hengine])]
  dsimp only
  rw [if_pos hready]

theorem doWork_of_idle (p : Pipeline ω ε φ ρ) (hengine : p.engine.isSome)
    (hready : p.readFrame.ready = none)
    : p.doWork
        = if p.readFrame.feedPacket.status == .waiting then p.readFrame.feedPacket
          else p.readFrame.feedPacket.readFrame := by
  unfold doWork
  rw [if_neg (by simp [Option.isNone_eq_false_iff.mpr hengine])]
  dsimp only
  rw [hready]
  rfl

theorem doWork_waiting (p : Pipeline ω ε φ ρ) (hready : p.doWork.ready = none)
    (hwaiting : p.doWork.status = .waiting)
    : (PacketFeed.tryRead p.feed).1 = .empty ∧ p.doWork.feed = (PacketFeed.tryRead p.feed).2 := by
  cases hengine : p.engine with
  | none =>
    unfold doWork at hwaiting
    rw [hengine] at hwaiting
    cases hwaiting
  | some engine =>
    have hattached : p.engine.isSome := Option.isSome_of_eq_some hengine
    cases hread : p.readFrame.ready with
    | some frame =>
      rw [doWork_of_stored p hattached (Option.isSome_of_eq_some hread), hread] at hready
      cases hready
    | none =>
      rw [doWork_of_idle p hattached hread] at hwaiting ⊢
      split at hwaiting
      . next hempty =>
        have hstatus : p.readFrame.status ≠ .waiting := by
          intro hstill
          have hsame := p.readFrame_of_waiting hstill
          rw [hsame] at hread
          exact p.readFrame_status hattached hread hstill
        have hfed := p.readFrame.feedPacket_waiting hstatus hwaiting
        rw [p.readFrame_sameSetting.feed] at hfed
        rw [if_pos hempty]
        exact hfed
      . next hfed =>
        -- the second reading of the engine does not end in waiting
        rw [readFrame_of_waiting _ hwaiting] at hwaiting
        exact absurd (beq_iff_eq.mpr hwaiting) hfed

end Pipeline
end DecodePipeline
