import DecodePipeline.Proofs.Pipeline.Outline

/-!
This module contains what the input side of a pipeline does to its outline: a packet comes in from the
feed, may be held back, and leaves for the engine.
-/

namespace DecodePipeline.Pipeline

variable {ω ε φ ρ α : Type}

theorem fillPending_of_idle [PacketFeed φ] (p : Pipeline ω ε φ ρ) (hpending : p.pending = none)
    (hqueued : p.segments.queued = none)
    : p.fillPending
        = match PacketFeed.tryRead p.feed with
          | (.item packet, feed) => (false, { p with feed, pending := some packet })
          | (.empty, feed) => (true, { p with feed })
          | (.ended, feed) => (false, { p with feed }) := by
  unfold fillPending readFeed
  simp only [hpending, SegmentTracker.hasQueued, hqueued, Option.isSome_none, Bool.or_self,
    Bool.false_eq_true, if_false]
  rcases PacketFeed.tryRead p.feed with ⟨poll, feed⟩
  cases poll <;> rfl

theorem holdNewSegment_of_pending_none (p : Pipeline ω ε φ ρ) (hpending : p.pending = none)
    : p.holdNewSegment = p := by
  unfold holdNewSegment
  rw [hpending]
  rfl

theorem holdNewSegment_of_queued (p : Pipeline ω ε φ ρ) (hqueued : p.segments.hasQueued)
    : p.holdNewSegment = p := by
  have hnew : p.pending.filter p.startsSegment = none := by
    rw [Option.filter_eq_none_iff]
    intro packet _
    simp [startsSegment, hqueued]
  unfold holdNewSegment
  rw [hnew]

theorem holdNewSegment_of_same (p : Pipeline ω ε φ ρ) {packet : Packet}
    (hpending : p.pending = some packet) (hnew : p.startsSegment packet = false)
    : p.holdNewSegment = p := by
  unfold holdNewSegment
  simp [hpending, Option.filter, hnew]

theorem holdNewSegment_of_new (p : Pipeline ω ε φ ρ) {packet : Packet}
    (hpending : p.pending = some packet) (hnew : p.startsSegment packet = true)
    : p.holdNewSegment
        = { p.say (.newSegment packet.anyTime) with
            pending := none
            segments := p.segments.queue packet } := by
  unfold holdNewSegment
  simp [hpending, Option.filter, hnew]

def held (p : Pipeline ω ε φ ρ) : List Packet := p.pending.toList ++ p.segments.queued.toList

theorem held_eq_nil (p : Pipeline ω ε φ ρ)
    : p.held = [] ↔ p.pending = none ∧ p.segments.queued = none := by
  unfold held
  cases p.pending <;> cases p.segments.queued <;> simp

theorem fillPending_of_held [PacketFeed φ] (p : Pipeline ω ε φ ρ) (hheld : p.held ≠ [])
    : p.fillPending = (false, p) := by
  have hsome : (p.pending.isSome || p.segments.hasQueued) = true := by
    rw [Ne, held_eq_nil, Classical.not_and_iff_not_or_not] at hheld
    simpa [SegmentTracker.hasQueued, Option.isSome_iff_ne_none] using hheld
  unfold fillPending
  rw [if_pos hsome]

theorem fillPending_cases [PacketFeed φ] (p : Pipeline ω ε φ ρ) (hfill : p.fillPending.1 = false)
    : (p.held ≠ [] ∧ p.fillPending.2 = p)
        ∨ (p.held = [] ∧ ∃ packet feed, PacketFeed.tryRead p.feed = (.item packet, feed)
            ∧ p.fillPending.2 = { p with feed, pending := some packet })
        ∨ (p.held = [] ∧ ∃ feed, PacketFeed.tryRead p.feed = (.ended, feed)
            ∧ p.fillPending.2 = { p with feed }) := by
  by_cases hheld : p.held = []
  . right
    obtain ⟨hpending, hqueued⟩ := p.held_eq_nil.mp hheld
    rw [fillPending_of_idle p hpending hqueued] at hfill ⊢
    rcases hread : PacketFeed.tryRead p.feed with ⟨poll, feed⟩
    rw [hread] at hfill
    cases poll with
    | item packet => exact .inl ⟨hheld, packet, feed, rfl, rfl⟩
    | empty => simp at hfill
    | ended => exact .inr ⟨hheld, feed, rfl, rfl⟩
  . left
    rw [fillPending_of_held p hheld]
    exact ⟨hheld, rfl⟩

theorem holdNewSegment_cases (p : Pipeline ω ε φ ρ)
    : (p.holdNewSegment = p ∧ ∀ packet, p.pending = some packet → p.startsSegment packet = false)
        ∨ ∃ packet, p.pending = some packet ∧ p.segments.queued = none
            ∧ p.holdNewSegment
                = { p.say (.newSegment packet.anyTime) with
                    pending := none
                    segments := p.segments.queue packet } := by
  cases hpending : p.pending with
  | none => exact .inl ⟨holdNewSegment_of_pending_none p hpending, by simp⟩
  | some packet =>
    cases hnew : p.startsSegment packet with
    | false =>
      left
      refine ⟨holdNewSegment_of_same p hpending hnew, ?_⟩
      rintro _ ⟨⟩
      exact hnew
    | true =>
      right
      refine ⟨packet, rfl, ?_, holdNewSegment_of_new p hpending hnew⟩
      unfold startsSegment SegmentTracker.hasQueued at hnew
      simp only [Bool.and_eq_true, Bool.not_eq_true', Option.isSome_eq_false_iff,
        Option.isNone_iff_eq_none] at hnew
      exact hnew.1

def sending [PacketFeed φ] (p : Pipeline ω ε φ ρ) : Option (ε × Pipeline ω ε φ ρ) :=
  match p.engine, p.ready with
  | some engine, none =>
    if p.fillPending.1 then none else some (engine, p.fillPending.2.holdNewSegment)
  | _, _ => none

theorem sending_eq [PacketFeed φ] {p q : Pipeline ω ε φ ρ} {engine : ε}
    (hsending : p.sending = some (engine, q))
    : p.engine = some engine ∧ p.ready = none ∧ p.fillPending.1 = false
        ∧ q = p.fillPending.2.holdNewSegment := by
  unfold sending at hsending
  split at hsending
  . next receiver hengine hready =>
    split at hsending
    . simp at hsending
    . next hfill =>
      simp only [Option.some.injEq, Prod.mk.injEq] at hsending
      rcases hsending with ⟨rfl, rfl⟩
      exact ⟨hengine, hready, by simpa using hfill, rfl⟩
  . simp at hsending

variable [Engine ω ε] (view : Engine.View ω ε α)

def sendReply (p : Pipeline ω ε φ ρ) (engine : ε) (framedrop : FrameDrop) : Reply ω ε Bool :=
  let told := Engine.control engine p.shared (.setFrameDrop framedrop)
  Engine.send told.engine told.shared (p.pending.map p.forEngine)

@[simp]
theorem outline_record [PacketRecorder ρ] (p : Pipeline ω ε φ ρ) (packet : Packet)
    : (p.record packet).outline view = p.outline view := by
  unfold record
  split <;> rfl

@[simp]
theorem outline_acceptPending [PacketRecorder ρ] (p : Pipeline ω ε φ ρ)
    : p.acceptPending.outline view = { p.outline view with pending := none } := by
  unfold acceptPending
  split
  . next hpending => simp [outline, hpending]
  . next packet hpending => exact outline_record view { p with pending := none } packet

@[simp]
theorem outline_retryPending (p : Pipeline ω ε φ ρ)
    : p.retryPending.outline view = p.outline view := by
  unfold retryPending
  split <;> rfl

@[simp]
theorem outline_sendTo (p : Pipeline ω ε φ ρ) (engine : ε) (framedrop : FrameDrop)
    : (p.sendTo engine framedrop).2.outline view
        = { p.outline view with
            attached := true
            engines :=
              view.see (some (p.sendReply engine framedrop).engine)
                (p.sendReply engine framedrop).shared } := rfl

theorem outline_sendPending [PacketRecorder ρ] (p : Pipeline ω ε φ ρ) (engine : ε)
    : (p.sendPending engine).outline view
        = { p.outline view with
            attached := true
            engines :=
              view.see (some (p.sendReply engine p.pendingFrameDrop).engine)
                (p.sendReply engine p.pendingFrameDrop).shared
            pending :=
              if (p.sendReply engine p.pendingFrameDrop).answer then none else p.pending } := by
  have hsend := outline_sendTo view p engine p.pendingFrameDrop
  have hanswer : (p.sendTo engine p.pendingFrameDrop).1
      = (p.sendReply engine p.pendingFrameDrop).answer := rfl
  unfold sendPending
  dsimp only
  rw [← hanswer]
  generalize p.sendTo engine p.pendingFrameDrop = sent at hsend ⊢
  rcases sent with ⟨accepted, q⟩
  dsimp only at hsend ⊢
  cases accepted with
  | true =>
    refine (outline_acceptPending view q).trans ?_
    rw [hsend]
    rfl
  | false =>
    refine (outline_retryPending view q).trans ?_
    rw [hsend]
    rfl

theorem feedPacket_of_sending [PacketFeed φ] [PacketRecorder ρ] (p : Pipeline ω ε φ ρ) {engine : ε}
    {q : Pipeline ω ε φ ρ} (hsending : p.sending = some (engine, q))
    : p.feedPacket = q.sendPending engine := by
  rcases sending_eq hsending with ⟨hengine, hready, hfill, rfl⟩
  unfold feedPacket
  rw [hengine, hready]
  generalize p.fillPending = filled at *
  rcases filled with ⟨waits, r⟩
  cases hfill
  rfl

theorem outline_sending [PacketFeed φ] (p : Pipeline ω ε φ ρ) {engine : ε} {q : Pipeline ω ε φ ρ}
    (hsending : p.sending = some (engine, q))
    : p.engine = some engine ∧ p.ready = none ∧ q.engine = some engine
        ∧ ∃ feed pending queued phase,
            q.outline view
              = { p.outline view with
                  feed, pending, segments := { bounds := p.segments.bounds, queued, phase } } := by
  rcases sending_eq hsending with ⟨hengine, hready, hfill, rfl⟩
  have hfilled : ∃ feed pending, p.fillPending.2 = { p with feed, pending } := by
    rcases p.fillPending_cases hfill with ⟨-, hq⟩ | ⟨-, packet, feed, -, hq⟩ | ⟨-, feed, -, hq⟩
    . exact ⟨p.feed, p.pending, hq⟩
    . exact ⟨feed, some packet, hq⟩
    . exact ⟨feed, p.pending, hq⟩
  rcases hfilled with ⟨feed, pending, hq⟩
  refine ⟨hengine, hready, ?_⟩
  rw [hq]
  rcases holdNewSegment_cases { p with feed, pending } with ⟨hhold, -⟩ | ⟨packet, -, -, hhold⟩
  . rw [hhold]
    exact ⟨hengine, feed, pending, p.segments.queued, p.segments.phase, rfl⟩
  . rw [hhold]
    exact ⟨hengine, feed, none, some packet, .queued, rfl⟩

theorem feedPacket_of_not_sending [PacketFeed φ] [PacketRecorder ρ] (p : Pipeline ω ε φ ρ)
    (hsending : p.sending = none)
    : p.feedPacket = p
        ∨ (p.pending = none ∧ p.segments.queued = none ∧ (PacketFeed.tryRead p.feed).1 = .empty
            ∧ p.feedPacket
                = { p with feed := (PacketFeed.tryRead p.feed).2, status := .waiting }) := by
  unfold sending at hsending
  unfold feedPacket
  cases hengine : p.engine with
  | none => exact .inl rfl
  | some engine =>
    cases hready : p.ready with
    | some frame => exact .inl rfl
    | none =>
      right
      rw [hengine, hready] at hsending
      by_cases hheld : p.held = []
      . rcases p.held_eq_nil.mp hheld with ⟨hpending, hqueued⟩
        rw [fillPending_of_idle p hpending hqueued] at hsending ⊢
        rcases hread : PacketFeed.tryRead p.feed with ⟨poll, feed⟩
        rw [hread] at hsending
        cases poll with
        | empty =>
          refine ⟨hpending, hqueued, rfl, ?_⟩
          simp [hengine, hready]
        | item packet => simp at hsending
        | ended => simp at hsending
      . rw [fillPending_of_held p hheld] at hsending
        simp at hsending

theorem outline_feedPacket [PacketFeed φ] [PacketRecorder ρ] (p : Pipeline ω ε φ ρ)
    : ∃ feed engines pending queued phase,
        p.feedPacket.outline view
          = { p.outline view with
              feed, engines, pending
              segments := { bounds := p.segments.bounds, queued, phase } } := by
  cases hsending : p.sending with
  | none =>
    rcases p.feedPacket_of_not_sending hsending with hfeed | ⟨-, -, -, hfeed⟩
    . rw [hfeed]
      exact ⟨_, _, _, _, _, rfl⟩
    . rw [hfeed]
      exact ⟨_, _, _, _, _, rfl⟩
  | some sent =>
    obtain ⟨engine, q⟩ := sent
    obtain ⟨hengine, -, -, feed, pending, queued, phase, hq⟩ := outline_sending view p hsending
    let reply := q.sendReply engine q.pendingFrameDrop
    refine ⟨feed, view.see (some reply.engine) reply.shared,
      if reply.answer then none else q.pending, queued, phase, ?_⟩
    rw [feedPacket_of_sending p hsending, outline_sendPending, hq]
    simp [outline, hengine, reply]

theorem feedPacket_drivers [PacketFeed φ] [PacketRecorder ρ] (p : Pipeline ω ε φ ρ)
    : p.feedPacket.drivers = p.drivers := by
  obtain ⟨feed, engines, pending, queued, phase, houtline⟩ := outline_feedPacket (.nothing ω ε) p
  exact congrArg Outline.drivers houtline

theorem doWork_induct [PacketFeed φ] [PacketRecorder ρ] {motive : Pipeline ω ε φ ρ → Prop}
    (p : Pipeline ω ε φ ρ) (start : motive p)
    (ended : ∀ q, motive q → motive { q with status := .ended })
    (read : ∀ q, motive q → motive q.readFrame)
    (feed : ∀ q, motive q → motive q.feedPacket)
    : motive p.doWork := by
  have hread := read p start
  have hfeed := feed _ hread
  unfold doWork
  split
  . exact ended p start
  . dsimp only
    split
    . exact hread
    . split
      . exact hfeed
      . exact read _ hfeed

theorem perform_drivers [PacketFeed φ] [PacketRecorder ρ] (p : Pipeline ω ε φ ρ)
    (operation : Operation φ ρ)
    : (p.perform operation).drivers = p.drivers := by
  cases operation with
  | work =>
    apply doWork_induct (motive := fun q => q.drivers = p.drivers)
    . rfl
    . exact fun q hq => hq
    . exact fun q hq => q.readFrame_drivers.trans hq
    . exact fun q hq => q.feedPacket_drivers.trans hq
  | take => exact congrArg Outline.drivers (outline_getFrame (.nothing ω ε) p)
  | reset => exact congrArg Outline.drivers (outline_reset (.nothing ω ε) p)
  | openDecoder codec =>
    exact congrArg Outline.drivers (outline_openDecoder (.nothing ω ε) p codec)
  | setStart | setFramedrop | resetParams | attachRecorder | detachRecorder | refill | wait => rfl

end DecodePipeline.Pipeline
