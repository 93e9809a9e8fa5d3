import DecodePipeline.Proofs.Pipeline.Feeding

/-!
This module contains the fact that a pipeline never holds two packets, one to be sent next and another
one that is held back for the next segment.
-/

namespace DecodePipeline.Pipeline

variable {ω ε φ ρ : Type}

theorem holdNewSegment_held (p : Pipeline ω ε φ ρ) : p.holdNewSegment.held = p.held := by
  rcases p.holdNewSegment_cases with ⟨hhold, -⟩ | ⟨packet, hpending, hqueued, hhold⟩
  . rw [hhold]
  . rw [hhold]
    simp [held, hpending, hqueued, SegmentTracker.queue]

def Separate (p : Pipeline ω ε φ ρ) : Prop := p.pending = none ∨ p.segments.queued = none

variable {p q : Pipeline ω ε φ ρ}

theorem Separate.of_eq (hseparate : p.Separate) (hpending : q.pending = p.pending)
    (hsegments : q.segments = p.segments)
    : q.Separate := by
  unfold Separate
  rw [hpending, hsegments]
  exact hseparate

theorem Separate.held_length (hseparate : p.Separate) : p.held.length ≤ 1 := by
  unfold held
  rcases hseparate with hpending | hqueued
  . rw [hpending]
    cases p.segments.queued <;> simp
  . rw [hqueued]
    cases p.pending <;> simp

theorem Separate.fillPending [PacketFeed φ] (hseparate : p.Separate)
    (hfill : p.fillPending.1 = false)
    : p.fillPending.2.Separate := by
  rcases p.fillPending_cases hfill with
    ⟨-, hq⟩ | ⟨hheld, packet, feed, htry, hq⟩ | ⟨-, feed, htry, hq⟩
  . rw [hq]
    exact hseparate
  . rw [hq]
    exact .inr (p.held_eq_nil.mp hheld).2
  . rw [hq]
    exact hseparate

theorem Separate.holdNewSegment (hseparate : p.Separate) : p.holdNewSegment.Separate := by
  rcases p.holdNewSegment_cases with ⟨hhold, -⟩ | ⟨packet, -, -, hhold⟩
  . rw [hhold]
    exact hseparate
  . rw [hhold]
    exact .inl rfl

theorem Separate.sending [PacketFeed φ] (hseparate : p.Separate) {engine : ε}
    (hsending : p.sending = some (engine, q))
    : q.Separate := by
  rcases sending_eq hsending with ⟨-, -, hfill, rfl⟩
  exact (hseparate.fillPending hfill).holdNewSegment

variable [Engine ω ε]

theorem Separate.sendPending [PacketRecorder ρ] (hseparate : p.Separate) (engine : ε)
    : (p.sendPending engine).Separate := by
  have houtline := outline_sendPending (.nothing ω ε) p engine
  have hpending := congrArg Outline.pending houtline
  have hsegments : (p.sendPending engine).segments = p.segments :=
    congrArg Outline.segments houtline
  unfold Separate at hseparate ⊢
  rw [hsegments]
  rcases hseparate with hnone | hqueued
  . left
    refine hpending.trans ?_
    simp [hnone]
  . exact .inr hqueued

theorem Separate.feedPacket [PacketFeed φ] [PacketRecorder ρ] (hseparate : p.Separate)
    : p.feedPacket.Separate := by
  cases hsending : p.sending with
  | none =>
    rcases p.feedPacket_of_not_sending hsending with hfeed | ⟨-, -, -, hfeed⟩
    . rw [hfeed]
      exact hseparate
    . rw [hfeed]
      exact hseparate
  | some sent =>
    rw [feedPacket_of_sending p hsending]
    exact (hseparate.sending hsending).sendPending sent.1

theorem Separate.switchSegment (hseparate : p.Separate) : p.switchSegment.Separate := by
  cases hqueued : p.segments.queued with
  | none =>
    rw [switchSegment_of_queued_none p hqueued]
    exact hseparate
  | some packet =>
    right
    cases hkind : SegmentTracker.switchKind packet p.codec with
    | «continue» =>
      exact congrArg (·.segments.queued)
        (outline_switchSegment_continue (.nothing ω ε) p hqueued hkind)
    | reinit codec =>
      refine (congrArg (·.segments.queued)
        (outline_switchSegment_reinit (.nothing ω ε) p hqueued hkind)).trans ?_
      dsimp only
      split <;> rfl

theorem Separate.readFrame (hseparate : p.Separate) : p.readFrame.Separate := by
  rcases readFrame_cases (.nothing ω ε) p with ⟨q, houtline, hcases⟩
  have hq : q.Separate :=
    hseparate.of_eq (congrArg Outline.pending houtline) (congrArg Outline.segments houtline)
  rcases hcases with hread | ⟨-, -, frame, pts, -, -, hread⟩ | ⟨-, -, hread⟩
  . rw [hread]
    exact hq
  . rw [hread]
    exact hq
  . rw [hread]
    exact hq.switchSegment

theorem Separate.perform [PacketFeed φ] [PacketRecorder ρ] (hseparate : p.Separate)
    (operation : Operation φ ρ)
    : (p.perform operation).Separate := by
  cases operation with
  | work =>
    apply doWork_induct
    . exact hseparate
    . exact fun q hq => hq
    . exact fun q hq => hq.readFrame
    . exact fun q hq => hq.feedPacket
  | take =>
    have houtline := outline_getFrame (.nothing ω ε) p
    exact hseparate.of_eq (congrArg Outline.pending houtline) (congrArg Outline.segments houtline)
  | reset => exact .inl (congrArg Outline.pending (outline_reset (.nothing ω ε) p))
  | openDecoder codec =>
    exact .inl (congrArg Outline.pending (outline_openDecoder (.nothing ω ε) p codec))
  | setStart | setFramedrop | resetParams | attachRecorder | detachRecorder | refill | wait =>
    exact hseparate

end DecodePipeline.Pipeline
