import DecodePipeline.Proofs.Pipeline.Opening
import DecodePipeline.Proofs.Pipeline.Proceeding
import DecodePipeline.Proofs.Pipeline.Reading

/-!
This module contains how long the start of a pipeline lasts. Nothing but a new segment takes it away, and
the pipeline gives notice of new segments. What happens after that does not depend on the start.
-/

namespace DecodePipeline

namespace Pipeline

variable {ω ε φ ρ : Type}

def HasSwitched (p : Pipeline ω ε φ ρ) : Prop :=
  ∃ bounds reinit, Notice.switching bounds reinit ∈ p.journal

structure KeepsStart (p q : Pipeline ω ε φ ρ) : Prop where
  startCut : q.startCut = p.startCut ∨ q.startCut = none ∧ q.HasSwitched
  journal : ∀ notice ∈ p.journal, notice ∈ q.journal

section Keeping

variable {p q r : Pipeline ω ε φ ρ}

theorem HasSwitched.of_journal (hswitched : p.HasSwitched)
    (hjournal : ∀ notice ∈ p.journal, notice ∈ q.journal)
    : q.HasSwitched := by
  rcases hswitched with ⟨bounds, reinit, hmem⟩
  exact ⟨bounds, reinit, hjournal _ hmem⟩

theorem KeepsStart.refl (p : Pipeline ω ε φ ρ) : p.KeepsStart p :=
  ⟨Or.inl rfl, fun _ hmem => hmem⟩

theorem KeepsStart.trans (hpq : p.KeepsStart q) (hqr : q.KeepsStart r) : p.KeepsStart r := by
  refine ⟨?_, fun notice hmem => hqr.journal notice (hpq.journal notice hmem)⟩
  rcases hqr.startCut with hsame | hlost
  . rw [hsame]
    rcases hpq.startCut with hsame' | ⟨hnone, hswitched⟩
    . exact Or.inl hsame'
    . exact Or.inr ⟨hnone, hswitched.of_journal hqr.journal⟩
  . exact Or.inr hlost

theorem getFrame_keepsStart (p : Pipeline ω ε φ ρ) : p.KeepsStart p.getFrame.2.2 := by
  unfold getFrame
  split
  . exact ⟨Or.inl rfl, fun _ hmem => hmem⟩
  . exact .refl p

theorem Proceeds.keepsStart [Engine ω ε] {α : Type} {trait : Engine.Trait ω ε α}
    (h : Proceeds trait p q)
    : p.KeepsStart q :=
  ⟨Or.inl h.startCut, h.journal⟩

end Keeping

section Unlabelled

variable {p : Pipeline ω ε PacketChannel ρ}

structure Unlabelled (p : Pipeline ω ε PacketChannel ρ) : Prop where
  queued : p.segments.queued = none
  pending : ∀ x, p.pending = some x → x.segment = none
  feed : ∀ x ∈ p.feed.packets.queue, x.segment = none

theorem Unlabelled.fillPending (hunlabelled : p.Unlabelled)
    : p.fillPending.2.Unlabelled ∧ p.fillPending.2.startCut = p.startCut := by
  have hread : ∀ x ∈ (PacketFeed.tryRead p.feed).2.packets.queue, x.segment = none :=
    fun x hmem => hunlabelled.feed x (PacketChannel.mem_of_mem_tryRead hmem)
  have hitem : ∀ x, (PacketFeed.tryRead p.feed).1 = .item x → x.segment = none := by
    intro x hx
    rcases PacketChannel.queue_of_item hx with ⟨queue, hqueue⟩
    exact hunlabelled.feed x (hqueue ▸ List.mem_cons_self)
  unfold Pipeline.fillPending readFeed
  split
  . exact ⟨hunlabelled, rfl⟩
  . rcases hpoll : PacketFeed.tryRead p.feed with ⟨poll, feed⟩
    rw [hpoll] at hread hitem
    cases poll with
    | item packet =>
      refine ⟨⟨hunlabelled.queued, ?_, hread⟩, rfl⟩
      rintro x ⟨⟩
      exact hitem packet rfl
    | empty => exact ⟨⟨hunlabelled.queued, hunlabelled.pending, hread⟩, rfl⟩
    | ended => exact ⟨⟨hunlabelled.queued, hunlabelled.pending, hread⟩, rfl⟩

theorem Unlabelled.holdNewSegment (hunlabelled : p.Unlabelled) : p.holdNewSegment = p := by
  cases hpending : p.pending with
  | none => exact holdNewSegment_of_pending_none p hpending
  | some packet =>
    apply holdNewSegment_of_same p hpending
    unfold startsSegment SegmentTracker.isNewSegment
    rw [hunlabelled.pending packet hpending]
    exact Bool.and_false _

end Unlabelled

variable [Engine ω ε]

section Journal

variable {p : Pipeline ω ε φ ρ} {notice : Notice}

theorem mem_journal_resetSegment (hmem : notice ∈ p.journal) : notice ∈ p.resetSegment.journal :=
  have hreset : Proceeds (.nothing ω ε) p (p.command .reset).2 := p.proceeds_command .reset
  hreset.journal notice hmem

theorem mem_journal_readied (hmem : notice ∈ p.journal) (codec : SharedCodec)
    : notice ∈ (p.readied codec).journal := by
  have hreleased : notice ∈ p.releaseEngine.journal := by
    unfold releaseEngine
    split
    . exact hmem
    . exact Array.mem_push_of_mem _ hmem
  apply Array.mem_append_left
  exact mem_journal_resetSegment (p := { p.releaseEngine with codec, decoder := none }) hreleased

theorem mem_journal_tryDecoders (hmem : notice ∈ p.journal) (entries : List DecoderEntry)
    : notice ∈ (p.tryDecoders entries).2.journal := by
  induction entries generalizing p with
  | nil => exact hmem
  | cons entry rest ih =>
    have hsaid (said : Notice) : notice ∈ p.journal.push said := Array.mem_push_of_mem said hmem
    cases hdriver : Driver.find? p.drivers entry.family with
    | none =>
      rw [tryDecoders_of_unknown p hdriver]
      exact ih hmem
    | some driver =>
      cases hanswer : (p.openReply driver entry).answer with
      | ok =>
        rw [tryDecoders_of_ok p hdriver hanswer]
        exact Array.mem_push_of_mem _ (hsaid _)
      | error reason =>
        rw [tryDecoders_of_error p hdriver hanswer]
        exact ih (Array.mem_push_of_mem _ (hsaid _))

theorem mem_journal_openDecoder (hmem : notice ∈ p.journal) (codec : SharedCodec)
    : notice ∈ (p.openDecoder codec).2.journal := by
  have htried := mem_journal_tryDecoders (mem_journal_readied hmem codec) (p.readied codec).candidates
  cases hresult : ((p.readied codec).tryDecoders (p.readied codec).candidates).1 with
  | none =>
    rw [openDecoder_of_none p codec hresult]
    exact htried
  | some tried =>
    rcases openDecoder_of_some p codec hresult with ⟨reason, hopen⟩
    rw [hopen]
    exact Array.mem_push_of_mem _ htried

theorem mem_journal_switchSegment {packet : Packet} (hqueued : p.segments.queued = some packet)
    (hmem : notice ∈ (p.switching packet).journal)
    : notice ∈ p.switchSegment.journal := by
  cases hkind : SegmentTracker.switchKind packet p.codec with
  | «continue» =>
    rw [switchSegment_of_continue p hqueued hkind]
    exact mem_journal_resetSegment hmem
  | reinit codec =>
    have hopened := mem_journal_openDecoder hmem codec
    rw [switchSegment_of_reinit p hqueued hkind]
    rcases hresult : (p.switching packet).openDecoder codec with ⟨result, q⟩
    rw [hresult] at hopened
    cases result with
    | ok => exact hopened
    | error reason => exact Array.mem_push_of_mem _ hopened

end Journal

section Steps

theorem switchSegment_keepsStart (p : Pipeline ω ε φ ρ) : p.KeepsStart p.switchSegment := by
  cases hqueued : p.segments.queued with
  | none =>
    rw [switchSegment_of_queued_none p hqueued]
    exact .refl p
  | some packet =>
    have hstart : p.switchSegment.startCut = none := by
      cases hkind : SegmentTracker.switchKind packet p.codec with
      | «continue» =>
        exact congrArg Outline.startCut
          (outline_switchSegment_continue (.nothing ω ε) p hqueued hkind)
      | reinit codec =>
        exact congrArg Outline.startCut (outline_switchSegment_reinit (.nothing ω ε) p hqueued hkind)
    have hswitching : (p.switching packet).HasSwitched := ⟨_, _, Array.mem_push_self⟩
    refine ⟨Or.inr ⟨hstart, hswitching.of_journal ?_⟩, ?_⟩
    . intro notice hmem
      exact mem_journal_switchSegment hqueued hmem
    . intro notice hmem
      exact mem_journal_switchSegment hqueued (Array.mem_push_of_mem _ hmem)

theorem readFrame_keepsStart (p : Pipeline ω ε φ ρ) : p.KeepsStart p.readFrame := by
  rcases readFrame_proceeds (.nothing ω ε) p with ⟨q, hproceeds, hread | hread⟩
  . rw [hread]
    exact hproceeds.keepsStart
  . rw [hread]
    exact hproceeds.keepsStart.trans q.switchSegment_keepsStart

theorem doWork_keepsStart [PacketFeed φ] [PacketRecorder ρ] (p : Pipeline ω ε φ ρ)
    : p.KeepsStart p.doWork := by
  apply doWork_induct
  . exact .refl p
  . intro q hq
    exact ⟨hq.startCut, hq.journal⟩
  . intro q hq
    exact hq.trans q.readFrame_keepsStart
  . intro q hq
    have hfed : Proceeds (.nothing ω ε) q q.feedPacket := q.proceeds_feedPacket
    exact hq.trans hfed.keepsStart

end Steps

section Unlabelled

variable {p : Pipeline ω ε PacketChannel ρ}

theorem Unlabelled.readFrame (hunlabelled : p.Unlabelled)
    : p.readFrame.Unlabelled ∧ p.readFrame.startCut = p.startCut := by
  rcases readFrame_cases (.nothing ω ε) p with ⟨q, houtline, hcases⟩
  simp only [outline, Outline.mk.injEq] at houtline
  rcases houtline with ⟨-, -, -, hfeed, -, -, -, hpending, hsegments, hstart⟩
  have hq : q.Unlabelled := by
    refine ⟨?_, ?_, ?_⟩
    . rw [hsegments]
      exact hunlabelled.queued
    . rw [hpending]
      exact hunlabelled.pending
    . rw [hfeed]
      exact hunlabelled.feed
  rcases hcases with hread | ⟨-, -, frame, pts, -, -, hread⟩ | ⟨-, -, hread⟩
  . rw [hread]
    exact ⟨hq, hstart⟩
  . rw [hread]
    exact ⟨⟨hq.queued, hq.pending, hq.feed⟩, hstart⟩
  . rw [hread, switchSegment_of_queued_none q hq.queued]
    exact ⟨hq, hstart⟩

theorem Unlabelled.feedPacket [PacketRecorder ρ] (hunlabelled : p.Unlabelled)
    : p.feedPacket.Unlabelled ∧ p.feedPacket.startCut = p.startCut := by
  rcases hunlabelled.fillPending with ⟨hfilled, hstart⟩
  unfold Pipeline.feedPacket
  split
  . rcases hfill : p.fillPending with ⟨waits, q⟩
    rw [hfill] at hfilled hstart
    cases waits with
    | true => exact ⟨⟨hfilled.queued, hfilled.pending, hfilled.feed⟩, hstart⟩
    | false =>
      dsimp only at hfilled hstart ⊢
      rw [hfilled.holdNewSegment]
      next engine _ _ =>
        have houtline := outline_sendPending (.nothing ω ε) q engine
        simp only [outline, Outline.mk.injEq] at houtline
        rcases houtline with ⟨-, -, -, hfeed, -, -, -, hpending, hsegments, hstart'⟩
        refine ⟨⟨?_, ?_, ?_⟩, hstart'.trans hstart⟩
        . rw [hsegments]
          exact hfilled.queued
        . intro x hx
          rw [hpending] at hx
          split at hx
          . cases hx
          . exact hfilled.pending x hx
        . rw [hfeed]
          exact hfilled.feed
  . exact ⟨hunlabelled, rfl⟩

theorem Unlabelled.doWork [PacketRecorder ρ] (hunlabelled : p.Unlabelled)
    : p.doWork.Unlabelled ∧ p.doWork.startCut = p.startCut := by
  apply doWork_induct (motive := fun q => q.Unlabelled ∧ q.startCut = p.startCut)
  . exact ⟨hunlabelled, rfl⟩
  . rintro q ⟨hq, hstart⟩
    exact ⟨⟨hq.queued, hq.pending, hq.feed⟩, hstart⟩
  . rintro q ⟨hq, hstart⟩
    exact ⟨hq.readFrame.1, hq.readFrame.2.trans hstart⟩
  . rintro q ⟨hq, hstart⟩
    exact ⟨hq.feedPacket.1, hq.feedPacket.2.trans hstart⟩

end Unlabelled

section Forgetting

variable (p : Pipeline ω ε φ ρ) (start : Option Timestamp)

theorem resetSegment_setStart : (p.setStart start).resetSegment = p.resetSegment := by
  unfold resetSegment command setStart
  dsimp only
  split <;> rfl

theorem releaseEngine_setStart : (p.setStart start).releaseEngine = p.releaseEngine.setStart start := by
  unfold releaseEngine setStart
  dsimp only
  split <;> rfl

theorem prepareCodec_setStart (codec : SharedCodec)
    : (p.setStart start).prepareCodec codec = p.prepareCodec codec := by
  have hreset : ({ p.releaseEngine.setStart start with codec, decoder := none }).resetSegment
      = ({ p.releaseEngine with codec, decoder := none }).resetSegment :=
    resetSegment_setStart { p.releaseEngine with codec, decoder := none } start
  unfold prepareCodec
  rw [releaseEngine_setStart, hreset]

theorem openDecoder_setStart (codec : SharedCodec)
    : (p.setStart start).openDecoder codec = p.openDecoder codec := by
  unfold openDecoder
  rw [prepareCodec_setStart]

theorem switchSegment_setStart {packet : Packet} (hqueued : p.segments.queued = some packet)
    : (p.setStart start).switchSegment = p.switchSegment := by
  have hswitching : (p.setStart start).switching packet = (p.switching packet).setStart start := rfl
  cases hkind : SegmentTracker.switchKind packet p.codec with
  | «continue» =>
    rw [switchSegment_of_continue p hqueued hkind,
      switchSegment_of_continue (p.setStart start) hqueued hkind, hswitching, resetSegment_setStart]
  | reinit codec =>
    rw [switchSegment_of_reinit p hqueued hkind,
      switchSegment_of_reinit (p.setStart start) hqueued hkind, hswitching, openDecoder_setStart]

theorem sendPending_setStart [PacketRecorder ρ] (hpending : p.pending = none) (engine : ε)
    : (p.setStart start).sendPending engine = (p.sendPending engine).setStart start := by
  have hdrop : (p.setStart start).pendingFrameDrop = p.pendingFrameDrop := by
    unfold pendingFrameDrop setStart
    rw [hpending]
    rfl
  have hsend : (p.setStart start).sendTo engine p.pendingFrameDrop
      = ((p.sendTo engine p.pendingFrameDrop).1,
          (p.sendTo engine p.pendingFrameDrop).2.setStart start) := rfl
  have hnone : (p.sendTo engine p.pendingFrameDrop).2.pending = none := hpending
  unfold sendPending
  rw [hdrop]
  dsimp only
  rw [hsend]
  rcases hresult : p.sendTo engine p.pendingFrameDrop with ⟨accepted, q⟩
  rw [hresult] at hnone
  have haccept (q : Pipeline ω ε φ ρ) (hnone : q.pending = none) : q.acceptPending = q := by
    unfold acceptPending
    rw [hnone]
  have hretry (q : Pipeline ω ε φ ρ) (hnone : q.pending = none) : q.retryPending = q := by
    unfold retryPending
    rw [hnone]
    rfl
  cases accepted with
  | true =>
    dsimp only at hnone ⊢
    rw [haccept q hnone, haccept (q.setStart start) hnone]
    rfl
  | false =>
    dsimp only at hnone ⊢
    rw [hretry q hnone, hretry (q.setStart start) hnone]
    rfl

end Forgetting

end Pipeline
end DecodePipeline
