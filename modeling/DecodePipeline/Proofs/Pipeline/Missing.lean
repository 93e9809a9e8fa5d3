import DecodePipeline.Proofs.Pipeline.Stepping
import DecodePipeline.Proofs.Timeline.Pacing

/-!
This module contains what a pipeline does not say: one that makes its times up misses none.
-/

namespace DecodePipeline

namespace Notice

def isMissing : Notice → Bool
  | missingPts _ | furtherMissingPts => true
  | _ => false

def SaidBy (ρ : Type) [PacketRecorder ρ] (notice : Notice) : Prop :=
  ∃ (recorder : ρ) (packet : Packet), notice ∈ (PacketRecorder.feed recorder packet).1

end Notice

namespace ImageParams

theorem isMissing_of_derivation {p : ImageParams} {codec : CodecParams} {options : DecoderOptions}
    {notice : Notice} (hnotice : notice ∈ p.derivationNotices codec options)
    : notice.isMissing = false := by
  unfold derivationNotices at hnotice
  simp only [List.mem_append, List.mem_ite_nil_left, List.mem_ite_nil_right, List.mem_singleton]
    at hnotice
  rcases hnotice with ((⟨-, rfl⟩ | ⟨-, rfl⟩) | ⟨-, rfl⟩) | ⟨-, rfl⟩ <;> rfl

end ImageParams

theorem ParamsCache.isMissing_of_notices {cache : ParamsCache} {incoming : ImageParams}
    {codec : CodecParams} {options : DecoderOptions} {notice : Notice}
    (hnotice : notice ∈ cache.notices incoming codec options)
    : notice.isMissing = false := by
  unfold notices at hnotice
  split at hnotice
  . simp at hnotice
  . rcases List.mem_cons.mp hnotice with rfl | hderived
    . rfl
    . exact ImageParams.isMissing_of_derivation hderived

namespace Pipeline

variable {ω ε φ ρ : Type} [PacketRecorder ρ]

def NoneMissing (p : Pipeline ω ε φ ρ) : Prop :=
  ∀ notice ∈ p.journal, notice.isMissing → notice.SaidBy ρ

variable {p q : Pipeline ω ε φ ρ}

theorem NoneMissing.of_journal (hp : p.NoneMissing) (hjournal : q.journal = p.journal)
    : q.NoneMissing := by
  unfold NoneMissing
  rw [hjournal]
  exact hp

theorem NoneMissing.sayAll (hp : p.NoneMissing) {notices : List Notice}
    (hnotices : ∀ notice ∈ notices, notice.isMissing → notice.SaidBy ρ)
    : (p.sayAll notices).NoneMissing := by
  intro notice hmem
  unfold Pipeline.sayAll at hmem
  rcases Array.mem_append.mp hmem with hmem | hmem
  . exact hp notice hmem
  . exact hnotices notice (by simpa using hmem)

theorem NoneMissing.say (hp : p.NoneMissing) (notice : Notice) (hother : notice.isMissing = false)
    : (p.say notice).NoneMissing := by
  intro said hmem
  unfold Pipeline.say at hmem
  rcases Array.mem_push.mp hmem with hmem | rfl
  . exact hp said hmem
  . simp [hother]

section Opening

variable [Engine ω ε]

theorem NoneMissing.releaseEngine (hp : p.NoneMissing) : p.releaseEngine.NoneMissing := by
  unfold Pipeline.releaseEngine
  split
  . exact hp
  . exact (hp.say .uninit rfl).of_journal rfl

theorem NoneMissing.resetSegment (hp : p.NoneMissing) : p.resetSegment.NoneMissing := by
  rcases p.command_eq .reset with ⟨engine, shared, hcommand⟩
  apply hp.of_journal
  unfold Pipeline.resetSegment
  rw [hcommand]

theorem NoneMissing.readied (hp : p.NoneMissing) (codec : SharedCodec)
    : (p.readied codec).NoneMissing := by
  have hcleared : ({ p.releaseEngine with codec, decoder := none } : Pipeline ω ε φ ρ).NoneMissing :=
    hp.releaseEngine.of_journal rfl
  have hreset := hcleared.resetSegment
  unfold Pipeline.readied prepareCodec
  apply NoneMissing.sayAll
  . exact hreset.of_journal rfl
  . intro notice hnotice
    rw [List.mem_cons, List.mem_map] at hnotice
    rcases hnotice with rfl | ⟨entry, -, rfl⟩
    . simp [Notice.isMissing]
    . simp [Notice.isMissing]

theorem NoneMissing.tryDecoders (hp : p.NoneMissing) (entries : List DecoderEntry)
    : (p.tryDecoders entries).2.NoneMissing := by
  induction entries generalizing p with
  | nil => exact hp
  | cons entry rest ih =>
    cases hdriver : Driver.find? p.drivers entry.family with
    | none =>
      rw [tryDecoders_of_unknown p hdriver]
      exact ih hp
    | some driver =>
      have hattempted : (p.attempted driver entry).NoneMissing :=
        (hp.say (.opening entry.decoder) rfl).of_journal rfl
      cases hanswer : (p.openReply driver entry).answer with
      | ok =>
        rw [tryDecoders_of_ok p hdriver hanswer]
        exact (hattempted.say (.selected entry.description) rfl).of_journal rfl
      | error reason =>
        rw [tryDecoders_of_error p hdriver hanswer]
        exact ih (hattempted.say (.initFailed entry.decoder reason) rfl)

theorem NoneMissing.openDecoder (hp : p.NoneMissing) (codec : SharedCodec)
    : (p.openDecoder codec).2.NoneMissing := by
  have htried := (hp.readied codec).tryDecoders (p.readied codec).candidates
  cases hresult : ((p.readied codec).tryDecoders (p.readied codec).candidates).1 with
  | none =>
    rw [openDecoder_of_none p codec hresult]
    exact htried
  | some tried =>
    rcases openDecoder_of_some p codec hresult with ⟨reason, hopen⟩
    rw [hopen]
    exact (htried.say (.noDecoder codec.params.codec) rfl).of_journal rfl

theorem NoneMissing.switchSegment (hp : p.NoneMissing) : p.switchSegment.NoneMissing := by
  cases hqueued : p.segments.queued with
  | none =>
    rw [switchSegment_of_queued_none p hqueued]
    exact hp
  | some packet =>
    have hswitching : (p.switching packet).NoneMissing := NoneMissing.say (hp.of_journal rfl) _ rfl
    cases hkind : SegmentTracker.switchKind packet p.codec with
    | «continue» =>
      rw [switchSegment_of_continue p hqueued hkind]
      exact hswitching.resetSegment.of_journal rfl
    | reinit codec =>
      have hopened := hswitching.openDecoder codec
      rw [switchSegment_of_reinit p hqueued hkind]
      rcases hresult : (p.switching packet).openDecoder codec with ⟨result, q⟩
      rw [hresult] at hopened
      cases result with
      | ok => exact hopened.of_journal rfl
      | error reason =>
        exact (hopened.say (.switchFailed reason.message) rfl).of_journal rfl

theorem NoneMissing.reset (hp : p.NoneMissing) : p.reset.NoneMissing :=
  (hp.say .reset rfl).resetSegment.of_journal rfl

end Opening

section Reading

variable [Engine ω ε]

theorem NoneMissing.finishFrame (hp : p.NoneMissing) (huncorrected : p.options.correctPts = false)
    (frame : Frame)
    : (p.finishFrame frame).2.2.NoneMissing := by
  have htime : (p.settleTime frame).2.NoneMissing := by
    apply hp.of_journal
    unfold settleTime Pipeline.sayAll
    rw [huncorrected]
    simp [Reconciler.notices_uncorrected]
  have hparams : ((p.settleTime frame).2.settleParams frame).2.NoneMissing := by
    apply NoneMissing.of_journal (htime.sayAll _) rfl
    intro notice hnotice hmissing
    rw [ParamsCache.isMissing_of_notices hnotice] at hmissing
    cases hmissing
  rcases ((p.settleTime frame).2.settleParams frame).2.compensate_eq (p.settleTime frame).1
    with ⟨engine, shared, hcompensated⟩
  apply hparams.of_journal
  unfold Pipeline.finishFrame
  dsimp only
  rw [hcompensated]

end Reading

section Feeding

theorem NoneMissing.acceptPending (hp : p.NoneMissing) : p.acceptPending.NoneMissing := by
  unfold Pipeline.acceptPending record
  split
  . exact hp
  . next packet _ =>
    dsimp only
    split
    . exact hp.of_journal rfl
    . next recorder _ =>
      apply NoneMissing.of_journal (p := p.sayAll (PacketRecorder.feed recorder packet).1) _ rfl
      apply hp.sayAll
      intro notice hnotice _
      exact ⟨recorder, packet, hnotice⟩

theorem NoneMissing.holdNewSegment (hp : p.NoneMissing) : p.holdNewSegment.NoneMissing := by
  rcases p.holdNewSegment_cases with ⟨hhold, -⟩ | ⟨packet, -, -, hhold⟩
  . rw [hhold]
    exact hp
  . rw [hhold]
    exact (hp.say (.newSegment packet.anyTime) rfl).of_journal rfl

theorem NoneMissing.sending [PacketFeed φ] (hp : p.NoneMissing) {engine : ε}
    (hsending : p.sending = some (engine, q))
    : q.NoneMissing := by
  rcases sending_eq hsending with ⟨-, -, hfill, rfl⟩
  apply NoneMissing.holdNewSegment
  rcases p.fillPending_cases hfill with ⟨-, hq⟩ | ⟨-, packet, feed, -, hq⟩ | ⟨-, feed, -, hq⟩
  all_goals
    rw [hq]
    exact hp.of_journal rfl

variable [Engine ω ε]

theorem NoneMissing.sendPending (hp : p.NoneMissing) (engine : ε)
    : (p.sendPending engine).NoneMissing := by
  have hsent : (p.sendTo engine p.pendingFrameDrop).2.NoneMissing := hp.of_journal rfl
  unfold Pipeline.sendPending
  dsimp only
  rcases hresult : p.sendTo engine p.pendingFrameDrop with ⟨accepted, q⟩
  rw [hresult] at hsent
  change q.NoneMissing at hsent
  cases accepted with
  | true => exact hsent.acceptPending.of_journal rfl
  | false =>
    apply hsent.of_journal
    unfold retryPending
    dsimp only
    split <;> rfl

end Feeding

end Pipeline

end DecodePipeline
