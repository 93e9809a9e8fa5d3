import DecodePipeline.Proofs.Pipeline.Lockstep
import DecodePipeline.Proofs.Pipeline.Reading

/-!
This module contains what a refused packet leaves behind: it is noted and counted, and the next step
sends it as if it came to be sent for the first time.
-/

namespace DecodePipeline

theorem Reconciler.notePacket_notePacket (r : Reconciler) (pts dts : Option Timestamp)
    : (r.notePacket pts dts).notePacket pts dts = r.notePacket pts dts := by
  unfold notePacket
  dsimp only
  congr 1
  . split <;> rfl
  . cases r.firstPacket <;> cases pts <;> cases dts <;> rfl

theorem frameDropFor_notePacket (r : Reconciler) (pts dts start : Option Timestamp) (framedrop : Bool)
    : frameDropFor pts start framedrop (r.notePacket pts dts).trust.isTrusted
        = frameDropFor pts start framedrop r.trust.isTrusted := by
  cases pts with
  | none => rfl
  | some time => rfl

namespace Pipeline

variable {ω ε φ ρ : Type}

theorem startsSegment_of_held (p : Pipeline ω ε φ ρ) {packet : Packet}
    (hpending : p.holdNewSegment.pending = some packet)
    : p.holdNewSegment.startsSegment packet = false := by
  rcases p.holdNewSegment_cases with ⟨hhold, hstarts⟩ | ⟨other, -, -, hhold⟩
  . rw [hhold] at hpending ⊢
    exact hstarts packet hpending
  . rw [hhold] at hpending
    cases hpending

def noting (p : Pipeline ω ε φ ρ) (packet : Packet) : Pipeline ω ε φ ρ :=
  { p with timeline := p.timeline.notePacket packet.pts packet.dts }

theorem sending_of_pending [PacketFeed φ] {p : Pipeline ω ε φ ρ} {engine : ε} {packet : Packet}
    (hengine : p.engine = some engine) (hready : p.ready = none) (hpending : p.pending = some packet)
    (hstarts : p.startsSegment packet = false)
    : p.sending = some (engine, p) := by
  have hheld : p.held ≠ [] := by simp [held, hpending]
  unfold sending
  rw [hengine, hready]
  dsimp only
  rw [fillPending_of_held p hheld, holdNewSegment_of_same p hpending hstarts]
  rfl

variable [Engine ω ε] {p q : Pipeline ω ε φ ρ} {engine : ε} {packet : Packet}

theorem attached_of_readFrame (hengine : p.readFrame.engine.isSome) : p.engine.isSome := by
  rw [Option.isSome_iff_ne_none]
  intro hdetached
  rw [readFrame_of_detached p hdetached, hdetached] at hengine
  cases hengine

theorem readFrame_of_pending {shared : ω} (hengine : p.engine = some engine) (hready : p.ready = none)
    (hmaySkip : p.maySkip = false)
    (hpending : Engine.receive engine p.shared = ⟨.pending, engine, shared⟩)
    : p.readFrame = { p with shared, status := .again } := by
  cases p
  dsimp only at hengine hready hmaySkip hpending
  subst hengine hready hmaySkip
  unfold readFrame
  dsimp only
  rw [hpending]
  rfl

variable [PacketRecorder ρ]

theorem sendPending_of_refused {after : ε} {shared : ω} (hpending : p.pending = some packet)
    (hrefused : Engine.sendTold engine p.shared p.pendingFrameDrop (some (p.forEngine packet))
      = ⟨false, after, shared⟩)
    : p.sendPending engine
        = { p.noting packet with
            engine := some after, shared, health := p.health.recordSendRetry, status := .again } := by
  have hsent : p.sendTo engine p.pendingFrameDrop
      = (false, { p.noting packet with engine := some after, shared }) := by
    unfold Engine.sendTold at hrefused
    unfold sendTo noting
    dsimp only at hrefused ⊢
    rw [hpending, Option.map_some, hrefused]
    rfl
  unfold sendPending
  dsimp only
  rw [hsent]
  dsimp only
  unfold retryPending
  rw [if_pos (by simp [noting, hpending])]
  rfl

theorem noting_sendPending (hpending : p.pending = some packet)
    : (p.noting packet).sendPending engine = p.sendPending engine := by
  have hdirective : (p.noting packet).pendingFrameDrop = p.pendingFrameDrop := by
    unfold pendingFrameDrop noting
    dsimp only
    rw [hpending]
    exact frameDropFor_notePacket ..
  have hsent (directive : FrameDrop)
      : (p.noting packet).sendTo engine directive = p.sendTo engine directive := by
    unfold sendTo noting
    dsimp only
    rw [hpending]
    dsimp only
    rw [Reconciler.notePacket_notePacket]
    rfl
  unfold sendPending
  rw [hdirective]
  dsimp only
  rw [hsent]

variable [PacketFeed φ]

theorem doWork_of_sending (hsending : p.readFrame.sending = some (engine, q))
    : p.doWork = (q.sendPending engine).readFrame := by
  have hstatus := q.sendPending_status engine
  rcases sending_eq hsending with ⟨hengine, hready, -⟩
  have hattached := attached_of_readFrame (Option.isSome_of_eq_some hengine)
  rw [doWork_of_idle p hattached hready, feedPacket_of_sending _ hsending, hstatus]
  rfl

end Pipeline
end DecodePipeline
