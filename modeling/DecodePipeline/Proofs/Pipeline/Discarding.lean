import DecodePipeline.Proofs.Float.Times
import DecodePipeline.Proofs.Pipeline.Stepping

/-!
This module contains the agreement between the two cuts at a start: a packet that the engine may skip
entirely would have given a frame that is discarded.
-/

namespace DecodePipeline

theorem cut_of_lt_effectiveStart {cut start : Option Timestamp} {s t : Timestamp}
    (hstart : effectiveStart cut start = some s) (hlt : t < s)
    : cut.any (t < ·) ∨ start.any (t < ·) := by
  unfold effectiveStart at hstart
  split at hstart
  . split at hstart <;> cases hstart <;> simp [hlt]
  . simp [hstart, hlt]
  . simp [hstart, hlt]

namespace Pipeline

variable {ω ε φ ρ : Type} [Engine ω ε] {p : Pipeline ω ε φ ρ}

theorem offer_of_excludes {frame : Frame} (hready : p.ready = none)
    (hout : p.excludes (p.finishFrame frame).1)
    : (p.offer frame).ready = none
        ∧ (p.offer frame).health.framesDiscarded = p.health.framesDiscarded + 1 := by
  rcases p.finishFrame_eq frame with ⟨engine, shared, timeline, synthesized, journal, hfinish⟩
  unfold offer
  rcases hresult : p.finishFrame frame with ⟨pts, settled, q⟩
  rw [hresult] at hfinish hout
  dsimp only at hfinish hout ⊢
  have hexcludes : ({ q with maySkip := false } : Pipeline ω ε φ ρ).excludes pts := by
    rw [hfinish]
    exact hout
  have hidle : q.ready = none := by
    rw [hfinish]
    exact hready
  have hcounted : q.health.recordDiscarded.framesDiscarded = p.health.framesDiscarded + 1 := by
    rw [hfinish]
    rfl
  rw [if_pos hexcludes, endSegment_eq]
  split
  . refine ⟨switchSegment_ready _ hidle, ?_⟩
    exact (switchSegment_counted _ Health.framesDiscarded fun _ _ => rfl).trans hcounted
  . exact ⟨hidle, hcounted⟩

theorem readFrame_of_excludes {engine : ε} {frame : Frame} (hengine : p.engine = some engine)
    (hready : p.ready = none) (hreceive : (Engine.receive engine p.shared).answer = .frame frame)
    (hout : p.excludes ((p.afterReply (Engine.receive engine p.shared)).finishFrame frame).1)
    : p.readFrame.ready = none
        ∧ p.readFrame.health.framesDiscarded = p.health.framesDiscarded + 1 := by
  have hread : p.readFrame = (p.afterReply (Engine.receive engine p.shared)).offer frame := by
    unfold readFrame
    rw [hengine, hready]
    dsimp only
    rw [hreceive]
  rw [hread]
  exact offer_of_excludes (p := p.afterReply (Engine.receive engine p.shared)) hready hout

/--
A packet is told to be skipped entirely only if its time lies before one of the two starts, and then
every pipeline with these starts discards a frame of that time.
-/
theorem discards_what_frameDropFor_hard (startCut : Option Timestamp) (bounds : SegmentBounds)
    (pts : Option Timestamp) (framedrop trusted : Bool)
    (hhard : frameDropFor pts (effectiveStart startCut bounds.start) framedrop trusted = .hard)
    : ∃ t, pts = some t
        ∧ (startCut.any (t < ·) ∨ bounds.isBeforeStart t)
        ∧ ∀ (p : Pipeline ω ε φ ρ) (engine : ε) (frame : Frame),
          p.startCut = startCut → p.segments.bounds = bounds
            → p.engine = some engine → p.ready = none
            → (Engine.receive engine p.shared).answer = .frame frame
            → ((p.afterReply (Engine.receive engine p.shared)).finishFrame frame).1 = t
            → p.readFrame.ready = none
              ∧ p.readFrame.health.framesDiscarded = p.health.framesDiscarded + 1 := by
  rcases lt_of_frameDropFor_hard hhard with ⟨t, s, hpts, hstart, hlt⟩
  have hcut : startCut.any (t < ·) ∨ bounds.isBeforeStart t := cut_of_lt_effectiveStart hstart hlt
  refine ⟨t, hpts, hcut, ?_⟩
  intro p engine frame hstartCut hbounds hengine hready hreceive htime
  apply readFrame_of_excludes hengine hready hreceive
  rw [htime]
  unfold excludes
  rw [hstartCut, hbounds]
  rcases hcut with hcut | hcut
  . simp [hcut]
  . simp [hcut]

theorem sample_discards_what_frameDropFor_hard
    : let p := (sampleStart.after [.openDecoder sampleCodec, .work]).feedPacket.setStart (some ⟨10⟩)
      frameDropFor samplePacket.pts (effectiveStart p.startCut p.segments.bounds.start) false true
          = .hard
        ∧ p.readFrame.ready = none
        ∧ p.readFrame.health.framesDiscarded = p.health.framesDiscarded + 1 := by
  intro p
  have hhard : frameDropFor samplePacket.pts (effectiveStart p.startCut p.segments.bounds.start)
      false true = .hard := by decide +kernel
  let engine := p.engine.getD {}
  let picture : Frame :=
    { payload := samplePacket.payload
      pts := samplePacket.pts
      dts := samplePacket.pts
      params := .ofSize sampleCodec.params.width sampleCodec.params.height }
  have hidle : p.ready = none := by decide +kernel
  have hengine : p.engine = some engine := by decide +kernel
  have hanswer : (Engine.receive engine p.shared).answer = .frame picture := by decide +kernel
  have htime : samplePacket.pts
      = some ((p.afterReply (Engine.receive engine p.shared)).finishFrame picture).1 := by
    decide +kernel
  rcases discards_what_frameDropFor_hard (ω := Unit) (ε := RawVideoEngine) (φ := PacketChannel)
    (ρ := Collection) p.startCut p.segments.bounds samplePacket.pts false true hhard
    with ⟨t, ht, -, hdiscards⟩
  rw [ht] at htime
  exact ⟨hhard,
    hdiscards p engine picture rfl rfl hengine hidle hanswer (Option.some.inj htime).symm⟩

end Pipeline
end DecodePipeline
