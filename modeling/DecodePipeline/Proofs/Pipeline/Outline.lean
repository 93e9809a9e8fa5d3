import DecodePipeline.Proofs.Pipeline.Operation
import DecodePipeline.Proofs.Pipeline.Trying

/-!
This module contains the outline of a pipeline, which is where its packets and frames are, and what the
operations on the pipeline do to it. Whoever wants to know something about packets, frames or segments
works with the outline and does not open the operations.
-/

namespace DecodePipeline

structure Engine.View (ω ε α : Type) [Engine ω ε] where
  see : Option ε → ω → α
  receive : ∀ (engine : ε) (shared : ω),
    see (some (Engine.receive engine shared).engine) (Engine.receive engine shared).shared
      = see (some engine) shared
  control : ∀ (engine : ε) (shared : ω) (command : EngineCommand),
    see (some (Engine.control engine shared command).engine)
        (Engine.control engine shared command).shared
      = see (some engine) shared

def Engine.View.nothing (ω ε : Type) [Engine ω ε] : Engine.View ω ε Unit where
  see _ _ := ()
  receive _ _ := rfl
  control _ _ _ := rfl

structure Outline (ω ε φ α : Type) where
  codec : SharedCodec
  drivers : List (Driver ω ε)
  options : DecoderOptions
  feed : φ
  attached : Bool
  engines : α
  ready : Option Frame
  pending : Option Packet
  segments : SegmentTracker
  startCut : Option Timestamp

namespace Pipeline

variable {ω ε φ ρ α : Type} [Engine ω ε]

def outline (p : Pipeline ω ε φ ρ) (view : Engine.View ω ε α) : Outline ω ε φ α where
  codec := p.codec
  drivers := p.drivers
  options := p.options
  feed := p.feed
  attached := p.engine.isSome
  engines := view.see p.engine p.shared
  ready := p.ready
  pending := p.pending
  segments := p.segments
  startCut := p.startCut

variable (view : Engine.View ω ε α)

@[simp]
theorem outline_say (p : Pipeline ω ε φ ρ) (notice : Notice)
    : (p.say notice).outline view = p.outline view := rfl

@[simp]
theorem outline_settleTime (p : Pipeline ω ε φ ρ) (frame : Frame)
    : (p.settleTime frame).2.outline view = p.outline view := by
  unfold settleTime
  simp only [outline, sayAll]

@[simp]
theorem outline_settleParams (p : Pipeline ω ε φ ρ) (frame : Frame)
    : (p.settleParams frame).2.outline view = p.outline view := by
  unfold settleParams
  simp only [outline, sayAll]

@[simp]
theorem outline_command (p : Pipeline ω ε φ ρ) (request : EngineCommand)
    : (p.command request).2.outline view = p.outline view := by
  unfold command
  split
  . rfl
  . next engine hengine => simp [outline, afterReply, hengine, view.control]

theorem compensate_cases (p : Pipeline ω ε φ ρ) (pts : Timestamp)
    : (p.compensate pts).2 = p ∨ (p.compensate pts).2 = (p.command .getFrameDelay).2 := by
  unfold compensate
  split
  . exact .inl rfl
  . right
    rcases p.command .getFrameDelay with ⟨answer, q⟩
    rcases answer with _ | response
    . rfl
    . cases response <;> rfl

theorem command_eq (p : Pipeline ω ε φ ρ) (request : EngineCommand)
    : ∃ engine shared, (p.command request).2 = { p with engine, shared } := by
  unfold command
  split
  . exact ⟨p.engine, p.shared, rfl⟩
  . exact ⟨_, _, rfl⟩

theorem compensate_eq (p : Pipeline ω ε φ ρ) (pts : Timestamp)
    : ∃ engine shared, (p.compensate pts).2 = { p with engine, shared } := by
  rcases p.compensate_cases pts with hkept | hasked
  . rw [hkept]
    exact ⟨p.engine, p.shared, rfl⟩
  . rw [hasked]
    exact p.command_eq .getFrameDelay

omit [Engine ω ε] in
theorem settleTime_eq (p : Pipeline ω ε φ ρ) (frame : Frame)
    : ∃ timeline synthesized journal,
        (p.settleTime frame).2
          = { p with timeline, health := p.health.recordDecoded synthesized, journal } := by
  unfold settleTime
  dsimp only
  generalize p.timeline.reconcile .. = reconciled
  exact ⟨_, _, _, rfl⟩

omit [Engine ω ε] in
theorem settleParams_eq (p : Pipeline ω ε φ ρ) (frame : Frame)
    : ∃ journal,
        (p.settleParams frame).2
          = { p with
              params := (p.params.apply frame.params p.codec.params p.options).2, journal } := by
  unfold settleParams
  dsimp only
  generalize p.params.apply .. = applied
  exact ⟨_, rfl⟩

theorem finishFrame_eq (p : Pipeline ω ε φ ρ) (frame : Frame)
    : ∃ engine shared timeline synthesized journal,
        (p.finishFrame frame).2.2
          = { p with
              engine, shared, timeline, journal
              health := p.health.recordDecoded synthesized
              params := (p.params.apply frame.params p.codec.params p.options).2 } := by
  rcases p.settleTime_eq frame with ⟨timeline, synthesized, _, htime⟩
  rcases (p.settleTime frame).2.settleParams_eq frame with ⟨journal, hparams⟩
  rcases ((p.settleTime frame).2.settleParams frame).2.compensate_eq (p.settleTime frame).1
    with ⟨engine, shared, hcompensated⟩
  unfold finishFrame
  dsimp only
  rw [hcompensated, hparams, htime]
  exact ⟨engine, shared, timeline, synthesized, journal, rfl⟩

@[simp]
theorem outline_compensate (p : Pipeline ω ε φ ρ) (pts : Timestamp)
    : (p.compensate pts).2.outline view = p.outline view := by
  rcases p.compensate_cases pts with hkept | hasked
  . rw [hkept]
  . rw [hasked, outline_command]

@[simp]
theorem outline_finishFrame (p : Pipeline ω ε φ ρ) (frame : Frame)
    : (p.finishFrame frame).2.2.outline view = p.outline view := by
  unfold finishFrame
  simp

@[simp]
theorem outline_noteMissing (p : Pipeline ω ε φ ρ)
    : p.noteMissing.outline view = p.outline view := by
  unfold noteMissing
  split <;> rfl

@[simp]
theorem outline_resetSegment (p : Pipeline ω ε φ ρ)
    : p.resetSegment.outline view
        = { p.outline view with ready := none, pending := none, startCut := none } := by
  have hcommand := outline_command view p .reset
  simp only [outline, Outline.mk.injEq] at hcommand
  simp only [outline, resetSegment, Outline.mk.injEq]
  simp [hcommand]

theorem outline_reset (p : Pipeline ω ε φ ρ)
    : p.reset.outline view
        = { p.outline view with ready := none, pending := none, segments := {}, startCut := none }
      := by
  have hreset := outline_resetSegment view (p.say .reset)
  rw [outline_say] at hreset
  unfold reset
  generalize (p.say .reset).resetSegment = q at *
  simp only [outline, Outline.mk.injEq] at hreset
  simp [outline, hreset]

theorem outline_getFrame (p : Pipeline ω ε φ ρ)
    : p.getFrame.2.2.outline view = { p.outline view with ready := none } := by
  unfold getFrame
  split
  . rfl
  . next hready => simp [outline, hready]

@[simp]
theorem releaseEngine_engine (p : Pipeline ω ε φ ρ) : p.releaseEngine.engine = none := by
  unfold releaseEngine
  split
  . assumption
  . rfl

@[simp]
theorem outline_releaseEngine (p : Pipeline ω ε φ ρ)
    : p.releaseEngine.outline view
        = { p.outline view with
            attached := false
            engines := view.see none p.releaseEngine.shared } := by
  unfold releaseEngine
  split
  . next hengine => simp [outline, hengine]
  . simp [outline, say]

theorem outline_prepareCodec (p : Pipeline ω ε φ ρ) (codec : SharedCodec)
    : (p.prepareCodec codec).outline view
        = { p.outline view with
            codec
            attached := false
            engines := view.see none p.releaseEngine.shared
            ready := none
            pending := none
            segments := if p.segments.phase == .switching then p.segments else {}
            startCut := none } := by
  have hrelease := outline_releaseEngine view p
  simp only [outline, Outline.mk.injEq] at hrelease
  simp [outline, prepareCodec, resetSegment, command, hrelease]

theorem outline_tryDecoders (p : Pipeline ω ε φ ρ) (entries : List DecoderEntry)
    (hengine : p.engine = none)
    : (p.tryDecoders entries).2.outline view
        = { p.outline view with
            attached := (p.tryDecoders entries).1.isNone
            engines := view.see (p.tryDecoders entries).2.engine (p.tryDecoders entries).2.shared }
      := by
  have htried := p.tryDecoders_tried entries
  generalize p.tryDecoders entries = result at htried ⊢
  cases htried with
  | opened => rfl
  | failed => simp [outline, hengine]

theorem outline_openDecoder (p : Pipeline ω ε φ ρ) (codec : SharedCodec)
    : (p.openDecoder codec).2.outline view
        = { p.outline view with
            codec
            attached := (p.openDecoder codec).1.isOk
            engines := view.see (p.openDecoder codec).2.engine (p.openDecoder codec).2.shared
            ready := none
            pending := none
            segments := if p.segments.phase == .switching then p.segments else {}
            startCut := none } := by
  have hprepare := outline_prepareCodec view p codec
  unfold openDecoder
  dsimp only
  generalize hq : (p.prepareCodec codec).sayAll _ = q
  have hq' : q.outline view = (p.prepareCodec codec).outline view := by
    rw [← hq]
    rfl
  rw [hprepare] at hq'
  have hengine : q.engine = none := by
    have hattached := congrArg Outline.attached hq'
    simpa [outline] using hattached
  have htry := outline_tryDecoders view q q.candidates hengine
  rw [hq'] at htry
  rcases hresult : q.tryDecoders q.candidates with ⟨tried, r⟩
  rw [hresult] at htry
  cases tried with
  | none => exact htry
  | some tried => exact htry

def switching (p : Pipeline ω ε φ ρ) (packet : Packet) : Pipeline ω ε φ ρ :=
  ({ p with segments := { p.segments with queued := none, phase := .switching } }).say
    (.switching packet.bounds (SegmentTracker.switchKind packet p.codec matches .reinit _))

@[simp]
theorem outline_switching (p : Pipeline ω ε φ ρ) (packet : Packet)
    : (p.switching packet).outline view
        = { p.outline view with
            segments := { p.segments with queued := none, phase := .switching } } := rfl

def entered (p : Pipeline ω ε φ ρ) (packet : Packet) (reinit : Bool) : Pipeline ω ε φ ρ :=
  { p with
    health := p.health.recordSegmentSwitch reinit
    segments := p.segments.completeSwitch packet.bounds
    pending := some packet
    status := .again }

theorem switchSegment_of_queued_none (p : Pipeline ω ε φ ρ) (hqueued : p.segments.queued = none)
    : p.switchSegment = p := by
  unfold switchSegment SegmentTracker.beginSwitch
  rw [hqueued]

theorem switchSegment_of_continue (p : Pipeline ω ε φ ρ) {packet : Packet}
    (hqueued : p.segments.queued = some packet)
    (hkind : SegmentTracker.switchKind packet p.codec = .continue)
    : p.switchSegment = ((p.switching packet).resetSegment).entered packet false := by
  unfold switchSegment SegmentTracker.beginSwitch switching
  rw [hqueued]
  simp only [hkind, enterSegment]
  rfl

theorem switchSegment_of_reinit (p : Pipeline ω ε φ ρ) {packet : Packet} {codec : SharedCodec}
    (hqueued : p.segments.queued = some packet)
    (hkind : SegmentTracker.switchKind packet p.codec = .reinit codec)
    : p.switchSegment
        = match (p.switching packet).openDecoder codec with
          | (.error reason, q) => { q.say (.switchFailed reason.message) with status := .ended }
          | (.ok (), q) => q.entered packet true := by
  unfold switchSegment SegmentTracker.beginSwitch switching
  rw [hqueued]
  simp only [hkind, enterSegment]
  rfl

theorem outline_switchSegment_continue (p : Pipeline ω ε φ ρ) {packet : Packet}
    (hqueued : p.segments.queued = some packet)
    (hkind : SegmentTracker.switchKind packet p.codec = .continue)
    : p.switchSegment.outline view
        = { p.outline view with
            ready := none
            pending := some packet
            segments := { bounds := packet.bounds }
            startCut := none } := by
  have hreset := outline_resetSegment view (p.switching packet)
  rw [outline_switching] at hreset
  rw [switchSegment_of_continue p hqueued hkind]
  generalize (p.switching packet).resetSegment = q at *
  simp only [outline, Outline.mk.injEq] at hreset
  simp [outline, entered, SegmentTracker.completeSwitch, hreset]

theorem outline_switchSegment_reinit (p : Pipeline ω ε φ ρ) {packet : Packet} {codec : SharedCodec}
    (hqueued : p.segments.queued = some packet)
    (hkind : SegmentTracker.switchKind packet p.codec = .reinit codec)
    : p.switchSegment.outline view
        = { p.outline view with
            codec
            attached := ((p.switching packet).openDecoder codec).1.isOk
            engines := (((p.switching packet).openDecoder codec).2.outline view).engines
            ready := none
            pending :=
              if ((p.switching packet).openDecoder codec).1.isOk then some packet else none
            segments :=
              if ((p.switching packet).openDecoder codec).1.isOk then { bounds := packet.bounds }
              else { bounds := p.segments.bounds, phase := .switching }
            startCut := none } := by
  have hopen := outline_openDecoder view (p.switching packet) codec
  rw [outline_switching] at hopen
  rw [switchSegment_of_reinit p hqueued hkind]
  rcases hresult : (p.switching packet).openDecoder codec with ⟨result, q⟩
  rw [hresult] at hopen
  simp only [outline, Outline.mk.injEq] at hopen
  cases result with
  | ok =>
    simp [outline, entered, SegmentTracker.completeSwitch, hopen, Except.isOk, Except.toBool,
      switching, say]
  | error reason => simp [outline, hopen, Except.isOk, Except.toBool, switching, say]

theorem outline_switchSegment (p : Pipeline ω ε φ ρ) {packet : Packet}
    (hqueued : p.segments.queued = some packet) (hattached : p.switchSegment.engine.isSome)
    : ∃ codec engines,
        p.switchSegment.outline view
          = { p.outline view with
              codec, engines
              attached := true
              ready := none
              pending := some packet
              segments := { bounds := packet.bounds }
              startCut := none }
        ∧ ((p.engine.isSome ∧ codec = p.codec ∧ engines = (p.outline view).engines)
          ∨ (((p.switching packet).openDecoder codec).1 = .ok ()
            ∧ engines = (((p.switching packet).openDecoder codec).2.outline view).engines)) := by
  cases hkind : SegmentTracker.switchKind packet p.codec with
  | «continue» =>
    have houtline := outline_switchSegment_continue view p hqueued hkind
    have hsame : p.engine.isSome := (congrArg Outline.attached houtline).symm.trans hattached
    refine ⟨p.codec, (p.outline view).engines, houtline.trans ?_, .inl ⟨hsame, rfl, rfl⟩⟩
    simp [outline, hsame]
  | reinit codec =>
    have houtline := outline_switchSegment_reinit view p hqueued hkind
    have hok : ((p.switching packet).openDecoder codec).1.isOk :=
      (congrArg Outline.attached houtline).symm.trans hattached
    refine ⟨codec, _, ?_, .inr ⟨?_, rfl⟩⟩
    . rw [houtline, hok]
      rfl
    . generalize ((p.switching packet).openDecoder codec).1 = result at hok
      cases result with
      | ok => rfl
      | error reason => cases hok

theorem switchSegment_phase (p : Pipeline ω ε φ ρ) (hattached : p.engine.isSome)
    (hfailed : p.switchSegment.engine = none)
    : p.switchSegment.segments.phase = .switching := by
  cases hqueued : p.segments.queued with
  | none =>
    rw [switchSegment_of_queued_none p hqueued] at hfailed
    simp [hfailed] at hattached
  | some packet =>
    cases hkind : SegmentTracker.switchKind packet p.codec with
    | «continue» =>
      have houtline := outline_switchSegment_continue (.nothing ω ε) p hqueued hkind
      have hsame : p.switchSegment.engine.isSome = p.engine.isSome :=
        congrArg Outline.attached houtline
      simp [hfailed, hattached] at hsame
    | reinit codec =>
      have houtline := outline_switchSegment_reinit (.nothing ω ε) p hqueued hkind
      have hok : p.switchSegment.engine.isSome
          = ((p.switching packet).openDecoder codec).1.isOk := congrArg Outline.attached houtline
      rw [hfailed, Option.isSome_none] at hok
      refine (congrArg (·.segments.phase) houtline).trans ?_
      rw [← hok]
      rfl

theorem finishFrame_pts (p : Pipeline ω ε φ ρ) (frame : Frame)
    : (p.finishFrame frame).2.1.pts = some (p.finishFrame frame).1 := by
  unfold finishFrame
  simp only

theorem offer_cases (p : Pipeline ω ε φ ρ) (frame : Frame)
    : ∃ q : Pipeline ω ε φ ρ, q.outline view = p.outline view ∧
        (p.offer frame = q
          ∨ (∃ kept pts, kept.pts = some pts ∧ q.excludes pts = false
              ∧ p.offer frame = { q with ready := some kept, status := .ready })
          ∨ p.offer frame = q.switchSegment) := by
  have hfinish := outline_finishFrame view p frame
  have hpts := finishFrame_pts p frame
  unfold offer
  rcases hresult : p.finishFrame frame with ⟨pts, kept, q⟩
  rw [hresult] at hfinish hpts
  rw [← hfinish]
  dsimp only at hpts ⊢
  split
  . unfold endSegment
    split
    . split
      . exact ⟨_, by rfl, .inr (.inr rfl)⟩
      . exact ⟨_, by rfl, .inl rfl⟩
    . exact ⟨_, by rfl, .inl rfl⟩
  . next hexcludes =>
    refine ⟨{ q with maySkip := false }, rfl, .inr (.inl ⟨kept, pts, hpts, ?_, rfl⟩)⟩
    simpa using hexcludes

theorem readFrame_of_detached (p : Pipeline ω ε φ ρ) (hengine : p.engine = none)
    : p.readFrame = p := by
  unfold readFrame
  rw [hengine]

theorem readFrame_of_ready (p : Pipeline ω ε φ ρ) (hready : p.ready.isSome) : p.readFrame = p := by
  obtain ⟨frame, hframe⟩ := Option.isSome_iff_exists.mp hready
  unfold readFrame
  rw [hframe]
  split <;> simp_all

theorem readFrame_cases (p : Pipeline ω ε φ ρ)
    : ∃ q : Pipeline ω ε φ ρ, q.outline view = p.outline view ∧
        (p.readFrame = q
          ∨ (p.engine.isSome ∧ p.ready = none
              ∧ ∃ frame pts, frame.pts = some pts ∧ q.excludes pts = false
                ∧ p.readFrame = { q with ready := some frame, status := .ready })
          ∨ (p.engine.isSome ∧ p.ready = none ∧ p.readFrame = q.switchSegment)) := by
  cases hengine : p.engine with
  | none => exact ⟨p, rfl, .inl (readFrame_of_detached p hengine)⟩
  | some engine =>
    cases hready : p.ready with
    | some frame => exact ⟨p, rfl, .inl (readFrame_of_ready p (by simp [hready]))⟩
    | none =>
      unfold readFrame
      rw [hengine, hready]
      dsimp only
      generalize hreply : Engine.receive engine p.shared = reply
      have hreceived : (p.afterReply reply).outline view = p.outline view := by
        simp [outline, afterReply, hengine, ← hreply, view.receive]
      rw [← hreceived]
      generalize p.afterReply reply = q
      split
      . next frame hframe =>
        rcases offer_cases view q frame with ⟨r, houtline, hr | hr | hr⟩
        . exact ⟨r, houtline, .inl hr⟩
        . exact ⟨r, houtline, .inr (.inl ⟨rfl, rfl, hr⟩)⟩
        . exact ⟨r, houtline, .inr (.inr ⟨rfl, rfl, hr⟩)⟩
      . refine ⟨_, ?_, .inl rfl⟩
        exact outline_noteMissing view q
      . unfold endSegment
        split
        . refine ⟨_, ?_, .inr (.inr ⟨rfl, rfl, rfl⟩)⟩
          rfl
        . refine ⟨_, ?_, .inl rfl⟩
          rfl

theorem switchSegment_drivers (p : Pipeline ω ε φ ρ) : p.switchSegment.drivers = p.drivers := by
  cases hqueued : p.segments.queued with
  | none => rw [switchSegment_of_queued_none p hqueued]
  | some packet =>
    cases hkind : SegmentTracker.switchKind packet p.codec with
    | «continue» =>
      exact congrArg Outline.drivers
        (outline_switchSegment_continue (.nothing ω ε) p hqueued hkind)
    | reinit codec =>
      exact congrArg Outline.drivers (outline_switchSegment_reinit (.nothing ω ε) p hqueued hkind)

theorem readFrame_drivers (p : Pipeline ω ε φ ρ) : p.readFrame.drivers = p.drivers := by
  rcases readFrame_cases (.nothing ω ε) p with ⟨q, houtline, hcases⟩
  have hq : q.drivers = p.drivers := congrArg Outline.drivers houtline
  rcases hcases with hread | ⟨-, -, frame, pts, -, -, hread⟩ | ⟨-, -, hread⟩
  . rw [hread, hq]
  . rw [hread, ← hq]
  . rw [hread, switchSegment_drivers, hq]

end Pipeline
end DecodePipeline
