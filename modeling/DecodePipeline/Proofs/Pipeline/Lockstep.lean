import Mathlib.Data.Option.Basic
import DecodePipeline.Proofs.Health.Counting
import DecodePipeline.Proofs.Pipeline.Feeding
import DecodePipeline.Proofs.Pipeline.Opening

/-!
This module contains what two pipelines may differ in without doing anything differently: the recorders
and the journals, and whatever in their engines and counters no pipeline can see. Pipelines that differ in
nothing else stay so.
-/

namespace DecodePipeline

structure Difference (ω ε : Type) where
  -- the engine, if one is attached, and the state that engines share, on either side
  engines : Option ε → ω → Option ε → ω → Prop
  health : Health → Health → Prop
  clock : UInt64 → UInt64 → Prop

namespace Difference

variable {ω ε : Type} (d : Difference ω ε)

structure SameReply {α : Type} (reply reply' : Reply ω ε α) : Prop where
  answer : reply.answer = reply'.answer
  engines : d.engines (some reply.engine) reply.shared (some reply'.engine) reply'.shared

variable [Engine ω ε]

/-- Nothing but the sending of packets can bring the difference to light. -/
structure Hidden (drivers : List (Driver ω ε)) : Prop where
  attached : ∀ (e e' : Option ε) (s s' : ω), d.engines e s e' s' → e.isSome = e'.isSome
  control : ∀ (e e' : ε) (s s' : ω) (command : EngineCommand), d.engines (some e) s (some e') s' →
    d.SameReply (Engine.control e s command) (Engine.control e' s' command)
  receive : ∀ (e e' : ε) (s s' : ω), d.engines (some e) s (some e') s' →
    d.SameReply (Engine.receive e s) (Engine.receive e' s')
  uninit : ∀ (e e' : ε) (s s' : ω), d.engines (some e) s (some e') s' →
    d.engines none (Engine.uninit e s).shared none (Engine.uninit e' s').shared
  init : ∀ driver ∈ drivers, ∀ (s s' : ω) (codec : CodecParams) (decoder : String),
    d.engines none s none s' →
      let reply := Engine.init (driver.create s).1 (driver.create s).2 codec decoder
      let reply' := Engine.init (driver.create s').1 (driver.create s').2 codec decoder
      reply.answer = reply'.answer
        ∧ match reply.answer with
          | .ok () => d.engines (some reply.engine) reply.shared (some reply'.engine) reply'.shared
          | .error _ => d.engines none reply.shared none reply'.shared
  add : ∀ (h h' more : Health), d.health h h' → d.health (h.add more) (h'.add more)
  setTime : ∀ (h h' : Health) (now now' : UInt64), d.clock now now' → d.health h h' →
    d.health (h.set now .lastFrameTime) (h'.set now' .lastFrameTime)

end Difference

def Engine.sendTold {ω ε : Type} [Engine ω ε] (engine : ε) (shared : ω) (directive : FrameDrop)
    (packet : Option Packet) : Reply ω ε Bool :=
  let told := Engine.control engine shared (.setFrameDrop directive)
  Engine.send told.engine told.shared packet

def Difference.HiddenBySending {ω ε : Type} [Engine ω ε] (d : Difference ω ε) : Prop :=
  ∀ (e e' : ε) (s s' : ω) (directive : FrameDrop) (packet : Option Packet),
    d.engines (some e) s (some e') s' →
      d.SameReply (Engine.sendTold e s directive packet) (Engine.sendTold e' s' directive packet)

namespace Pipeline

variable {ω ε φ ρ : Type} [Engine ω ε]

/-- Two pipelines that differ in what they may differ in and in nothing else. -/
structure Lockstep (d : Difference ω ε) (p q : Pipeline ω ε φ ρ) : Prop where
  hidden : d.Hidden p.drivers
  codec : p.codec = q.codec
  drivers : p.drivers = q.drivers
  options : p.options = q.options
  feed : p.feed = q.feed
  engines : d.engines p.engine p.shared q.engine q.shared
  health : d.health p.health q.health
  clock : d.clock p.now q.now
  decoder : p.decoder = q.decoder
  ready : p.ready = q.ready
  pending : p.pending = q.pending
  segments : p.segments = q.segments
  timeline : p.timeline = q.timeline
  params : p.params = q.params
  startCut : p.startCut = q.startCut
  framedrop : p.framedrop = q.framedrop
  maySkip : p.maySkip = q.maySkip
  dropped : p.dropped = q.dropped
  status : p.status = q.status

variable {d : Difference ω ε} {p q : Pipeline ω ε φ ρ}

theorem Lockstep.exists_eq (h : Lockstep d p q)
    : ∃ shared health now engine recorder journal,
        p = { q with shared, health, now, engine, recorder, journal } := by
  refine ⟨p.shared, p.health, p.now, p.engine, p.recorder, p.journal, ?_⟩
  rw [← h.codec, ← h.drivers, ← h.options, ← h.feed, ← h.decoder, ← h.ready, ← h.pending,
    ← h.segments, ← h.timeline, ← h.params, ← h.startCut, ← h.framedrop, ← h.maySkip, ← h.dropped,
    ← h.status]

theorem Lockstep.attached (h : Lockstep d p q)
    : (p.engine = none ∧ q.engine = none)
        ∨ ∃ e e', p.engine = some e ∧ q.engine = some e'
          ∧ d.engines (some e) p.shared (some e') q.shared := by
  have hengines := h.engines
  have hattached := h.hidden.attached _ _ _ _ hengines
  cases hp : p.engine with
  | none =>
    rw [hp] at hattached
    exact .inl ⟨rfl, by simpa using hattached.symm⟩
  | some e =>
    rw [hp] at hattached hengines
    rcases Option.isSome_iff_exists.mp hattached.symm with ⟨e', hq⟩
    rw [hq] at hengines
    exact .inr ⟨e, e', rfl, hq, hengines⟩

theorem Lockstep.isNone_engine (h : Lockstep d p q) : p.engine.isNone = q.engine.isNone := by
  rw [← Option.not_isSome, ← Option.not_isSome, h.hidden.attached _ _ _ _ h.engines]

theorem Lockstep.sayAll (h : Lockstep d p q) (notices notices' : List Notice)
    : Lockstep d (p.sayAll notices) (q.sayAll notices') := { h with }

theorem Lockstep.say (h : Lockstep d p q) (notice notice' : Notice)
    : Lockstep d (p.say notice) (q.say notice') := { h with }

section Output

theorem Lockstep.settleTime (h : Lockstep d p q) (frame : Frame)
    : (p.settleTime frame).1 = (q.settleTime frame).1
        ∧ Lockstep d (p.settleTime frame).2 (q.settleTime frame).2 := by
  have hhealth (synthesized : Bool)
      : d.health (p.health.recordDecoded synthesized) (q.health.recordDecoded synthesized) := by
    rw [Health.recordDecoded_eq, Health.recordDecoded_eq]
    exact h.hidden.add _ _ _ h.health
  rcases h.exists_eq with ⟨shared, health, now, engine, recorder, journal, rfl⟩
  exact ⟨rfl, { h with health := hhealth _, timeline := rfl }⟩

theorem Lockstep.settleParams (h : Lockstep d p q) (frame : Frame)
    : (p.settleParams frame).1 = (q.settleParams frame).1
        ∧ Lockstep d (p.settleParams frame).2 (q.settleParams frame).2 := by
  rcases h.exists_eq with ⟨shared, health, now, engine, recorder, journal, rfl⟩
  exact ⟨rfl, { h with params := rfl }⟩

theorem Lockstep.afterReply {α : Type} (h : Lockstep d p q) {reply reply' : Reply ω ε α}
    (hreply : d.SameReply reply reply')
    : Lockstep d (p.afterReply reply) (q.afterReply reply') := { h with engines := hreply.engines }

theorem Lockstep.command (h : Lockstep d p q) (request : EngineCommand)
    : (p.command request).1 = (q.command request).1
        ∧ Lockstep d (p.command request).2 (q.command request).2 := by
  unfold Pipeline.command
  rcases h.attached with ⟨hp, hq⟩ | ⟨e, e', hp, hq, hengines⟩
  . rw [hp, hq]
    exact ⟨rfl, h⟩
  . have hreply := h.hidden.control e e' _ _ request hengines
    rw [hp, hq]
    exact ⟨congrArg some hreply.answer, h.afterReply hreply⟩

theorem Lockstep.compensate (h : Lockstep d p q) (pts : Timestamp)
    : (p.compensate pts).1 = (q.compensate pts).1
        ∧ Lockstep d (p.compensate pts).2 (q.compensate pts).2 := by
  have hrate : p.delayRate = q.delayRate := by
    unfold delayRate
    rw [h.codec, h.options]
  have hcommand := h.command .getFrameDelay
  unfold Pipeline.compensate
  rw [hrate]
  cases q.delayRate with
  | none => exact ⟨rfl, h⟩
  | some fps =>
    rcases hp : p.command .getFrameDelay with ⟨answer, p'⟩
    rcases hq : q.command .getFrameDelay with ⟨answer', q'⟩
    rw [hp, hq] at hcommand
    rcases hcommand with ⟨hanswer, hstep⟩
    dsimp only at hanswer hstep
    subst hanswer
    rcases answer with _ | (_ | _ | delay)
    all_goals exact ⟨rfl, hstep⟩

theorem Lockstep.finishFrame (h : Lockstep d p q) (frame : Frame)
    : (p.finishFrame frame).1 = (q.finishFrame frame).1
        ∧ (p.finishFrame frame).2.1 = (q.finishFrame frame).2.1
        ∧ Lockstep d (p.finishFrame frame).2.2 (q.finishFrame frame).2.2 := by
  rcases h.settleTime frame with ⟨htime, htimed⟩
  rcases htimed.settleParams frame with ⟨hparams, hshaped⟩
  rcases hshaped.compensate (q.settleTime frame).1 with ⟨hpts, hdelayed⟩
  unfold Pipeline.finishFrame
  dsimp only
  rw [htime, hparams, hpts]
  exact ⟨rfl, rfl, hdelayed⟩

theorem Lockstep.noteMissing (h : Lockstep d p q) : Lockstep d p.noteMissing q.noteMissing := by
  have hhealth : d.health p.health.recordDecoderDrop q.health.recordDecoderDrop := by
    rw [Health.recordDecoderDrop_eq, Health.recordDecoderDrop_eq]
    exact h.hidden.add _ _ _ h.health
  unfold Pipeline.noteMissing
  by_cases hskip : q.maySkip = true
  . rw [if_pos hskip, if_pos (h.maySkip.trans hskip)]
    exact { h with health := hhealth, dropped := congrArg (· + 1) h.dropped }
  . rw [if_neg hskip, if_neg (mt h.maySkip.symm.trans hskip)]
    exact h

theorem Lockstep.resetSegment (h : Lockstep d p q) : Lockstep d p.resetSegment q.resetSegment := by
  have hreset := (h.command .reset).2
  unfold Pipeline.resetSegment
  exact
    { hreset with
      timeline := congrArg Reconciler.reset hreset.timeline
      params := rfl
      startCut := rfl
      maySkip := rfl
      ready := rfl
      pending := rfl
      status := rfl }

end Output

section Opening

theorem Lockstep.releaseEngine (h : Lockstep d p q)
    : Lockstep d p.releaseEngine q.releaseEngine := by
  unfold Pipeline.releaseEngine
  rcases h.attached with ⟨hp, hq⟩ | ⟨e, e', hp, hq, hengines⟩
  . rw [hp, hq]
    exact h
  . rw [hp, hq]
    exact { h with engines := h.hidden.uninit e e' _ _ hengines }

theorem Lockstep.prepareCodec (h : Lockstep d p q) (codec : SharedCodec)
    : Lockstep d (p.prepareCodec codec) (q.prepareCodec codec) := by
  have hreleased := h.releaseEngine
  have hreset : Lockstep d ({ p.releaseEngine with codec, decoder := none }.resetSegment)
      ({ q.releaseEngine with codec, decoder := none }.resetSegment) :=
    Lockstep.resetSegment { hreleased with codec := rfl, decoder := rfl }
  unfold Pipeline.prepareCodec
  dsimp only
  refine
    { hreset with
      segments := ?_
      timeline := congrArg Reconciler.restartProbe hreset.timeline }
  rw [hreset.segments]

theorem Lockstep.tryDecoders (h : Lockstep d p q) (hp : p.engine = none) (hq : q.engine = none)
    (entries : List DecoderEntry)
    : (p.tryDecoders entries).1 = (q.tryDecoders entries).1
        ∧ Lockstep d (p.tryDecoders entries).2 (q.tryDecoders entries).2 := by
  induction entries generalizing p q with
  | nil => exact ⟨rfl, h⟩
  | cons entry rest ih =>
    cases hdriver : Driver.find? p.drivers entry.family with
    | none =>
      have hdriver' := hdriver
      rw [h.drivers] at hdriver'
      rw [tryDecoders_of_unknown p hdriver, tryDecoders_of_unknown q hdriver']
      exact ih h hp hq
    | some driver =>
      have hdriver' := hdriver
      rw [h.drivers] at hdriver'
      have hengines := h.engines
      rw [hp, hq] at hengines
      have hreply := h.hidden.init driver (mem_of_find? hdriver) p.shared q.shared p.codec.params
        entry.decoder hengines
      have hsame : q.openReply driver entry
          = Engine.init (driver.create q.shared).1 (driver.create q.shared).2 p.codec.params
              entry.decoder := by
        rw [h.codec]
        rfl
      cases hanswer : (p.openReply driver entry).answer with
      | ok =>
        have hanswer' : (q.openReply driver entry).answer = .ok () := by
          rw [hsame, ← hreply.1]
          exact hanswer
        have hopened := hreply.2
        unfold openReply at hanswer
        rw [hanswer] at hopened
        rw [tryDecoders_of_ok p hdriver hanswer, tryDecoders_of_ok q hdriver' hanswer', hsame]
        refine ⟨rfl, { h with engines := ?_, decoder := rfl }⟩
        rw [attempted, attempted, hsame]
        exact hopened
      | error reason =>
        have hanswer' : (q.openReply driver entry).answer = .error reason := by
          rw [hsame, ← hreply.1]
          exact hanswer
        have hfailed := hreply.2
        unfold openReply at hanswer
        rw [hanswer] at hfailed
        have hattempted : Lockstep d
            ((p.attempted driver entry).say (.initFailed entry.decoder reason))
            ((q.attempted driver entry).say (.initFailed entry.decoder reason)) := by
          refine { h with engines := ?_ }
          rw [attempted, attempted, hsame]
          dsimp only [Pipeline.say]
          rw [hp, hq]
          exact hfailed
        rw [tryDecoders_of_error p hdriver hanswer, tryDecoders_of_error q hdriver' hanswer']
        rcases ih hattempted hp hq with ⟨htried, hleft⟩
        exact ⟨congrArg (Option.map (entry :: ·)) htried, hleft⟩

theorem Lockstep.openDecoder (h : Lockstep d p q) (codec : SharedCodec)
    : (p.openDecoder codec).1 = (q.openDecoder codec).1
        ∧ Lockstep d (p.openDecoder codec).2 (q.openDecoder codec).2 := by
  have hready : Lockstep d (p.readied codec) (q.readied codec) := (h.prepareCodec codec).sayAll _ _
  have hcandidates : (p.readied codec).candidates = (q.readied codec).candidates := by
    unfold candidates
    rw [hready.drivers, hready.codec, hready.options]
  have htried := hready.tryDecoders (p.readied_engine codec) (q.readied_engine codec)
    (q.readied codec).candidates
  rw [openDecoder_eq, openDecoder_eq, hcandidates]
  rcases hp : (p.readied codec).tryDecoders (q.readied codec).candidates with ⟨tried, p'⟩
  rcases hq : (q.readied codec).tryDecoders (q.readied codec).candidates with ⟨tried', q'⟩
  rw [hp, hq] at htried
  rcases htried with ⟨hsame, hstep⟩
  dsimp only at hsame hstep
  subst hsame
  cases tried with
  | none => exact ⟨rfl, hstep⟩
  | some tried => exact ⟨rfl, { hstep with status := rfl }⟩

end Opening

section Switching

theorem Lockstep.entered (h : Lockstep d p q) (packet : Packet) (reinit : Bool)
    : Lockstep d (p.entered packet reinit) (q.entered packet reinit) := by
  have hhealth : d.health (p.health.recordSegmentSwitch reinit)
      (q.health.recordSegmentSwitch reinit) := by
    rw [Health.recordSegmentSwitch_eq, Health.recordSegmentSwitch_eq]
    exact h.hidden.add _ _ _ h.health
  exact
    { h with
      health := hhealth
      segments := congrArg (·.completeSwitch packet.bounds) h.segments
      pending := rfl
      status := rfl }

theorem Lockstep.switching (h : Lockstep d p q) (packet : Packet)
    : Lockstep d (p.switching packet) (q.switching packet) :=
  { h with segments := congrArg (fun t => { t with queued := none, phase := .switching }) h.segments }

theorem Lockstep.switchSegment (h : Lockstep d p q)
    : Lockstep d p.switchSegment q.switchSegment := by
  cases hq : q.segments.queued with
  | none =>
    have hp : p.segments.queued = none := (congrArg (·.queued) h.segments).trans hq
    rw [switchSegment_of_queued_none p hp, switchSegment_of_queued_none q hq]
    exact h
  | some packet =>
    have hp : p.segments.queued = some packet := (congrArg (·.queued) h.segments).trans hq
    have hswitching := h.switching packet
    cases hkind : SegmentTracker.switchKind packet q.codec with
    | «continue» =>
      have hkind' : SegmentTracker.switchKind packet p.codec = .continue := by
        rw [h.codec, hkind]
      rw [switchSegment_of_continue p hp hkind', switchSegment_of_continue q hq hkind]
      exact hswitching.resetSegment.entered packet false
    | reinit codec =>
      have hkind' : SegmentTracker.switchKind packet p.codec = .reinit codec := by
        rw [h.codec, hkind]
      have hopen := hswitching.openDecoder codec
      rw [switchSegment_of_reinit p hp hkind', switchSegment_of_reinit q hq hkind]
      rcases hp' : (p.switching packet).openDecoder codec with ⟨result, p'⟩
      rcases hq' : (q.switching packet).openDecoder codec with ⟨result', q'⟩
      rw [hp', hq'] at hopen
      rcases hopen with ⟨hsame, hstep⟩
      dsimp only at hsame hstep
      subst hsame
      cases result with
      | ok => exact hstep.entered packet true
      | error reason => exact { hstep with status := rfl }

theorem Lockstep.endSegment (h : Lockstep d p q) : Lockstep d p.endSegment q.endSegment := by
  unfold Pipeline.endSegment
  rw [h.segments]
  split
  . exact h.switchSegment
  . exact h

theorem Lockstep.offer (h : Lockstep d p q) (frame : Frame)
    : Lockstep d (p.offer frame) (q.offer frame) := by
  have hfinish := h.finishFrame frame
  unfold Pipeline.offer
  rcases hp : p.finishFrame frame with ⟨pts, kept, p'⟩
  rcases hq : q.finishFrame frame with ⟨pts', kept', q'⟩
  rw [hp, hq] at hfinish
  rcases hfinish with ⟨hpts, hkept, hstep⟩
  dsimp only at hpts hkept hstep
  subst hpts hkept
  dsimp only
  have hexcludes : ({ p' with maySkip := false } : Pipeline ω ε φ ρ).excludes pts
      = ({ q' with maySkip := false } : Pipeline ω ε φ ρ).excludes pts := by
    unfold excludes
    dsimp only
    rw [hstep.segments, hstep.startCut]
  have hhealth : d.health p'.health.recordDiscarded q'.health.recordDiscarded := by
    rw [Health.recordDiscarded_eq, Health.recordDiscarded_eq]
    exact hstep.hidden.add _ _ _ hstep.health
  rw [hexcludes]
  split
  . have hdiscarded : Lockstep d
        { p' with maySkip := false, health := p'.health.recordDiscarded, status := .again }
        { q' with maySkip := false, health := q'.health.recordDiscarded, status := .again } :=
      { hstep with maySkip := rfl, health := hhealth, status := rfl }
    have hpast : p'.segments.bounds.isPastEnd pts = q'.segments.bounds.isPastEnd pts := by
      rw [hstep.segments]
    rw [hpast]
    split
    . exact hdiscarded.endSegment
    . exact hdiscarded
  . exact { hstep with maySkip := rfl, ready := rfl, status := rfl }

theorem Lockstep.readFrame (h : Lockstep d p q) : Lockstep d p.readFrame q.readFrame := by
  rcases h.attached with ⟨hp, hq⟩ | ⟨e, e', hp, hq, hengines⟩
  . rw [readFrame_of_detached p hp, readFrame_of_detached q hq]
    exact h
  . cases hready : q.ready with
    | some frame =>
      have hready' := h.ready.trans hready
      rw [readFrame_of_ready p (Option.isSome_of_eq_some hready'),
        readFrame_of_ready q (Option.isSome_of_eq_some hready)]
      exact h
    | none =>
      have hready' := h.ready.trans hready
      have hreply := h.hidden.receive e e' _ _ hengines
      have hreceived := h.afterReply hreply
      unfold Pipeline.readFrame
      rw [hp, hq, hready', hready]
      dsimp only
      rw [hreply.answer]
      split
      . exact hreceived.offer _
      . exact { hreceived.noteMissing with maySkip := rfl, status := rfl }
      . exact Lockstep.endSegment { hreceived with maySkip := rfl, status := rfl }

end Switching

section Input

theorem Lockstep.holdNewSegment (h : Lockstep d p q)
    : Lockstep d p.holdNewSegment q.holdNewSegment := by
  have hnew : p.pending.filter p.startsSegment = q.pending.filter q.startsSegment := by
    unfold startsSegment
    rw [h.pending, h.segments, h.codec]
  unfold Pipeline.holdNewSegment
  rw [hnew]
  cases q.pending.filter q.startsSegment with
  | none => exact h
  | some packet =>
    have hsegments : p.segments.queue packet = q.segments.queue packet := by rw [h.segments]
    exact { h with pending := rfl, segments := hsegments }

theorem Lockstep.pendingFrameDrop (h : Lockstep d p q)
    : p.pendingFrameDrop = q.pendingFrameDrop := by
  unfold Pipeline.pendingFrameDrop
  rw [h.pending, h.startCut, h.segments, h.framedrop, h.timeline]

theorem Lockstep.sendReply (h : Lockstep d p q) (hsends : d.HiddenBySending) {e e' : ε}
    (hengines : d.engines (some e) p.shared (some e') q.shared) (directive : FrameDrop)
    : d.SameReply (p.sendReply e directive) (q.sendReply e' directive) := by
  have hforEngine : p.forEngine = q.forEngine := by
    unfold forEngine
    rw [h.codec]
  have hsent := hsends e e' _ _ directive (q.pending.map q.forEngine) hengines
  unfold Pipeline.sendReply
  rw [h.pending, hforEngine]
  exact hsent

theorem Lockstep.sendTo (h : Lockstep d p q) {e e' : ε} {directive : FrameDrop}
    (hreply : d.SameReply (p.sendReply e directive) (q.sendReply e' directive))
    : (p.sendTo e directive).1 = (q.sendTo e' directive).1
        ∧ Lockstep d (p.sendTo e directive).2 (q.sendTo e' directive).2 := by
  have htimeline : (p.sendTo e directive).2.timeline = (q.sendTo e' directive).2.timeline := by
    unfold Pipeline.sendTo
    dsimp only [Pipeline.afterReply]
    rw [h.pending, h.timeline]
  exact ⟨hreply.answer, { h with engines := hreply.engines, timeline := htimeline }⟩

theorem Lockstep.retryPending (h : Lockstep d p q) : Lockstep d p.retryPending q.retryPending := by
  have hhealth : d.health p.health.recordSendRetry q.health.recordSendRetry := by
    rw [Health.recordSendRetry_eq, Health.recordSendRetry_eq]
    exact h.hidden.add _ _ _ h.health
  have hsome : p.pending.isSome = q.pending.isSome := by rw [h.pending]
  unfold Pipeline.retryPending
  rw [hsome]
  split
  . exact { h with health := hhealth }
  . exact h

variable [PacketRecorder ρ]

theorem Lockstep.record (h : Lockstep d p q) (packet : Packet)
    : Lockstep d (p.record packet) (q.record packet) := by
  unfold Pipeline.record
  cases p.recorder <;> cases q.recorder <;> exact { h with }

theorem Lockstep.acceptPending (h : Lockstep d p q)
    : Lockstep d p.acceptPending q.acceptPending := by
  unfold Pipeline.acceptPending
  cases hpending : q.pending with
  | none =>
    rw [h.pending.trans hpending]
    exact h
  | some packet =>
    rw [h.pending.trans hpending]
    have hcleared : Lockstep d { p with pending := none } { q with pending := none } :=
      { h with pending := rfl }
    have hrecorded := hcleared.record packet
    have hhealth : d.health
        (({ p with pending := none }.record packet).health.recordPacket packet.size)
        (({ q with pending := none }.record packet).health.recordPacket packet.size) := by
      rw [Health.recordPacket_eq, Health.recordPacket_eq]
      exact h.hidden.add _ _ _ hrecorded.health
    exact { hrecorded with health := hhealth }

theorem Lockstep.sendPending (h : Lockstep d p q) {e e' : ε}
    (hreply : d.SameReply (p.sendReply e p.pendingFrameDrop) (q.sendReply e' q.pendingFrameDrop))
    : Lockstep d (p.sendPending e) (q.sendPending e') := by
  rw [h.pendingFrameDrop] at hreply
  have hsent := h.sendTo hreply
  unfold Pipeline.sendPending
  rw [h.pendingFrameDrop]
  dsimp only
  rcases hp : p.sendTo e q.pendingFrameDrop with ⟨accepted, p'⟩
  rcases hq : q.sendTo e' q.pendingFrameDrop with ⟨accepted', q'⟩
  rw [hp, hq] at hsent
  rcases hsent with ⟨hanswer, hstep⟩
  dsimp only at hanswer hstep
  subst hanswer
  cases accepted with
  | true => exact { hstep.acceptPending with maySkip := rfl, status := rfl }
  | false => exact { hstep.retryPending with status := rfl }

variable [PacketFeed φ]

omit [PacketRecorder ρ] in
theorem Lockstep.fillPending (h : Lockstep d p q)
    : p.fillPending.1 = q.fillPending.1 ∧ Lockstep d p.fillPending.2 q.fillPending.2 := by
  have hheld : (p.pending.isSome || p.segments.hasQueued)
      = (q.pending.isSome || q.segments.hasQueued) := by
    rw [h.pending, h.segments]
  have hread : PacketFeed.tryRead p.feed = PacketFeed.tryRead q.feed := by rw [h.feed]
  unfold Pipeline.fillPending readFeed
  rw [hheld, hread]
  split
  . exact ⟨rfl, h⟩
  . rcases PacketFeed.tryRead q.feed with ⟨poll, feed⟩
    cases poll with
    | item packet => exact ⟨rfl, { h with feed := rfl, pending := rfl }⟩
    | empty => exact ⟨rfl, { h with feed := rfl }⟩
    | ended => exact ⟨rfl, { h with feed := rfl }⟩

theorem Lockstep.sending (h : Lockstep d p q)
    : (p.sending = none ∧ q.sending = none ∧ Lockstep d p.feedPacket q.feedPacket)
        ∨ ∃ e r e' r', p.sending = some (e, r) ∧ q.sending = some (e', r') ∧ Lockstep d r r'
          ∧ d.engines (some e) r.shared (some e') r'.shared := by
  rcases h.attached with ⟨hp, hq⟩ | ⟨e, e', hp, hq, -⟩
  . left
    unfold Pipeline.sending Pipeline.feedPacket
    rw [hp, hq]
    exact ⟨rfl, rfl, h⟩
  . cases hready : q.ready with
    | some frame =>
      left
      unfold Pipeline.sending Pipeline.feedPacket
      rw [hp, hq, h.ready, hready]
      exact ⟨rfl, rfl, h⟩
    | none =>
      have hready' := h.ready.trans hready
      rcases h.fillPending with ⟨hwaits, hfilled⟩
      cases hfill : q.fillPending.1 with
      | true =>
        have hfill' := hwaits.trans hfill
        left
        unfold Pipeline.sending Pipeline.feedPacket
        rw [hp, hq, hready', hready]
        dsimp only
        rw [hfill', hfill]
        refine ⟨rfl, rfl, ?_⟩
        rcases hp' : p.fillPending with ⟨waits, p'⟩
        rcases hq' : q.fillPending with ⟨waits', q'⟩
        rw [hp', hq'] at hfilled
        rw [hp'] at hfill'
        rw [hq'] at hfill
        cases hfill'
        cases hfill
        exact { hfilled with status := rfl }
      | false =>
        have hsending : p.sending = some (e, p.fillPending.2.holdNewSegment) := by
          unfold Pipeline.sending
          rw [hp, hready']
          dsimp only
          rw [hwaits, hfill]
          rfl
        have hsending' : q.sending = some (e', q.fillPending.2.holdNewSegment) := by
          unfold Pipeline.sending
          rw [hq, hready]
          dsimp only
          rw [hfill]
          rfl
        have hengines := hfilled.holdNewSegment.engines
        rcases outline_sending (.nothing ω ε) p hsending with ⟨-, -, hkept, -⟩
        rcases outline_sending (.nothing ω ε) q hsending' with ⟨-, -, hkept', -⟩
        rw [hkept, hkept'] at hengines
        exact .inr ⟨e, _, e', _, hsending, hsending', hfilled.holdNewSegment, hengines⟩

def SendsAlike (d : Difference ω ε) (p q : Pipeline ω ε φ ρ) : Prop :=
  ∀ e r e' r', p.sending = some (e, r) → q.sending = some (e', r') →
    Lockstep d r r' → d.engines (some e) r.shared (some e') r'.shared →
      d.SameReply (r.sendReply e r.pendingFrameDrop) (r'.sendReply e' r'.pendingFrameDrop)

omit [PacketRecorder ρ] in
theorem sendsAlike_of_hidden (hsends : d.HiddenBySending) (p q : Pipeline ω ε φ ρ)
    : SendsAlike d p q := by
  intro e r e' r' _ _ hstep hengines
  rw [hstep.pendingFrameDrop]
  exact hstep.sendReply hsends hengines _

theorem Lockstep.feedPacket (h : Lockstep d p q) (hsends : SendsAlike d p q)
    : Lockstep d p.feedPacket q.feedPacket := by
  rcases h.sending with ⟨-, -, hstep⟩ | ⟨e, r, e', r', hp, hq, hstep, hengines⟩
  . exact hstep
  . rw [feedPacket_of_sending p hp, feedPacket_of_sending q hq]
    exact hstep.sendPending (hsends e r e' r' hp hq hstep hengines)

end Input

section Operations

variable [PacketFeed φ] [PacketRecorder ρ]

theorem Lockstep.work (h : Lockstep d p q) (hsends : SendsAlike d p.readFrame q.readFrame)
    : Lockstep d p.doWork q.doWork := by
  have hread := h.readFrame
  have hfed := hread.feedPacket hsends
  unfold Pipeline.doWork
  rw [h.isNone_engine]
  split
  . exact { h with status := rfl }
  . dsimp only
    rw [hread.ready, hfed.status]
    split
    . exact hread
    . split
      . exact hfed
      . exact hfed.readFrame

theorem Lockstep.doWork (h : Lockstep d p q) (hsends : d.HiddenBySending)
    : Lockstep d p.doWork q.doWork :=
  h.work (sendsAlike_of_hidden hsends _ _)

omit [PacketFeed φ] [PacketRecorder ρ] in
theorem Lockstep.getFrame (h : Lockstep d p q)
    : p.getFrame.1 = q.getFrame.1 ∧ p.getFrame.2.1 = q.getFrame.2.1
        ∧ Lockstep d p.getFrame.2.2 q.getFrame.2.2 := by
  have hhealth : d.health (p.health.recordDelivered p.now) (q.health.recordDelivered q.now) := by
    rw [Health.recordDelivered_eq, Health.recordDelivered_eq]
    exact h.hidden.setTime _ _ _ _ h.clock (h.hidden.add _ _ _ h.health)
  unfold Pipeline.getFrame
  cases hready : q.ready with
  | some frame =>
    rw [h.ready.trans hready]
    exact ⟨rfl, rfl, { h with ready := rfl, health := hhealth }⟩
  | none =>
    rw [h.ready.trans hready]
    exact ⟨rfl, congrArg (fun status => if status == .ready then .again else status) h.status, h⟩

omit [PacketFeed φ] [PacketRecorder ρ] in
theorem Lockstep.reset (h : Lockstep d p q) : Lockstep d p.reset q.reset := by
  have hreset := (h.say .reset .reset).resetSegment
  have hstatus : (if (p.say .reset).resetSegment.engine.isNone then Status.ended
        else (p.say .reset).resetSegment.status)
      = if (q.say .reset).resetSegment.engine.isNone then Status.ended
        else (q.say .reset).resetSegment.status := by
    rw [hreset.isNone_engine, hreset.status]
  exact
    { hreset with
      segments := rfl
      timeline := congrArg Reconciler.restartProbe hreset.timeline
      dropped := rfl
      status := hstatus }

theorem Lockstep.perform (h : Lockstep d p q) (hsends : d.HiddenBySending)
    (hclock : ∀ now, d.clock now now) (operation : Operation φ ρ)
    : Lockstep d (p.perform operation) (q.perform operation) := by
  cases operation with
  | work => exact h.doWork hsends
  | take => exact h.getFrame.2.2
  | reset => exact h.reset
  | setStart cut => exact { h with startCut := rfl }
  | setFramedrop framedrop => exact { h with framedrop := rfl }
  | resetParams => exact { h with params := congrArg ParamsCache.invalidate h.params }
  | attachRecorder recorder => exact { h with }
  | detachRecorder => exact { h with }
  | openDecoder codec => exact (h.openDecoder codec).2
  | refill change => exact { h with feed := congrArg change h.feed }
  | wait now => exact { h with clock := hclock now }

end Operations

end Pipeline
end DecodePipeline
