import DecodePipeline.Proofs.Pipeline.Reading
import DecodePipeline.Proofs.Pipeline.Upholding
import DecodePipeline.Proofs.Pipeline.Window

/-!
This module contains everything that the two halves of a step can end in: a frame is read from the
engine, and a packet is fed to it.
-/

namespace DecodePipeline

def PacketFeed.Asks {φ : Type} [PacketFeed φ] (feed : φ) (asked : Option (Poll Packet)) (after : φ) :
    Prop :=
  match asked with
  | none => after = feed
  | some poll => PacketFeed.tryRead feed = (poll, after)

def Frame.SettledAs (frame settled : Frame) : Prop :=
  -- Only the time and the parameters of a frame are the pipeline's own.
  ∃ pts params, settled = { frame with pts := some pts, params }

namespace Pipeline

variable {ω ε φ ρ : Type}

section Switch

variable [Engine ω ε]

theorem endSegment_eq (p : Pipeline ω ε φ ρ) : p.endSegment = p.switchSegment := by
  unfold endSegment SegmentTracker.hasQueued
  split
  . rfl
  . next hqueued =>
    have hnone : p.segments.queued = none := by simpa using hqueued
    exact (switchSegment_of_queued_none p hnone).symm

theorem resetSegment_health (p : Pipeline ω ε φ ρ) : p.resetSegment.health = p.health := by
  unfold resetSegment command
  cases p.engine <;> rfl

theorem reset_health (p : Pipeline ω ε φ ρ) : p.reset.health = p.health :=
  (p.say .reset).resetSegment_health

theorem readied_health (p : Pipeline ω ε φ ρ) (codec : SharedCodec)
    : (p.readied codec).health = p.health := by
  have hreleased : p.releaseEngine.health = p.health := by
    unfold releaseEngine
    cases p.engine <;> rfl
  rw [← hreleased]
  exact ({ p.releaseEngine with codec, decoder := none }).resetSegment_health

theorem openDecoder_health (p : Pipeline ω ε φ ρ) (codec : SharedCodec)
    : (p.openDecoder codec).2.health = p.health := by
  rcases p.openDecoder_readied codec with ⟨engine, decoder, shared, status, journal, hopen⟩
  rw [hopen]
  exact p.readied_health codec

theorem switchSegment_health_continue (p : Pipeline ω ε φ ρ) {packet : Packet}
    (hqueued : p.segments.queued = some packet)
    (hkind : SegmentTracker.switchKind packet p.codec = .continue)
    : p.switchSegment.health = p.health.recordSegmentSwitch false := by
  rw [switchSegment_of_continue p hqueued hkind]
  exact congrArg (·.recordSegmentSwitch false) (p.switching packet).resetSegment_health

theorem switchSegment_health_reinit (p : Pipeline ω ε φ ρ) {packet : Packet} {codec : SharedCodec}
    (hqueued : p.segments.queued = some packet)
    (hkind : SegmentTracker.switchKind packet p.codec = .reinit codec)
    : p.switchSegment.health
        = if ((p.switching packet).openDecoder codec).1.isOk then p.health.recordSegmentSwitch true
          else p.health := by
  have hopen := (p.switching packet).openDecoder_health codec
  rw [switchSegment_of_reinit p hqueued hkind]
  rcases hresult : (p.switching packet).openDecoder codec with ⟨result, q⟩
  rw [hresult] at hopen
  cases result with
  | ok => exact congrArg (·.recordSegmentSwitch true) hopen
  | error reason => exact hopen

theorem switchSegment_health (p : Pipeline ω ε φ ρ)
    : p.switchSegment.health = p.health
        ∨ ∃ reinit, p.switchSegment.health = p.health.recordSegmentSwitch reinit := by
  cases hqueued : p.segments.queued with
  | none => exact .inl (congrArg health (switchSegment_of_queued_none p hqueued))
  | some packet =>
    cases hkind : SegmentTracker.switchKind packet p.codec with
    | «continue» => exact .inr ⟨false, switchSegment_health_continue p hqueued hkind⟩
    | reinit codec =>
      have hhealth := switchSegment_health_reinit p hqueued hkind
      split at hhealth
      . exact .inr ⟨true, hhealth⟩
      . exact .inl hhealth

theorem switchSegment_counted {α : Type} (p : Pipeline ω ε φ ρ) (counted : Health → α)
    (hcounted : ∀ h reinit, counted (Health.recordSegmentSwitch h reinit) = counted h)
    : counted p.switchSegment.health = counted p.health := by
  rcases p.switchSegment_health with hsame | ⟨reinit, hswitched⟩
  . rw [hsame]
  . rw [hswitched, hcounted]

theorem switchSegment_queued (p : Pipeline ω ε φ ρ) : p.switchSegment.segments.queued = none := by
  cases hqueued : p.segments.queued with
  | none => rw [switchSegment_of_queued_none p hqueued, hqueued]
  | some packet =>
    cases hkind : SegmentTracker.switchKind packet p.codec with
    | «continue» =>
      exact congrArg (·.segments.queued)
        (outline_switchSegment_continue (.nothing ω ε) p hqueued hkind)
    | reinit codec =>
      refine (congrArg (·.segments.queued)
        (outline_switchSegment_reinit (.nothing ω ε) p hqueued hkind)).trans ?_
      dsimp only
      split <;> rfl

theorem switchSegment_status_cases (p : Pipeline ω ε φ ρ)
    : (p.segments.queued = none ∧ p.switchSegment = p)
        ∨ p.switchSegment.status = .again
        ∨ (p.switchSegment.status = .ended ∧ p.switchSegment.engine = none) := by
  cases hqueued : p.segments.queued with
  | none => exact .inl ⟨rfl, switchSegment_of_queued_none p hqueued⟩
  | some packet =>
    right
    cases hkind : SegmentTracker.switchKind packet p.codec with
    | «continue» =>
      left
      rw [switchSegment_of_continue p hqueued hkind]
      rfl
    | reinit codec =>
      have houtline := outline_openDecoder (.nothing ω ε) (p.switching packet) codec
      have hattached := congrArg Outline.attached houtline
      rw [switchSegment_of_reinit p hqueued hkind]
      rcases hresult : (p.switching packet).openDecoder codec with ⟨result, q⟩
      rw [hresult] at hattached
      cases result with
      | ok => exact .inl rfl
      | error reason =>
        have hengine : q.engine = none := by
          simpa [outline, Except.isOk, Except.toBool] using hattached
        exact .inr ⟨rfl, hengine⟩

end Switch

section Output

variable [Engine ω ε]

structure Settles (p q : Pipeline ω ε φ ρ) (frame settled : Frame) : Prop where
  outline : q.outline (.nothing ω ε) = p.outline (.nothing ω ε)
  health : ∃ synthesized, q.health = p.health.recordDecoded synthesized
  frame : frame.SettledAs settled
  upholds : ∀ holds, p.Upholds holds → q.Upholds holds

theorem finishFrame_settles (p : Pipeline ω ε φ ρ) (frame : Frame)
    : p.Settles (p.finishFrame frame).2.2 frame (p.finishFrame frame).2.1 where
  outline := outline_finishFrame (.nothing ω ε) p frame
  health := by
    rcases p.finishFrame_eq frame with ⟨engine, shared, timeline, synthesized, journal, hfinish⟩
    rw [hfinish]
    exact ⟨synthesized, rfl⟩
  frame := ⟨_, _, rfl⟩
  upholds _ hp := hp.finishFrame frame

/--
How the reading of a frame ends, by what a pipeline `p` received. A frame is stored, or it lies outside
the window and is discarded, and if it lies past the end then the next segment starts.
-/
inductive Reads (p : Pipeline ω ε φ ρ) : Received → Pipeline ω ε φ ρ → Prop where
  | stored {q : Pipeline ω ε φ ρ} {frame settled : Frame} (hsettles : p.Settles q frame settled) :
    Reads p (.frame frame) { q with ready := some settled, status := .ready }
  | discarded {q : Pipeline ω ε φ ρ} {frame settled : Frame} (hsettles : p.Settles q frame settled) :
    Reads p (.frame frame) { q with health := q.health.recordDiscarded, status := .again }
  | passed {q : Pipeline ω ε φ ρ} {frame settled : Frame} (hsettles : p.Settles q frame settled) :
    Reads p (.frame frame)
      ({ q with health := q.health.recordDiscarded, status := .again } :
        Pipeline ω ε φ ρ).switchSegment
  | missed {health : Health} {dropped : Nat}
    (hhealth : health = p.health ∨ health = p.health.recordDecoderDrop) :
    Reads p .pending { p with health, dropped, maySkip := false, status := .again }
  | exhausted :
    Reads p .exhausted
      ({ p with maySkip := false, status := .ended } : Pipeline ω ε φ ρ).switchSegment

theorem offer_reads (p : Pipeline ω ε φ ρ) (frame : Frame) : p.Reads (.frame frame) (p.offer frame) := by
  have hfinish := p.finishFrame_settles frame
  unfold offer
  rcases hresult : p.finishFrame frame with ⟨pts, settled, q⟩
  rw [hresult] at hfinish
  have hsettles : p.Settles { q with maySkip := false } frame settled :=
    { hfinish with upholds := fun holds hp => (hfinish.upholds holds hp).of_eq rfl rfl rfl }
  dsimp only
  split
  . split
    . rw [endSegment_eq]
      exact .passed hsettles
    . exact .discarded hsettles
  . exact .stored hsettles

theorem readFrame_reads (p : Pipeline ω ε φ ρ) {engine : ε} (hengine : p.engine = some engine)
    (hready : p.ready = none)
    : (p.afterReply (Engine.receive engine p.shared)).Reads (Engine.receive engine p.shared).answer
        p.readFrame := by
  unfold readFrame
  rw [hengine, hready]
  dsimp only
  generalize p.afterReply (Engine.receive engine p.shared) = q
  cases (Engine.receive engine p.shared).answer with
  | frame frame => exact q.offer_reads frame
  | pending =>
    dsimp only
    unfold noteMissing
    split
    . exact .missed (.inr rfl)
    . exact .missed (.inl rfl)
  | exhausted =>
    dsimp only
    rw [endSegment_eq]
    exact .exhausted

theorem Reads.upholds {p q : Pipeline ω ε φ ρ} {answer : Received} (hreads : p.Reads answer q)
    {holds : Option ε → ω → Prop} (hp : p.Upholds holds)
    : q.Upholds holds := by
  cases hreads with
  | stored hsettles | discarded hsettles => exact (hsettles.upholds holds hp).of_eq rfl rfl rfl
  | passed hsettles =>
    apply Upholds.switchSegment
    exact (hsettles.upholds holds hp).of_eq rfl rfl rfl
  | missed => exact hp.of_eq rfl rfl rfl
  | exhausted =>
    apply Upholds.switchSegment
    exact hp.of_eq rfl rfl rfl

theorem Reads.sameSetting {p q : Pipeline ω ε φ ρ} {answer : Received} (hreads : p.Reads answer q)
    : p.SameSetting q := by
  cases hreads with
  | stored hsettles | discarded hsettles =>
    have hsame := sameSetting_of_outline _ hsettles.outline
    exact ⟨hsame.drivers, hsame.options, hsame.feed⟩
  | passed hsettles =>
    have hsame := sameSetting_of_outline _ hsettles.outline
    refine SameSetting.trans ?_ (switchSegment_sameSetting _)
    exact ⟨hsame.drivers, hsame.options, hsame.feed⟩
  | missed => exact ⟨rfl, rfl, rfl⟩
  | exhausted =>
    refine SameSetting.trans ?_ (switchSegment_sameSetting _)
    exact ⟨rfl, rfl, rfl⟩

end Output

section Sending

variable [PacketRecorder ρ]

theorem acceptPending_eq (p : Pipeline ω ε φ ρ)
    : ∃ recorder journal,
        p.acceptPending
          = { p with
              pending := none
              recorder, journal
              health := match p.pending with
                | none => p.health
                | some packet => p.health.recordPacket packet.size } := by
  unfold acceptPending record
  cases hpending : p.pending with
  | none =>
    have hnothing : { p with pending := none } = p := by rw [← hpending]
    exact ⟨p.recorder, p.journal, hnothing.symm⟩
  | some packet => cases p.recorder <;> exact ⟨_, _, rfl⟩

variable [Engine ω ε]

omit [PacketRecorder ρ] in
theorem sendTo_eq (p : Pipeline ω ε φ ρ) (engine : ε) (framedrop : FrameDrop)
    : p.sendTo engine framedrop
        = ((p.sendReply engine framedrop).answer,
            { p with
              timeline := match p.pending with
                | none => p.timeline
                | some packet => p.timeline.notePacket packet.pts packet.dts
              engine := some (p.sendReply engine framedrop).engine
              shared := (p.sendReply engine framedrop).shared }) := rfl

theorem sendPending_eq (p : Pipeline ω ε φ ρ) (engine : ε)
    : ∃ pending recorder status journal,
        p.sendPending engine
          = { p with
              timeline := match p.pending with
                | none => p.timeline
                | some packet => p.timeline.notePacket packet.pts packet.dts
              engine := some (p.sendReply engine p.pendingFrameDrop).engine
              shared := (p.sendReply engine p.pendingFrameDrop).shared
              health := match p.pending with
                | none => p.health
                | some packet =>
                  if (p.sendReply engine p.pendingFrameDrop).answer then
                    p.health.recordPacket packet.size
                  else p.health.recordSendRetry
              maySkip :=
                if (p.sendReply engine p.pendingFrameDrop).answer then p.pendingFrameDrop == .soft
                else p.maySkip
              pending, recorder, status, journal } := by
  have hsent := p.sendTo_eq engine p.pendingFrameDrop
  unfold sendPending
  dsimp only
  rw [hsent]
  cases (p.sendReply engine p.pendingFrameDrop).answer with
  | true =>
    rcases (p.sendTo engine p.pendingFrameDrop).2.acceptPending_eq
      with ⟨recorder, journal, haccepted⟩
    rw [hsent] at haccepted
    dsimp only at haccepted ⊢
    rw [haccepted]
    exact ⟨none, recorder, _, journal, rfl⟩
  | false =>
    unfold retryPending
    cases p.pending <;> exact ⟨_, p.recorder, _, p.journal, rfl⟩

theorem sendPending_ready (p : Pipeline ω ε φ ρ) (engine : ε)
    : (p.sendPending engine).ready = p.ready :=
  congrArg Outline.ready (outline_sendPending (.nothing ω ε) p engine)

theorem sendPending_engine (p : Pipeline ω ε φ ρ) (engine : ε)
    : (p.sendPending engine).engine = some (p.sendReply engine p.pendingFrameDrop).engine
        ∧ (p.sendPending engine).shared = (p.sendReply engine p.pendingFrameDrop).shared := by
  rcases p.sendPending_eq engine with ⟨pending, recorder, status, journal, hsent⟩
  rw [hsent]
  exact ⟨rfl, rfl⟩

theorem sendPending_health (p : Pipeline ω ε φ ρ) (engine : ε)
    : (p.sendPending engine).health
        = match p.pending with
          | none => p.health
          | some packet =>
            if (p.sendReply engine p.pendingFrameDrop).answer then p.health.recordPacket packet.size
            else p.health.recordSendRetry := by
  rcases p.sendPending_eq engine with ⟨pending, recorder, status, journal, hsent⟩
  rw [hsent]

theorem sendPending_timeline (p : Pipeline ω ε φ ρ) (engine : ε)
    : (p.sendPending engine).timeline
        = match p.pending with
          | none => p.timeline
          | some packet => p.timeline.notePacket packet.pts packet.dts := by
  rcases p.sendPending_eq engine with ⟨pending, recorder, status, journal, hsent⟩
  rw [hsent]

end Sending

section Feeding

theorem holdNewSegment_eq (p : Pipeline ω ε φ ρ)
    : ∃ pending queued phase journal,
        p.holdNewSegment
          = { p with
              pending, journal
              segments := { bounds := p.segments.bounds, queued, phase } } := by
  rcases p.holdNewSegment_cases with ⟨hhold, -⟩ | ⟨packet, -, -, hhold⟩
  . rw [hhold]
    exact ⟨_, _, _, _, rfl⟩
  . rw [hhold]
    exact ⟨_, _, _, _, rfl⟩

variable [PacketFeed φ]

theorem sending_fields {p q : Pipeline ω ε φ ρ} {engine : ε} (hsending : p.sending = some (engine, q))
    : ∃ feed pending queued phase journal,
        q = { p with
              feed, pending, journal
              segments := { bounds := p.segments.bounds, queued, phase } } := by
  rcases sending_eq hsending with ⟨-, -, hfill, rfl⟩
  have hfilled : ∃ feed pending, p.fillPending.2 = { p with feed, pending } := by
    rcases p.fillPending_cases hfill with ⟨-, hq⟩ | ⟨-, packet, feed, -, hq⟩ | ⟨-, feed, -, hq⟩
    . exact ⟨p.feed, p.pending, hq⟩
    . exact ⟨feed, some packet, hq⟩
    . exact ⟨feed, p.pending, hq⟩
  rcases hfilled with ⟨feed, filled, hq⟩
  rcases p.fillPending.2.holdNewSegment_eq with ⟨pending, queued, phase, journal, hheld⟩
  rw [hheld, hq]
  exact ⟨feed, pending, queued, phase, journal, rfl⟩

inductive Fills (p : Pipeline ω ε φ ρ) : Option (Poll Packet) → Pipeline ω ε φ ρ → Prop where
  | held (hheld : p.held ≠ []) : Fills p none p
  | item {packet : Packet} {feed : φ} (hidle : p.held = [])
    (htry : PacketFeed.tryRead p.feed = (.item packet, feed)) :
    Fills p (some (.item packet)) { p with feed, pending := some packet }
  | ended {feed : φ} (hidle : p.held = []) (htry : PacketFeed.tryRead p.feed = (.ended, feed)) :
    Fills p (some .ended) { p with feed }

theorem Fills.eq {p q : Pipeline ω ε φ ρ} {asked : Option (Poll Packet)} (hfills : p.Fills asked q)
    : ∃ feed pending, q = { p with feed, pending } := by
  cases hfills with
  | held => exact ⟨p.feed, p.pending, rfl⟩
  | item => exact ⟨_, _, rfl⟩
  | ended => exact ⟨_, p.pending, rfl⟩

theorem Fills.holdNewSegment_eq {p q : Pipeline ω ε φ ρ} {asked : Option (Poll Packet)}
    (hfills : p.Fills asked q)
    : ∃ pending queued phase journal,
        q.holdNewSegment
          = { p with
              feed := q.feed
              pending, journal
              segments := { bounds := p.segments.bounds, queued, phase } } := by
  rcases hfills.eq with ⟨feed, filling, rfl⟩
  exact Pipeline.holdNewSegment_eq { p with feed, pending := filling }

theorem Fills.asks {p q : Pipeline ω ε φ ρ} {asked : Option (Poll Packet)}
    (hfills : p.Fills asked q)
    : PacketFeed.Asks p.feed asked q.feed := by
  cases hfills with
  | held => rfl
  | item _ htry | ended _ htry => exact htry

variable [Engine ω ε] [PacketRecorder ρ]

inductive Feeds (p : Pipeline ω ε φ ρ) (engine : ε) :
    Option (Poll Packet) → Pipeline ω ε φ ρ → Prop where
  | waits {feed : φ} (hidle : p.held = []) (htry : PacketFeed.tryRead p.feed = (.empty, feed)) :
    Feeds p engine (some .empty) { p with feed, status := .waiting }
  | sends {asked : Option (Poll Packet)} {q : Pipeline ω ε φ ρ} (hfills : p.Fills asked q) :
    Feeds p engine asked (q.holdNewSegment.sendPending engine)

theorem feedPacket_feeds (p : Pipeline ω ε φ ρ) {engine : ε} (hengine : p.engine = some engine)
    (hready : p.ready = none)
    : ∃ asked, p.Feeds engine asked p.feedPacket := by
  unfold feedPacket
  rw [hengine, hready]
  dsimp only
  by_cases hheld : p.held = []
  . rcases p.held_eq_nil.mp hheld with ⟨hpending, hqueued⟩
    rw [fillPending_of_idle p hpending hqueued]
    rcases htry : PacketFeed.tryRead p.feed with ⟨poll, feed⟩
    cases poll with
    | item packet => exact ⟨_, .sends (.item hheld htry)⟩
    | empty => exact ⟨_, .waits hheld htry⟩
    | ended => exact ⟨_, .sends (.ended hheld htry)⟩
  . rw [fillPending_of_held p hheld]
    exact ⟨_, .sends (.held hheld)⟩

end Feeding

section Work

variable [Engine ω ε]

def Receives (p q : Pipeline ω ε φ ρ) : Prop :=
  ∃ engine, p.engine = some engine ∧ p.ready = none
    ∧ (p.afterReply (Engine.receive engine p.shared)).Reads (Engine.receive engine p.shared).answer q

theorem Receives.sameSetting {p q : Pipeline ω ε φ ρ} (hreceives : p.Receives q)
    : p.SameSetting q := by
  rcases hreceives with ⟨engine, hengine, hready, hreads⟩
  have hsame := hreads.sameSetting
  exact ⟨hsame.drivers, hsame.options, hsame.feed⟩

theorem receives_readFrame (p : Pipeline ω ε φ ρ) {engine : ε} (hengine : p.engine = some engine)
    (hready : p.ready = none)
    : p.Receives p.readFrame :=
  ⟨engine, hengine, hready, p.readFrame_reads hengine hready⟩

variable [PacketFeed φ] [PacketRecorder ρ]

inductive Works (p : Pipeline ω ε φ ρ) : Option (Poll Packet) → Pipeline ω ε φ ρ → Prop where
  | detached (hengine : p.engine = none) : Works p none { p with status := .ended }
  | kept (hengine : p.engine.isSome) (hready : p.ready.isSome) : Works p none p
  | stopped {q : Pipeline ω ε φ ρ} (hreceives : p.Receives q)
    (hstop : q.ready.isSome ∨ q.engine = none) :
    Works p none q
  | waited {q : Pipeline ω ε φ ρ} {feed : φ} (hreceives : p.Receives q) (hready : q.ready = none)
    (hidle : q.held = []) (htry : PacketFeed.tryRead q.feed = (.empty, feed)) :
    Works p (some .empty) { q with feed, status := .waiting }
  | fed {asked : Option (Poll Packet)} {q filled r : Pipeline ω ε φ ρ} {engine : ε}
    (hreceives : p.Receives q) (hengine : q.engine = some engine) (hready : q.ready = none)
    (hfills : q.Fills asked filled)
    (hagain : (filled.holdNewSegment.sendPending engine).Receives r) :
    Works p asked r

theorem Works.asks {p q : Pipeline ω ε φ ρ} {asked : Option (Poll Packet)}
    (hworks : p.Works asked q)
    : PacketFeed.Asks p.feed asked q.feed := by
  cases hworks with
  | detached | kept => rfl
  | stopped hreceives => exact hreceives.sameSetting.feed
  | waited hreceives _ _ htry =>
    rw [← hreceives.sameSetting.feed]
    exact htry
  | @fed asked q filled r engine hreceives _ _ hfills hagain =>
    have hheld : filled.holdNewSegment.feed = filled.feed := by
      rcases hfills.holdNewSegment_eq with ⟨pending, queued, phase, journal, hheld⟩
      rw [hheld]
    have hsent : (filled.holdNewSegment.sendPending engine).feed = filled.holdNewSegment.feed :=
      congrArg Outline.feed (outline_sendPending (.nothing _ _) _ engine)
    rw [hagain.sameSetting.feed, hsent, hheld, ← hreceives.sameSetting.feed]
    exact hfills.asks

theorem feedPacket_of_detached (p : Pipeline ω ε φ ρ) (hengine : p.engine = none)
    : p.feedPacket = p := by
  unfold feedPacket
  rw [hengine]

theorem Feeds.works {p q r : Pipeline ω ε φ ρ} {engine : ε} {asked : Option (Poll Packet)}
    (hreceives : p.Receives q) (hengine : q.engine = some engine) (hready : q.ready = none)
    (hfeeds : q.Feeds engine asked r)
    : p.Works asked (if r.status == .waiting then r else r.readFrame) := by
  cases hfeeds with
  | waits hidle htry => exact .waited hreceives hready hidle htry
  | @sends asked filled hfills =>
    have hstill : filled.holdNewSegment.ready = none := by
      rcases hfills.holdNewSegment_eq with ⟨pending, queued, phase, journal, hheld⟩
      rw [hheld]
      exact hready
    rw [if_neg (by rw [sendPending_status]; decide)]
    apply Works.fed hreceives hengine hready hfills
    apply receives_readFrame
    . exact (filled.holdNewSegment.sendPending_engine engine).1
    . exact (filled.holdNewSegment.sendPending_ready engine).trans hstill

theorem doWork_works (p : Pipeline ω ε φ ρ) : ∃ asked, p.Works asked p.doWork := by
  cases hengine : p.engine with
  | none =>
    refine ⟨none, ?_⟩
    rw [show p.doWork = { p with status := .ended } by unfold doWork; rw [hengine]; rfl]
    exact .detached hengine
  | some engine =>
    have hattached : p.engine.isSome := Option.isSome_of_eq_some hengine
    cases hready : p.ready with
    | some frame =>
      have hstored : p.ready.isSome := Option.isSome_of_eq_some hready
      refine ⟨none, ?_⟩
      rw [doWork_of_ready p hattached hstored]
      exact .kept hattached hstored
    | none =>
      have hreceives := p.receives_readFrame hengine hready
      cases hread : p.readFrame.ready with
      | some frame =>
        have hstored : p.readFrame.ready.isSome := Option.isSome_of_eq_some hread
        rw [doWork_of_stored p hattached hstored]
        exact ⟨none, .stopped hreceives (.inl hstored)⟩
      | none =>
        rw [doWork_of_idle p hattached hread]
        cases hkept : p.readFrame.engine with
        | none =>
          rw [feedPacket_of_detached _ hkept, readFrame_of_detached _ hkept, ite_self]
          exact ⟨none, .stopped hreceives (.inr hkept)⟩
        | some engine' =>
          rcases p.readFrame.feedPacket_feeds hkept hread with ⟨asked, hfeeds⟩
          exact ⟨asked, hfeeds.works hreceives hkept hread⟩

end Work

end Pipeline
end DecodePipeline
