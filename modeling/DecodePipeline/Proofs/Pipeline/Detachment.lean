import DecodePipeline.Proofs.Pipeline.Logging
import DecodePipeline.Proofs.Pipeline.Phases

/-!
This module contains the fact that nothing happens in a pipeline without decoder until somebody opens one,
whether it never had a decoder or has lost it.
-/

namespace DecodePipeline.Pipeline

variable {ω ε φ ρ : Type}

section Operations

variable {p q : Pipeline ω ε φ ρ}

theorem getFrame_of_ready_none (hready : p.ready = none)
    : p.getFrame.1 = none ∧ p.getFrame.2.2 = p := by
  unfold getFrame
  rw [hready]
  exact ⟨rfl, rfl⟩

variable [Engine ω ε]

theorem doWork_of_detached [PacketFeed φ] [PacketRecorder ρ] (hengine : p.engine = none)
    : p.doWork = { p with status := .ended } := by
  unfold doWork
  rw [hengine]
  rfl

theorem reset_of_detached (hengine : p.engine = none)
    : p.reset.engine = none ∧ p.reset.shared = p.shared ∧ p.reset.feed = p.feed := by
  unfold reset resetSegment command
  rw [show (p.say .reset).engine = none from hengine]
  exact ⟨hengine, rfl, rfl⟩

variable [PacketFeed φ] [PacketRecorder ρ]

theorem perform_segments_of_detached (hengine : p.engine = none)
    (hphase : p.segments.phase = .switching) (operation : Operation φ ρ) (hreset : operation ≠ .reset)
    : (p.perform operation).segments = p.segments := by
  cases operation with
  | work =>
    rw [perform, doWork_of_detached hengine]
  | take => exact p.getFrame_segments
  | reset => exact absurd rfl hreset
  | openDecoder codec => exact (p.openDecoder_segments codec).trans (if_pos hphase)
  | setStart | setFramedrop | resetParams | attachRecorder | detachRecorder | refill | wait => rfl

end Operations

section Logs

variable {p q : Pipeline (LoggedShared ω) (LoggedEngine ε) (TracedFeed φ) ρ}

structure Idles (p q : Pipeline (LoggedShared ω) (LoggedEngine ε) (TracedFeed φ) ρ) : Prop where
  detached : q.engine = none
  shared : q.shared = p.shared
  polls : q.feed.polls = p.feed.polls
  health : q.health = p.health
  ready : q.ready = none

theorem idles_self (hp : p.Orderly) (hengine : p.engine = none) : p.Idles p :=
  ⟨hengine, rfl, rfl, rfl, (hp.idle hengine).1⟩

variable [Engine ω ε] [PacketFeed φ] [PacketRecorder ρ]

theorem Idles.perform (hq : p.Idles q) (operation : Operation φ ρ)
    (hopens : ∀ codec, operation ≠ .openDecoder codec)
    : p.Idles (q.perform (operation.lift TracedFeed.lift)) := by
  cases operation with
  | work =>
    rw [Operation.lift, Pipeline.perform, doWork_of_detached hq.detached]
    exact { hq with }
  | take =>
    rw [Operation.lift, Pipeline.perform, (getFrame_of_ready_none hq.ready).2]
    exact hq
  | reset =>
    rcases reset_of_detached hq.detached with ⟨hdetached, hshared, hfeed⟩
    refine ⟨hdetached, hshared.trans hq.shared, ?_, q.reset_health.trans hq.health, ?_⟩
    . refine (congrArg TracedFeed.polls hfeed).trans hq.polls
    . exact congrArg Outline.ready (outline_reset (.nothing _ _) q)
  | openDecoder codec => exact absurd rfl (hopens codec)
  | setStart | setFramedrop | resetParams | attachRecorder | detachRecorder | refill | wait =>
    exact { hq with }

theorem Idles.after (hp : p.Idles p) (operations : List (Operation φ ρ))
    (hopens : ∀ codec, .openDecoder codec ∉ operations)
    : p.Idles (p.afterLogged operations) := by
  apply afterLogged_induct (motive := p.Idles)
  . exact hp
  . intro q operation hmem hq
    apply hq.perform
    rintro codec rfl
    exact hopens codec hmem

theorem afterLogged_segments_of_detached (operations : List (Operation φ ρ))
    (hreset : .reset ∉ operations)
    (hdetached : ∀ first, first <+: operations → (p.afterLogged first).engine = none)
    (hphase : p.segments.phase = .switching)
    : (p.afterLogged operations).segments = p.segments := by
  induction operations using List.reverseRecOn with
  | nil => rfl
  | append_singleton operations operation ih =>
    rw [List.mem_append, not_or] at hreset
    have hbefore := ih hreset.1 fun first hfirst =>
      hdetached first (hfirst.trans (List.prefix_append _ _))
    rw [← hbefore] at hphase
    rw [afterLogged_concat, ← hbefore]
    apply perform_segments_of_detached
    . exact hdetached operations (List.prefix_append _ _)
    . exact hphase
    . intro hlift
      apply hreset.2
      cases operation with
      | reset => exact List.mem_singleton_self _
      | _ => cases hlift

end Logs

section Runs

variable [Engine ω ε] [PacketFeed φ] [PacketRecorder ρ]

theorem orderly_createLogged (codec : SharedCodec) (drivers : List (Driver ω ε)) (feed : φ)
    (shared : ω) (options : DecoderOptions) (now : UInt64) (operations : List (Operation φ ρ))
    : ((createLogged codec drivers feed shared options now).afterLogged operations).Orderly :=
  orderly_create codec (drivers.map Driver.logged) _ _ options now _

/--
Whatever the engines and the feed do: a pipeline without decoder holds no packet and no frame. Until a
decoder is opened it asks neither the feed nor any engine, counts nothing and hands out nothing, and its
steps say that it has ended. If a step has lost the decoder, the pipeline stays in the segment before and
in the middle of the change until it has a decoder again or is reset.
-/
theorem detached_is_inert (codec : SharedCodec) (drivers : List (Driver ω ε)) (feed : φ) (shared : ω)
    (options : DecoderOptions) (now : UInt64) (operations : List (Operation φ ρ))
    : let p : Pipeline (LoggedShared ω) (LoggedEngine ε) (TracedFeed φ) ρ :=
        (createLogged codec drivers feed shared options now).afterLogged operations
      p.unlogged drivers = (create codec drivers feed shared options now).after operations
        ∧ (p.hasDecoder = false →
          p.ready = none ∧ p.pending = none ∧ p.segments.queued = none
            ∧ ∀ more : List (Operation φ ρ), (∀ codec, .openDecoder codec ∉ more) →
              let q := p.afterLogged more
              q.hasDecoder = false ∧ q.feed.polls = p.feed.polls ∧ q.shared = p.shared
                ∧ q.health = p.health ∧ q.getFrame.1 = none ∧ q.doWork.status = .ended)
        ∧ (p.hasDecoder → p.doWork.hasDecoder = false →
          ∀ more : List (Operation φ ρ), .reset ∉ more →
            (∀ first, first <+: more → (p.doWork.afterLogged first).hasDecoder = false) →
              let q := p.doWork.afterLogged more
              q.segments = { bounds := p.segments.bounds, phase := .switching }
                ∧ (∀ other, (q.openDecoder other).2.segments = q.segments)
                ∧ q.reset.segments = {}) := by
  intro p
  have hp : p.Orderly := orderly_createLogged codec drivers feed shared options now operations
  refine ⟨unlogged_createLogged codec drivers feed shared options now operations, ?_, ?_⟩
  . intro hdetached
    have hengine : p.engine = none := by simpa [hasDecoder] using hdetached
    rcases hp.idle hengine with ⟨hready, hheld⟩
    rcases p.held_eq_nil.mp hheld with ⟨hpending, hqueued⟩
    refine ⟨hready, hpending, hqueued, ?_⟩
    intro more hopens q
    have hq : p.Idles q := (idles_self hp hengine).after more hopens
    refine ⟨?_, hq.polls, hq.shared, hq.health, (getFrame_of_ready_none hq.ready).1, ?_⟩
    . unfold hasDecoder
      rw [hq.detached]
      rfl
    . rw [doWork_of_detached hq.detached]
  . intro hattached hlost more hreset hdetached q
    have hleft : p.doWork.segments = { bounds := p.segments.bounds, phase := .switching } :=
      doWork_lost hattached (by simpa [hasDecoder] using hlost)
    have hsegments : q.segments = { bounds := p.segments.bounds, phase := .switching } := by
      rw [← hleft]
      apply afterLogged_segments_of_detached more hreset
      . intro first hfirst
        simpa [hasDecoder] using hdetached first hfirst
      . rw [hleft]
    refine ⟨hsegments, ?_, q.reset_segments⟩
    intro other
    rw [openDecoder_segments, if_pos (by rw [hsegments])]

def foreignLogged :
    Pipeline (LoggedShared Unit) (LoggedEngine RawVideoEngine) (TracedFeed PacketChannel)
      Collection :=
  createLogged sampleCodec defaultDrivers foreignFeed () {} 0

theorem sample_detached_is_inert
    : let operations : List (Operation PacketChannel Collection) :=
        [.openDecoder sampleCodec, .work, .work, .take]
      let p := foreignLogged.afterLogged operations
      let q := p.doWork.afterLogged [.work, .take, .setStart none, .reset]
      p.hasDecoder ∧ p.doWork.hasDecoder = false
        ∧ p.doWork.segments = { bounds := samplePacket.bounds, phase := .switching }
        ∧ q.feed.polls = p.doWork.feed.polls ∧ q.shared = p.doWork.shared
        ∧ q.doWork.status = .ended := by
  intro operations p q
  have hattached : p.hasDecoder := by decide +kernel
  have hlost : p.doWork.hasDecoder = false := by decide +kernel
  have hbounds : p.segments.bounds = samplePacket.bounds := by decide +kernel
  have hleft := (detached_is_inert sampleCodec defaultDrivers foreignFeed () {} 0 operations).2.2
  have hinert := (detached_is_inert sampleCodec defaultDrivers foreignFeed () {} 0
    (operations ++ [.work])).2.1
  have hworked : (createLogged sampleCodec defaultDrivers foreignFeed () {} 0).afterLogged
      (operations ++ [.work]) = p.doWork := afterLogged_concat _ operations .work
  dsimp only at hinert
  rw [hworked] at hinert
  have hstill (first : List (Operation PacketChannel Collection)) (hfirst : first <+: [])
      : (p.doWork.afterLogged first).hasDecoder = false := by
    rw [List.prefix_nil.mp hfirst]
    exact hlost
  have hsegments : p.doWork.segments = { bounds := p.segments.bounds, phase := .switching } :=
    (hleft hattached hlost [] (by simp) hstill).1
  rcases (hinert hlost).2.2.2 [.work, .take, .setStart none, .reset] (by simp)
    with ⟨-, hpolls, hshared, -, -, hended⟩
  rw [hbounds] at hsegments
  exact ⟨hattached, hlost, hsegments, hpolls, hshared, hended⟩

end Runs

end DecodePipeline.Pipeline
