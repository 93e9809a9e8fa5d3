import DecodePipeline.Proofs.Pipeline.Reporting
import DecodePipeline.Proofs.Playback.Wakeup

/-!
This module contains what the stage makes of the reports of its pipeline: it is never told of a frame that
it does not get, and it sleeps only while the pipeline holds no packet.
-/

namespace DecodePipeline

namespace Playback

variable {ω ε ρ : Type} {s s' : Playback ω ε ρ}

structure Heeds (s : Playback ω ε ρ) : Prop where
  reports : s.pipeline.Reports
  idle : s.stage = .sleeping → s.pipeline.held = []

structure Passes (s s' : Playback ω ε ρ) : Prop where
  engine : s'.pipeline.engine = s.pipeline.engine
  ready : s'.pipeline.ready = s.pipeline.ready
  status : s'.pipeline.status = s.pipeline.status
  held : s'.pipeline.held = s.pipeline.held
  asleep : s'.stage = .sleeping → s.stage = .sleeping

theorem Heeds.of_passes (hheeds : s.Heeds) (hpasses : s.Passes s') : s'.Heeds := by
  refine ⟨?_, ?_⟩
  . unfold Pipeline.Reports
    rw [hpasses.ready, hpasses.status, hpasses.engine]
    exact hheeds.reports
  . rw [hpasses.held]
    exact fun hstage => hheeds.idle (hpasses.asleep hstage)

theorem passes_of_deliver {frame : Frame} (hstep : s.deliver frame = some s') : s.Passes s' := by
  unfold deliver at hstep
  split at hstep
  . cases hstep
    exact ⟨rfl, rfl, rfl, rfl, by simp⟩
  . cases hstep
  . cases hstep
    exact ⟨rfl, rfl, rfl, rfl, by simp⟩

theorem passes_of_dismiss [PacketRecorder ρ] (s : Playback ω ε ρ) : s.Passes s.dismiss := by
  unfold dismiss
  dsimp only
  split
  . exact ⟨rfl, rfl, rfl, rfl, by simp⟩
  . exact ⟨rfl, rfl, rfl, rfl, by simp⟩

variable [Engine ω ε] [PacketRecorder ρ]

theorem passes_of_stage (hstage : s.stage ≠ .working) (hstep : s.stepStage = some s')
    : s.Passes s' := by
  unfold stepStage at hstep
  cases hphase : s.stage with
  | working => exact absurd hphase hstage
  | sleeping =>
    rw [hphase] at hstep
    rcases awake_cases hstep with ⟨-, rfl⟩
    exact ⟨rfl, rfl, rfl, rfl, fun _ => hphase⟩
  | delivering frame =>
    rw [hphase] at hstep
    exact passes_of_deliver hstep
  | finishing =>
    rw [hphase] at hstep
    cases hstep
    exact ⟨rfl, rfl, rfl, rfl, by simp [finish]⟩
  | finished =>
    rw [hphase] at hstep
    cases hstep
    exact s.passes_of_dismiss
  | gone =>
    rw [hphase] at hstep
    cases hstep

theorem Heeds.workStep (hheeds : s.Heeds) (hstage : s.stage = .working) : s.work.Heeds := by
  rcases work_cases hstage with ⟨stage, frames, hwork, -, -, hsleeping⟩
  have houtline := Pipeline.outline_getFrame (.nothing ω ε) s.pipeline.doWork
  rw [hwork]
  refine ⟨Pipeline.reports_of_none _ (congrArg Outline.ready houtline), ?_⟩
  intro hstage
  rcases s.pipeline.doWork_works with ⟨asked, hworks⟩
  have hasked := (hworks.reports hheeds.reports).2.2.mp (hsleeping hstage).2
  rw [← hworks.held_of_empty hasked]
  unfold Pipeline.held
  rw [show s.pipeline.doWork.getFrame.2.2.pending = s.pipeline.doWork.pending
      from congrArg Outline.pending houtline,
    show s.pipeline.doWork.getFrame.2.2.segments = s.pipeline.doWork.segments
      from congrArg Outline.segments houtline]

theorem Heeds.step (hheeds : s.Heeds) {actor : Actor} (hstep : s.step actor = some s')
    : s'.Heeds := by
  cases actor with
  | producer index =>
    rcases step_producers hstep with ⟨producer, producer', feed, -, -, rfl⟩
    exact hheeds.of_passes ⟨rfl, rfl, rfl, rfl, fun hstage => hstage⟩
  | consumer =>
    rcases stepConsumer_cases hstep with ⟨-, ⟨frame, queue, -, rfl⟩ | ⟨-, -, rfl⟩⟩
    . exact hheeds.of_passes ⟨rfl, rfl, rfl, rfl, fun hstage => hstage⟩
    . exact hheeds.of_passes ⟨rfl, rfl, rfl, rfl, fun hstage => hstage⟩
  | stage =>
    by_cases hstage : s.stage = .working
    . unfold Playback.step stepStage at hstep
      rw [hstage] at hstep
      cases hstep
      exact hheeds.workStep hstage
    . exact hheeds.of_passes (passes_of_stage hstage hstep)

theorem Heeds.move (hheeds : s.Heeds) {move : Move} (hmove : s.move move = some s')
    : s'.Heeds := by
  cases move with
  | act actor => exact hheeds.step hmove
  | join index packets =>
    rcases Option.map_eq_some_iff.mp hmove with ⟨producer, -, rfl⟩
    exact hheeds.of_passes ⟨rfl, rfl, rfl, rfl, fun hstage => hstage⟩
  | echo =>
    cases hmove
    exact hheeds.of_passes ⟨rfl, rfl, rfl, rfl, fun hstage => hstage⟩

theorem Heeds.moves (hheeds : s.Heeds) {history : List Move} (hmoves : s.moves history = some s')
    : s'.Heeds := by
  induction history generalizing s with
  | nil =>
    cases hmoves
    exact hheeds
  | cons move history ih =>
    rcases Option.bind_eq_some_iff.mp hmoves with ⟨next, hmove, hrest⟩
    exact ih (hheeds.move hmove) hrest

end Playback

namespace Pipeline

variable {ω ε φ ρ : Type} [Engine ω ε] [PacketFeed φ] [PacketRecorder ρ]

/--
Whatever the engines and the feed do: a frame is ready only while the pipeline says so and has a decoder.
A step reads the feed at most once, it says that a frame is ready if there is one, and it says that it
waits if the feed was just read and had nothing. Then it has sent nothing and holds no packet. A taker
that comes after the step is told the same, and gets a frame if it is told that one is ready. So the
stage of a playback gets every frame that it is told of, and holds no packet while it sleeps.
-/
theorem reports_what_it_did (codec : SharedCodec) (drivers : List (Driver ω ε)) (feed : φ) (shared : ω)
    (options : DecoderOptions) (now : UInt64) (operations : List (Operation φ ρ))
    : (let p : Pipeline (TracedShared ω) (TracedEngine ε) (TracedFeed φ) ρ :=
        (createTraced codec drivers feed shared options now).afterTraced operations
      let q := p.doWork
      p.untraced drivers = (create codec drivers feed shared options now).after operations
        ∧ q.untraced drivers
          = ((create codec drivers feed shared options now).after operations).doWork
        ∧ (p.ready.isSome → p.status = .ready ∧ p.hasDecoder)
        ∧ (q.status = .ready ↔ q.ready.isSome)
        ∧ (∃ asked : Option (Poll Packet), q.feed.polls = p.feed.polls ++ asked.toList
          ∧ (q.status = .waiting ↔ asked = some .empty))
        ∧ (q.status = .waiting →
          q.shared.sendings = p.shared.sendings ∧ q.pending = none ∧ q.segments.queued = none)
        ∧ q.getFrame.2.1 = q.status
        ∧ (q.getFrame.1.isSome ↔ q.status = .ready))
      ∧ ∀ (channel : PacketChannel) (before : List (Operation PacketChannel ρ)) (packets : List Packet)
          (output : Channel Frame),
          ∃ first,
            Playback.start ((create codec drivers channel shared options now).after before) packets
                (some output) = .ok first
              ∧ ∀ history s, first.moves history = some s →
                (s.pipeline.doWork.getFrame.2.1 = .ready ↔ s.pipeline.doWork.getFrame.1.isSome)
                  ∧ (s.stage = .sleeping →
                    s.pipeline.pending = none ∧ s.pipeline.segments.queued = none) := by
  refine ⟨?_, ?_⟩
  . intro p q
    have huntraced : p.untraced drivers
        = (create codec drivers feed shared options now).after operations :=
      untraced_createTraced codec drivers feed shared options now operations
    have htraces : p.HasTraces := ⟨drivers, afterTraced_drivers _ operations⟩
    have hreports : p.Reports :=
      reports_createTraced codec drivers feed shared options now operations
    rcases p.doWork_works with ⟨asked, hworks⟩
    rcases hworks.reports hreports with ⟨hkept, hstored, hwaiting⟩
    refine ⟨huntraced, ?_, hreports, ⟨hstored, fun hready => (hkept hready).1⟩,
      ⟨asked, hworks.polls, hwaiting⟩, ?_, getFrame_status hkept hstored⟩
    . rw [untraced_doWork p (afterTraced_drivers _ operations), huntraced]
    . intro hstatus
      have hasked := hwaiting.mp hstatus
      exact ⟨hworks.sendings_of_empty htraces hasked,
        q.held_eq_nil.mp (hworks.held_of_empty hasked)⟩
  . intro channel before packets output
    have hcreated : (create codec drivers channel shared options now : Pipeline ω ε _ ρ).Reports :=
      reports_of_none _ rfl
    refine ⟨_, rfl, ?_⟩
    intro history s hmoves
    have hheeds : s.Heeds := by
      refine Playback.Heeds.moves ⟨hcreated.after before, ?_⟩ hmoves
      intro hstage
      cases hstage
    rcases s.pipeline.doWork_works with ⟨asked, hworks⟩
    rcases hworks.reports hheeds.reports with ⟨hkept, hstored, -⟩
    rcases getFrame_status hkept hstored with ⟨hsame, hgiven⟩
    refine ⟨?_, fun hstage => s.pipeline.held_eq_nil.mp (hheeds.idle hstage)⟩
    rw [hsame]
    exact hgiven.symm

theorem sample_reports_what_it_did
    : let operations : List (Operation PacketChannel Collection) :=
        [.openDecoder sampleCodec, .work, .work, .take]
      let p := sampleTraced.afterTraced operations
      p.doWork.status = .waiting
        ∧ p.doWork.shared.sendings = p.shared.sendings
        ∧ p.doWork.pending = none ∧ p.doWork.segments.queued = none := by
  intro operations p
  have hwaiting : p.doWork.status = .waiting := by decide +kernel
  rcases reports_what_it_did sampleCodec defaultDrivers (sampleFeed [samplePacket]) () {} 0
    operations with ⟨⟨-, -, -, -, -, hidle, -⟩, -⟩
  exact ⟨hwaiting, hidle hwaiting⟩

end Pipeline

end DecodePipeline
