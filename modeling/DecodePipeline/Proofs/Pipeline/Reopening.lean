import DecodePipeline.Proofs.Pipeline.Lifecycle
import DecodePipeline.Proofs.Pipeline.Phases

/-!
This module contains what is left of the stream before when the user opens a decoder: nothing, unless a
segment change has failed before and the pipeline was not reset. Then the change counts as still going
on, and the bounds of the segment before it stay.
-/

namespace DecodePipeline.Pipeline

variable {ω ε φ ρ : Type}

structure Forgets (p : Pipeline ω ε φ ρ) : Prop where
  pending : p.pending = none
  ready : p.ready = none
  startCut : p.startCut = none
  timeline : p.timeline = {}

def StartsAfresh (p : Pipeline ω ε φ ρ) : Prop := p.segments = {} ∧ p.Forgets

variable [Engine ω ε] {p q : Pipeline ω ε φ ρ}

section Opening

theorem forgets_openDecoder (p : Pipeline ω ε φ ρ) (codec : SharedCodec)
    : (p.openDecoder codec).2.Forgets := by
  have houtline := outline_openDecoder (.nothing ω ε) p codec
  refine ⟨?_, ?_, ?_, (p.openDecoder_forgets codec).1⟩
  . exact congrArg Outline.pending houtline
  . exact congrArg Outline.ready houtline
  . exact congrArg Outline.startCut houtline

theorem startsAfresh_openDecoder_iff (p : Pipeline ω ε φ ρ) (codec : SharedCodec)
    : (p.openDecoder codec).2.StartsAfresh ↔ p.segments.phase ≠ .switching := by
  unfold StartsAfresh
  rw [openDecoder_segments, and_iff_left (p.forgets_openDecoder codec)]
  split
  . next hswitching =>
    refine iff_of_false ?_ (not_not_intro hswitching)
    intro hnone
    rw [hnone] at hswitching
    cases hswitching
  . next hphase => exact iff_of_true rfl hphase

theorem openWith_startsAfresh {codec : SharedCodec} {drivers : List (Driver ω ε)} {feed : φ}
    {shared : ω} {options : DecoderOptions} {now : UInt64} {result : Except OpenError Unit}
    (hopen : openWith codec drivers feed shared options now = (result, p))
    : p.StartsAfresh := by
  have hafresh := ((create codec drivers feed shared options now :
    Pipeline ω ε φ ρ).startsAfresh_openDecoder_iff codec).mpr (by simp [create])
  unfold openWith at hopen
  rw [hopen] at hafresh
  exact hafresh

end Opening

section History

theorem Receives.segments_of_switching (hreceives : p.Receives q) (hattached : q.engine.isSome)
    (hphase : q.segments.phase = .switching)
    : q.segments = p.segments := by
  rcases hreceives.kept hattached with hkept | ⟨packet, -, hentered, -⟩
  . exact hkept
  . rw [hentered] at hphase
    cases hphase

variable [PacketFeed φ] [PacketRecorder ρ]

theorem Works.segments_of_switching {asked : Option (Poll Packet)} (hworks : p.Works asked q)
    (hattached : q.engine.isSome) (hphase : q.segments.phase = .switching)
    : q.segments = p.segments := by
  cases hworks with
  | detached | kept => rfl
  | stopped hreceives => exact hreceives.segments_of_switching hattached hphase
  | waited hreceives => exact hreceives.segments_of_switching hattached hphase
  | @fed asked r filled q engine hreceives hengine _ hfills hagain =>
    have hsame := hagain.segments_of_switching hattached hphase
    rw [hsame] at hphase ⊢
    rcases (hfills.sent_segments engine).2 with hsent | ⟨packet, -, hsent⟩
    . rw [hsent] at hphase ⊢
      exact hreceives.segments_of_switching (by rw [hengine]; rfl) hphase
    . rw [hsent] at hphase
      cases hphase

/--
The pipeline `p` has lost its decoder in a step, at the start of a segment with another codec, and was
not reset since then.
-/
def HasFailed (start p : Pipeline ω ε φ ρ) (operations : List (Operation φ ρ)) : Prop :=
  ∃ before after, operations = before ++ .work :: after ∧ .reset ∉ after
    ∧ (start.after before).hasDecoder ∧ (start.after before).doWork.hasDecoder = false
    ∧ p.segments = { bounds := (start.after before).segments.bounds, phase := .switching }

theorem HasFailed.concat {start : Pipeline ω ε φ ρ} {operations : List (Operation φ ρ)}
    (hfailed : start.HasFailed p operations) {operation : Operation φ ρ}
    (hreset : operation ≠ .reset) (hsegments : q.segments = p.segments)
    : start.HasFailed q (operations ++ [operation]) := by
  rcases hfailed with ⟨before, after, rfl, hafter, hattached, hlost, hleft⟩
  refine ⟨before, after ++ [operation], ?_, ?_, hattached, hlost, hsegments.trans hleft⟩
  . rw [List.append_assoc, List.cons_append]
  . rw [List.mem_append, List.mem_singleton, not_or]
    exact ⟨hafter, hreset.symm⟩

theorem hasFailed_after (start : Pipeline ω ε φ ρ) (hstart : start.segments.phase ≠ .switching)
    (operations : List (Operation φ ρ))
    (hphase : (start.after operations).segments.phase = .switching)
    : start.HasFailed (start.after operations) operations := by
  induction operations using List.reverseRecOn with
  | nil => exact absurd hphase hstart
  | append_singleton operations operation ih =>
    have hafter : start.after (operations ++ [operation])
        = (start.after operations).perform operation := start.after_append operations [operation]
    rw [hafter] at hphase ⊢
    generalize hp : start.after operations = p at ih hphase ⊢
    cases operation with
    | work =>
      rcases p.doWork_works with ⟨asked, hworks⟩
      change p.doWork.segments.phase = .switching at hphase
      change start.HasFailed p.doWork _
      cases hkept : p.doWork.engine with
      | some engine =>
        have hsame := hworks.segments_of_switching (by rw [hkept]; rfl) hphase
        exact (ih (hsame ▸ hphase)).concat (by simp) hsame
      | none =>
        cases hengine : p.engine with
        | none =>
          have hsame : p.doWork.segments = p.segments := by
            unfold doWork
            rw [hengine]
            rfl
          exact (ih (hsame ▸ hphase)).concat (by simp) hsame
        | some engine =>
          have hattached : p.engine.isSome := Option.isSome_of_eq_some hengine
          refine ⟨operations, [], rfl, by simp, ?_, ?_, ?_⟩
          . rw [hp]
            exact hattached
          . rw [hp, hasDecoder, hkept]
            rfl
          . rw [hp]
            exact p.doWork_lost hattached hkept
    | reset =>
      change p.reset.segments.phase = .switching at hphase
      rw [reset_segments] at hphase
      cases hphase
    | openDecoder codec =>
      have hsegments := p.openDecoder_segments codec
      change (p.openDecoder codec).2.segments.phase = .switching at hphase
      split at hsegments
      . next hswitching => exact (ih hswitching).concat (by simp) hsegments
      . rw [hsegments] at hphase
        cases hphase
    | take => exact (ih (p.getFrame_segments ▸ hphase)).concat (by simp) p.getFrame_segments
    | setStart | setFramedrop | resetParams | attachRecorder | detachRecorder | refill | wait =>
      exact (ih hphase).concat (by simp) rfl

/--
Whatever the engines and the feed did: a decoder that the user opens starts afresh, as if the pipeline was
opened with it, except in the middle of a segment change. That is where a step has left a pipeline that
lost its decoder and was not reset since then. Everything is forgotten then as well, but the change still
counts as going on, and the bounds are those of the segment before it.
-/
theorem opened_startsAfresh_iff (codec : SharedCodec) (drivers : List (Driver ω ε)) (feed : φ)
    (shared : ω) (options : DecoderOptions) (now : UInt64) (operations : List (Operation φ ρ))
    (next : SharedCodec)
    : let start : Pipeline ω ε φ ρ := create codec drivers feed shared options now
      let p := start.after operations
      let q := (p.openDecoder next).2
      (∀ fresh : Pipeline ω ε φ ρ,
          openWith next drivers feed shared options now = (.ok (), fresh) → fresh.StartsAfresh)
        ∧ ((p.openDecoder next).1 = .ok () →
          q.Forgets ∧ q.hasDecoder
            ∧ (q.StartsAfresh ↔ p.segments.phase ≠ .switching)
            ∧ (p.segments.phase = .switching →
              q.segments = p.segments ∧ start.HasFailed p operations)) := by
  intro start p q
  refine ⟨fun fresh hopen => openWith_startsAfresh hopen, ?_⟩
  intro hopen
  have houtline := outline_openDecoder (.nothing ω ε) p next
  refine ⟨p.forgets_openDecoder next, ?_, p.startsAfresh_openDecoder_iff next, ?_⟩
  . refine (congrArg Outline.attached houtline).trans ?_
    dsimp only
    rw [hopen]
    rfl
  . intro hphase
    refine ⟨?_, hasFailed_after start (by simp [start, create]) operations hphase⟩
    exact (p.openDecoder_segments next).trans (if_pos hphase)

def foreignStart : Pipeline Unit RawVideoEngine PacketChannel Collection :=
  create sampleCodec defaultDrivers foreignFeed () {} 0

theorem sample_opened_startsAfresh_iff
    : let before : List (Operation PacketChannel Collection) :=
        [.openDecoder sampleCodec, .work, .work]
      let operations : List (Operation PacketChannel Collection) := before ++ [.take, .work]
      let p := foreignStart.after before
      let lost := foreignStart.after operations
      p.ready.isSome ∧ (p.openDecoder sampleCodec).1 = .ok ()
        ∧ (p.openDecoder sampleCodec).2.StartsAfresh
        ∧ (lost.openDecoder sampleCodec).1 = .ok ()
        ∧ ¬ (lost.openDecoder sampleCodec).2.StartsAfresh
        ∧ foreignStart.HasFailed lost operations := by
  intro before operations p lost
  have hready : p.ready.isSome := by decide +kernel
  have hphase : p.segments.phase ≠ .switching := by decide +kernel
  have hopen : (p.openDecoder sampleCodec).1 = .ok () := by decide +kernel
  have hlost : lost.segments.phase = .switching := by decide +kernel
  have hreopen : (lost.openDecoder sampleCodec).1 = .ok () := by decide +kernel
  have hkept := (opened_startsAfresh_iff sampleCodec defaultDrivers foreignFeed () {} 0 before
    sampleCodec).2 hopen
  have hfailed := (opened_startsAfresh_iff sampleCodec defaultDrivers foreignFeed () {} 0 operations
    sampleCodec).2 hreopen
  rcases hkept with ⟨-, -, hafresh, -⟩
  rcases hfailed with ⟨-, -, hstuck, hhistory⟩
  refine ⟨hready, hopen, hafresh.mpr hphase, hreopen, ?_, (hhistory hlost).2⟩
  intro hclean
  exact hstuck.mp hclean hlost

/-- The packets of the new stream are measured against the bounds of an old segment. -/
theorem opened_in_failed_change
    : let p := foreignStart.after [.openDecoder sampleCodec, .work, .work, .take, .work]
      let q := (p.openDecoder sampleCodec).2
      (p.openDecoder sampleCodec).1 = .ok ()
        ∧ q.segments = { bounds := samplePacket.bounds, phase := .switching } := by
  decide +kernel

end History

end DecodePipeline.Pipeline
