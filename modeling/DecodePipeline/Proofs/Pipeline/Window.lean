import Mathlib.Data.List.Induction
import DecodePipeline.Proofs.Pipeline.Feeding

/-!
This module contains the safety of the frames that a pipeline hands out: they lie in the window of the
segment that the pipeline reports, from the step that stores them until they are taken.
-/

namespace DecodePipeline.Pipeline

variable {ω ε φ ρ : Type}

structure Offers (p : Pipeline ω ε φ ρ) (frame : Frame) (pts : Timestamp) : Prop where
  ready : p.ready = some frame
  attached : p.engine.isSome
  time : frame.pts = some pts
  kept : p.excludes pts = false

structure SameWindow (p q : Pipeline ω ε φ ρ) : Prop where
  ready : q.ready = p.ready
  attached : q.engine.isSome = p.engine.isSome
  bounds : q.segments.bounds = p.segments.bounds

theorem SameWindow.refl (p : Pipeline ω ε φ ρ) : p.SameWindow p := ⟨rfl, rfl, rfl⟩

theorem SameWindow.trans {p q r : Pipeline ω ε φ ρ} (hpq : p.SameWindow q) (hqr : q.SameWindow r)
    : p.SameWindow r :=
  ⟨hqr.ready.trans hpq.ready, hqr.attached.trans hpq.attached, hqr.bounds.trans hpq.bounds⟩

theorem not_lt_of_excludes (p : Pipeline ω ε φ ρ) {pts : Timestamp} (hkept : p.excludes pts = false)
    : (∀ cut, p.startCut = some cut → ¬ pts < cut)
        ∧ (∀ start, p.segments.bounds.start = some start → ¬ pts < start)
        ∧ (∀ stop, p.segments.bounds.stop = some stop → ¬ stop ≤ pts) := by
  unfold excludes SegmentBounds.isPastEnd SegmentBounds.isBeforeStart at hkept
  simp only [Bool.or_eq_false_iff] at hkept
  obtain ⟨⟨hstop, hcut⟩, hstart⟩ := hkept
  refine ⟨?_, ?_, ?_⟩
  . intro cut hsome
    simpa [hsome] using hcut
  . intro start hsome
    simpa [hsome] using hstart
  . intro stop hsome
    simpa [hsome] using hstop

variable [Engine ω ε]

theorem switchSegment_ready (p : Pipeline ω ε φ ρ) (hready : p.ready = none)
    : p.switchSegment.ready = none := by
  cases hqueued : p.segments.queued with
  | none =>
    rw [switchSegment_of_queued_none p hqueued]
    exact hready
  | some packet =>
    cases hkind : SegmentTracker.switchKind packet p.codec with
    | «continue» =>
      exact congrArg Outline.ready
        (outline_switchSegment_continue (.nothing ω ε) p hqueued hkind)
    | reinit codec =>
      exact congrArg Outline.ready (outline_switchSegment_reinit (.nothing ω ε) p hqueued hkind)

theorem readFrame_offers (p : Pipeline ω ε φ ρ) (hready : p.ready = none) {frame : Frame}
    (hframe : p.readFrame.ready = some frame)
    : ∃ pts, p.readFrame.Offers frame pts := by
  rcases readFrame_cases (.nothing ω ε) p with ⟨q, houtline, hcases⟩
  have hq : q.ready = none := (congrArg Outline.ready houtline).trans hready
  rcases hcases with hread | ⟨hattached, -, stored, pts, hpts, hexcludes, hread⟩ | ⟨-, -, hread⟩
  . rw [hread, hq] at hframe
    simp at hframe
  . have hqengine : q.engine.isSome := (congrArg Outline.attached houtline).trans hattached
    rw [hread] at hframe ⊢
    have hstored : stored = frame := by simpa using hframe
    rw [hstored] at hpts ⊢
    exact ⟨pts, rfl, hqengine, hpts, hexcludes⟩
  . rw [hread, switchSegment_ready q hq] at hframe
    simp at hframe

theorem feedPacket_sameWindow [PacketFeed φ] [PacketRecorder ρ] (p : Pipeline ω ε φ ρ)
    : p.SameWindow p.feedPacket := by
  obtain ⟨feed, engines, pending, queued, phase, houtline⟩ :=
    outline_feedPacket (.nothing ω ε) p
  simp only [outline, Outline.mk.injEq] at houtline
  exact ⟨by simp [houtline], by simp [houtline], by simp [houtline]⟩

variable [PacketFeed φ] [PacketRecorder ρ]

theorem doWork_of_ready (p : Pipeline ω ε φ ρ) (hattached : p.engine.isSome)
    (hready : p.ready.isSome)
    : p.doWork = p := by
  have hengine : p.engine.isNone = false := by simpa using hattached
  unfold doWork
  simp [hengine, readFrame_of_ready p hready, hready]

theorem doWork_offers (p : Pipeline ω ε φ ρ) (hready : p.ready = none) {frame : Frame}
    (hframe : p.doWork.ready = some frame)
    : ∃ pts, p.doWork.Offers frame pts := by
  unfold doWork at hframe ⊢
  split at hframe
  . simp [hready] at hframe
  . next hattached =>
    rw [if_neg hattached]
    dsimp only at hframe ⊢
    cases hread : p.readFrame.ready with
    | some stored =>
      simp only [hread, Option.isSome_some, if_true] at hframe ⊢
      obtain rfl : stored = frame := by simpa using hframe
      exact readFrame_offers p hready hread
    | none =>
      have hfed : p.readFrame.feedPacket.ready = none :=
        (feedPacket_sameWindow p.readFrame).ready.trans hread
      simp only [hread, Option.isSome_none, Bool.false_eq_true, if_false] at hframe ⊢
      split at hframe
      . rw [hfed] at hframe
        simp at hframe
      . next hwaiting =>
        rw [if_neg hwaiting]
        exact readFrame_offers p.readFrame.feedPacket hfed hframe

theorem perform_window (p : Pipeline ω ε φ ρ) (operation : Operation φ ρ)
    (hattached : p.ready.isSome → p.engine.isSome) {frame : Frame}
    (hframe : (p.perform operation).ready = some frame)
    : p.SameWindow (p.perform operation)
        ∨ (operation = .work ∧ p.ready = none ∧ ∃ pts, p.doWork.Offers frame pts) := by
  cases operation with
  | work =>
    cases hready : p.ready with
    | none => exact .inr ⟨rfl, rfl, doWork_offers p hready hframe⟩
    | some stored =>
      have hsome : p.ready.isSome := by simp [hready]
      left
      unfold perform
      rw [doWork_of_ready p (hattached hsome) hsome]
      exact .refl p
  | take =>
    have hready : p.getFrame.2.2.ready = none :=
      congrArg Outline.ready (outline_getFrame (.nothing ω ε) p)
    rw [perform, hready] at hframe
    simp at hframe
  | reset =>
    have hready : p.reset.ready = none :=
      congrArg Outline.ready (outline_reset (.nothing ω ε) p)
    rw [perform, hready] at hframe
    simp at hframe
  | openDecoder codec =>
    have hready : (p.openDecoder codec).2.ready = none :=
      congrArg Outline.ready (outline_openDecoder (.nothing ω ε) p codec)
    rw [perform, hready] at hframe
    simp at hframe
  | setStart | setFramedrop | resetParams | attachRecorder | detachRecorder | refill | wait =>
    exact .inl ⟨rfl, rfl, rfl⟩

structure KeptSince (p : Pipeline ω ε φ ρ) (first rest : List (Operation φ ρ)) (frame : Frame)
    (pts : Timestamp) : Prop where
  -- A frame was stored after the first operations and has been ready ever since.
  idle : (p.after first).ready = none
  stored : (p.after first).doWork.Offers frame pts
  kept : ∀ done, done <+: rest → (p.after first).doWork.SameWindow ((p.after first).doWork.after done)

theorem KeptSince.snoc {p : Pipeline ω ε φ ρ} {first rest : List (Operation φ ρ)} {frame : Frame}
    {pts : Timestamp} (hkept : p.KeptSince first rest frame pts) (operation : Operation φ ρ)
    (hsame : (p.after (first ++ .work :: rest)).SameWindow
      ((p.after (first ++ .work :: rest)).perform operation))
    : p.KeptSince first (rest ++ [operation]) frame pts := by
  refine ⟨hkept.idle, hkept.stored, ?_⟩
  intro done hdone
  rcases List.prefix_concat_iff.mp hdone with rfl | hprefix
  . rw [after_append, after_cons] at hsame
    rw [after_append]
    exact (hkept.kept rest (List.prefix_refl rest)).trans hsame
  . exact hkept.kept done hprefix

theorem KeptSince.sameWindow {p : Pipeline ω ε φ ρ} {first rest : List (Operation φ ρ)}
    {frame : Frame} {pts : Timestamp} (hkept : p.KeptSince first rest frame pts)
    : (p.after first).doWork.SameWindow (p.after (first ++ .work :: rest)) := by
  rw [after_append, after_cons]
  exact hkept.kept rest (List.prefix_refl rest)

theorem exists_keptSince (p : Pipeline ω ε φ ρ) (hstart : p.ready = none)
    (operations : List (Operation φ ρ)) {frame : Frame}
    (hready : (p.after operations).ready = some frame)
    : ∃ first rest pts, operations = first ++ .work :: rest ∧ p.KeptSince first rest frame pts := by
  induction operations using List.reverseRecOn generalizing frame with
  | nil =>
    rw [after_nil, hstart] at hready
    simp at hready
  | append_singleton operations operation ih =>
    rw [after_append, after_cons, after_nil] at hready
    have hattached : (p.after operations).ready.isSome → (p.after operations).engine.isSome := by
      intro hsome
      obtain ⟨stored, hstored⟩ := Option.isSome_iff_exists.mp hsome
      obtain ⟨first, rest, pts, rfl, hkept⟩ := ih hstored
      rw [hkept.sameWindow.attached]
      exact hkept.stored.attached
    rcases perform_window _ operation hattached hready with hsame | ⟨rfl, hidle, pts, hoffers⟩
    . obtain ⟨first, rest, pts, rfl, hkept⟩ := ih (hsame.ready.symm.trans hready)
      exact ⟨first, rest ++ [operation], pts, by simp, hkept.snoc operation hsame⟩
    . refine ⟨operations, [], pts, rfl, hidle, hoffers, ?_⟩
      intro done hdone
      rw [List.prefix_nil.mp hdone]
      exact .refl _

/--
One of the operations stored the frame when its time was not before the start that was set then. After
this and every later operation the frame is ready to be taken, a decoder is open, and the pipeline
reports the same window, in which the frame lies.
-/
def WasStoredInWindow (p : Pipeline ω ε φ ρ) (operations : List (Operation φ ρ)) (frame : Frame) :
    Prop :=
  ∃ first rest pts, operations = first ++ .work :: rest ∧ frame.pts = some pts
    ∧ (p.after first).ready = none
    ∧ (∀ cut, (p.after first).doWork.startCut = some cut → ¬ pts < cut)
    ∧ ∀ done, done <+: rest →
      let q := (p.after first).doWork.after done
      q.getFrame.1 = some frame ∧ q.hasDecoder
        ∧ q.segments.bounds = (p.after first).doWork.segments.bounds
        ∧ (∀ start, q.segments.bounds.start = some start → ¬ pts < start)
        ∧ (∀ stop, q.segments.bounds.stop = some stop → ¬ stop ≤ pts)

/-- Whatever the engines and the feed do, no frame is ready outside the window that is reported. -/
theorem ready_in_window (codec : SharedCodec) (drivers : List (Driver ω ε)) (feed : φ) (shared : ω)
    (options : DecoderOptions) (now : UInt64) (operations : List (Operation φ ρ)) {frame : Frame}
    (hready : ((create codec drivers feed shared options now).after operations).ready = some frame)
    : (create codec drivers feed shared options now).WasStoredInWindow operations frame := by
  obtain ⟨first, rest, pts, hsplit, hkept⟩ := exists_keptSince _ rfl operations hready
  have hwindow := not_lt_of_excludes _ hkept.stored.kept
  refine ⟨first, rest, pts, hsplit, hkept.stored.time, hkept.idle, hwindow.1, ?_⟩
  intro done hdone
  have hsame := hkept.kept done hdone
  refine ⟨?_, ?_, hsame.bounds, ?_, ?_⟩
  . have hframe := hsame.ready.trans hkept.stored.ready
    simp [getFrame, hframe]
  . exact hsame.attached.trans hkept.stored.attached
  . rw [hsame.bounds]
    exact hwindow.2.1
  . rw [hsame.bounds]
    exact hwindow.2.2

def sampleStart : Pipeline Unit RawVideoEngine PacketChannel Collection :=
  create sampleCodec defaultDrivers (sampleFeed [samplePacket]) () {} 0

theorem sample_ready_in_window
    : ∃ frame,
        (sampleStart.after
            [.openDecoder sampleCodec, .work, .work, .setStart (some ⟨0⟩), .wait 1]).ready = some frame
          ∧ sampleStart.WasStoredInWindow
            [.openDecoder sampleCodec, .work, .work, .setStart (some ⟨0⟩), .wait 1] frame := by
  have hready : (sampleStart.after
      [.openDecoder sampleCodec, .work, .work, .setStart (some ⟨0⟩), .wait 1]).ready.isSome := by
    decide +kernel
  rcases Option.isSome_iff_exists.mp hready with ⟨frame, hframe⟩
  exact ⟨frame, hframe,
    ready_in_window sampleCodec defaultDrivers (sampleFeed [samplePacket]) () {} 0 _ hframe⟩

end DecodePipeline.Pipeline
