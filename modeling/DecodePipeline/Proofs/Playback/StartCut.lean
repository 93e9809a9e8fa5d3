import DecodePipeline.Proofs.Pipeline.StartCut
import DecodePipeline.Proofs.Pipeline.Window
import DecodePipeline.Proofs.Playback.Completion

/-!
This module contains how long a playback respects the start of its pipeline: until a segment starts, and
to the end if the stream has no segments.
-/

namespace DecodePipeline

namespace Playback

variable {ω ε ρ : Type}

def Respects (s : Playback ω ε ρ) (cut : Timestamp) : Prop :=
  ∀ frame ∈ s.handed, ∃ pts, frame.pts = some pts ∧ ¬ pts < cut

structure Beside (s s' : Playback ω ε ρ) : Prop where
  ready : s'.pipeline.ready = s.pipeline.ready
  segments : s'.pipeline.segments = s.pipeline.segments
  startCut : s'.pipeline.startCut = s.pipeline.startCut
  journal : ∀ notice ∈ s.pipeline.journal, notice ∈ s'.pipeline.journal
  handed : ∀ frame ∈ s'.handed, frame ∈ s.handed
  todo : ∀ x ∈ s'.todo, x ∈ s.todo

section Steps

variable {s s' : Playback ω ε ρ}

theorem beside_of_consumer (hstep : s.stepConsumer = some s') : s.Beside s' := by
  rcases stepConsumer_cases hstep with ⟨-, ⟨frame, queue, hqueue, rfl⟩ | ⟨-, -, rfl⟩⟩
  . refine ⟨rfl, rfl, rfl, fun _ hmem => hmem, ?_, fun x hx => hx⟩
    intro other hother
    simpa [handed, hqueue, or_assoc] using hother
  . exact ⟨rfl, rfl, rfl, fun _ hmem => hmem, fun frame hframe => hframe, fun x hx => hx⟩

theorem beside_of_deliver {frame : Frame} (hstage : s.stage = .delivering frame)
    (hstep : s.deliver frame = some s')
    : s.Beside s' := by
  unfold deliver Channel.send at hstep
  split at hstep
  . next hsent =>
    split at hsent
    . cases hsent
    . split at hsent
      . cases hsent
      . cases hsent
        cases hstep
        refine ⟨rfl, rfl, rfl, fun _ hmem => hmem, ?_, fun x hx => hx⟩
        intro other hother
        simpa [handed, hstage, StagePhase.frame] using hother
  . cases hstep
  . cases hstep
    refine ⟨rfl, rfl, rfl, fun _ hmem => Array.mem_push_of_mem _ hmem, ?_,
      fun x hx => hx⟩
    intro other hother
    have hdelivered : other ∈ s.taken.toList ++ s.output.queue := by
      simpa [handed, say, StagePhase.frame] using hother
    exact List.mem_append_left _ hdelivered

variable [Engine ω ε] [PacketRecorder ρ]

theorem beside_of_producer {index : Nat} (hstep : s.step (.producer index) = some s')
    : s.Beside s' := by
  rcases step_producers hstep with ⟨producer, producer', feed, hget, hproducer, rfl⟩
  have hmem : producer ∈ s.producers := List.mem_of_getElem? hget
  have hwaiting : ∀ x ∈ feed.packets.queue ++ producer'.packets,
      x ∈ s.pipeline.feed.packets.queue ++ producer.packets := by
    rcases stepProducer_cases hproducer
      with ⟨x, packets, -, rfl, rfl, rfl⟩ | ⟨-, -, rfl, rfl⟩ | ⟨-, rfl, rfl⟩ | ⟨-, rfl, rfl⟩
    . intro y hy
      simpa using hy
    . exact fun x hx => hx
    . exact fun x hx => hx
    . exact fun x hx => hx
  have hknown : ∀ x ∈ s.pipeline.feed.packets.queue ++ producer.packets, x ∈ s.todo := by
    intro x hx
    unfold todo
    rcases List.mem_append.mp hx with hqueue | hpackets
    . exact List.mem_append_left _ (List.mem_append_right _ hqueue)
    . exact List.mem_append_right _ (List.mem_flatMap.mpr ⟨producer, hmem, hpackets⟩)
  refine ⟨rfl, rfl, rfl, fun _ hmem => hmem, fun frame hframe => hframe, ?_⟩
  intro x hx
  unfold todo withFeed at hx
  rcases List.mem_append.mp hx with hread | hpackets
  . rcases List.mem_append.mp hread with hpending | hqueue
    . exact List.mem_append_left _ (List.mem_append_left _ hpending)
    . exact hknown x (hwaiting x (List.mem_append_left _ hqueue))
  . rcases List.mem_flatMap.mp hpackets with ⟨other, hother, hsent⟩
    rcases List.mem_or_eq_of_mem_set hother with hold | rfl
    . exact List.mem_append_right _ (List.mem_flatMap.mpr ⟨other, hold, hsent⟩)
    . exact hknown x (hwaiting x (List.mem_append_right _ hsent))

omit [Engine ω ε] in
theorem beside_of_dismiss (s : Playback ω ε ρ) : s.Beside s.dismiss := by
  have hclosed : ∀ x ∈ s.pipeline.pending.toList ++ s.pipeline.feed.close.packets.queue
      ++ s.producers.flatMap (·.packets), x ∈ s.todo := by
    intro x hx
    rw [show s.pipeline.feed.close.packets.queue = [] from rfl, List.append_nil] at hx
    unfold todo
    rcases List.mem_append.mp hx with hpending | hpackets
    . exact List.mem_append_left _ (List.mem_append_left _ hpending)
    . exact List.mem_append_right _ hpackets
  have hhanded : ∀ frame ∈ s.taken.toList ++ s.output.queue ++ [], frame ∈ s.handed := by
    intro frame hframe
    rw [List.append_nil] at hframe
    exact List.mem_append_left _ hframe
  unfold dismiss
  dsimp only
  split
  . exact ⟨rfl, rfl, rfl, fun _ hmem => hmem, hhanded, hclosed⟩
  . exact ⟨rfl, rfl, rfl, fun _ hmem => Array.mem_append_left _ hmem, hhanded, hclosed⟩

theorem beside_of_stage (hstage : s.stage ≠ .working) (hstep : s.stepStage = some s')
    : s.Beside s' := by
  have hidle (frames : List Frame) : ∀ frame ∈ s.taken.toList ++ s.output.queue ++ [],
      frame ∈ s.taken.toList ++ s.output.queue ++ frames := by
    intro frame hframe
    rw [List.append_nil] at hframe
    exact List.mem_append_left _ hframe
  unfold stepStage at hstep
  cases hphase : s.stage with
  | working => exact absurd hphase hstage
  | sleeping =>
    rw [hphase] at hstep
    rcases awake_cases hstep with ⟨-, rfl⟩
    exact ⟨rfl, rfl, rfl, fun _ hmem => hmem, hidle _, fun x hx => hx⟩
  | delivering frame =>
    rw [hphase] at hstep
    exact beside_of_deliver hphase hstep
  | finishing =>
    rw [hphase] at hstep
    cases hstep
    exact ⟨rfl, rfl, rfl, fun _ hmem => Array.mem_push_of_mem _ hmem, hidle _,
      fun x hx => hx⟩
  | finished =>
    rw [hphase] at hstep
    cases hstep
    exact s.beside_of_dismiss
  | gone =>
    rw [hphase] at hstep
    cases hstep

theorem step_cases {actor : Actor} (hstep : s.step actor = some s')
    : s.Beside s' ∨ actor = .stage ∧ s.stage = .working ∧ s' = s.work := by
  cases actor with
  | producer index => exact Or.inl (beside_of_producer hstep)
  | consumer => exact Or.inl (beside_of_consumer hstep)
  | stage =>
    by_cases hstage : s.stage = .working
    . refine Or.inr ⟨rfl, hstage, ?_⟩
      change s.stepStage = some s' at hstep
      unfold stepStage at hstep
      rw [hstage] at hstep
      exact (Option.some.inj hstep).symm
    . exact Or.inl (beside_of_stage hstage hstep)

theorem work_spec (hstage : s.stage = .working)
    : s.work.pipeline = s.pipeline.doWork.getFrame.2.2 ∧ s.work.producers = s.producers
        ∧ ∀ frame ∈ s.work.handed, frame ∈ s.handed ∨ s.pipeline.doWork.ready = some frame := by
  rcases work_cases hstage with ⟨stage, frames, hwork, -, hframe, -⟩
  rw [hwork]
  refine ⟨rfl, rfl, ?_⟩
  intro frame hmem
  rcases List.mem_append.mp hmem with hleft | hnew
  . exact Or.inl (List.mem_append_left _ hleft)
  . refine Or.inr ?_
    rw [← hframe]
    exact Option.mem_toList.mp hnew

structure Cutting (s : Playback ω ε ρ) (cut : Timestamp) : Prop where
  ready : s.pipeline.ready = none
  kept : s.pipeline.startCut = some cut ∧ s.Respects cut
    ∨ s.pipeline.startCut = none ∧ s.pipeline.HasSwitched

theorem Cutting.workStep {cut : Timestamp} (hcutting : s.Cutting cut) (hstage : s.stage = .working)
    : s.work.Cutting cut := by
  rcases work_spec hstage with ⟨hpipeline, -, hhanded⟩
  have houtline := Pipeline.outline_getFrame (.nothing ω ε) s.pipeline.doWork
  have hready : s.work.pipeline.ready = none := by
    rw [hpipeline]
    exact congrArg Outline.ready houtline
  have hstart : s.work.pipeline.startCut = s.pipeline.doWork.startCut := by
    rw [hpipeline]
    exact congrArg Outline.startCut houtline
  have hkeeps : s.pipeline.KeepsStart s.work.pipeline := by
    rw [hpipeline]
    exact s.pipeline.doWork_keepsStart.trans s.pipeline.doWork.getFrame_keepsStart
  refine ⟨hready, ?_⟩
  rcases hcutting.kept with ⟨hcut, hrespects⟩ | ⟨hnone, hswitched⟩
  . rcases hkeeps.startCut with hsame | hlost
    . refine Or.inl ⟨hsame.trans hcut, ?_⟩
      intro frame hframe
      rcases hhanded frame hframe with hold | hnew
      . exact hrespects frame hold
      . rcases Pipeline.doWork_offers s.pipeline hcutting.ready hnew with ⟨pts, hoffers⟩
        have hkept := (Pipeline.not_lt_of_excludes _ hoffers.kept).1
        exact ⟨pts, hoffers.time, hkept cut (hstart.symm.trans (hsame.trans hcut))⟩
    . exact Or.inr hlost
  . refine Or.inr ⟨?_, hswitched.of_journal hkeeps.journal⟩
    rcases hkeeps.startCut with hsame | ⟨hlost, -⟩
    . exact hsame.trans hnone
    . exact hlost

theorem Cutting.step {cut : Timestamp} (hcutting : s.Cutting cut) {actor : Actor}
    (hstep : s.step actor = some s')
    : s'.Cutting cut := by
  rcases step_cases hstep with hbeside | ⟨-, hstage, rfl⟩
  . refine ⟨hbeside.ready.trans hcutting.ready, ?_⟩
    rw [hbeside.startCut]
    rcases hcutting.kept with ⟨hcut, hrespects⟩ | ⟨hnone, hswitched⟩
    . exact Or.inl ⟨hcut, fun frame hframe => hrespects frame (hbeside.handed frame hframe)⟩
    . exact Or.inr ⟨hnone, hswitched.of_journal hbeside.journal⟩
  . exact hcutting.workStep hstage

structure Plain (s : Playback ω ε ρ) : Prop where
  queued : s.pipeline.segments.queued = none
  todo : ∀ x ∈ s.todo, x.segment = none

omit [Engine ω ε] [PacketRecorder ρ] in
theorem Plain.unlabelled (hplain : s.Plain) : s.pipeline.Unlabelled := by
  refine ⟨hplain.queued, ?_, ?_⟩
  . intro x hx
    apply hplain.todo
    unfold Playback.todo
    rw [hx]
    exact List.mem_cons_self
  . intro x hx
    exact hplain.todo x (List.mem_append_left _ (List.mem_append_right _ hx))

theorem Plain.workStep (hplain : s.Plain) (hstage : s.stage = .working)
    : s.work.Plain ∧ s.work.pipeline.startCut = s.pipeline.startCut := by
  rcases work_spec hstage with ⟨hpipeline, hproducers, -⟩
  rcases hplain.unlabelled.doWork with ⟨hunlabelled, hstart⟩
  have houtline := Pipeline.outline_getFrame (.nothing ω ε) s.pipeline.doWork
  rw [← hpipeline] at houtline
  simp only [Pipeline.outline, Outline.mk.injEq] at houtline
  rcases houtline with ⟨-, -, -, hfeed, -, -, -, hpending, hsegments, hstart'⟩
  refine ⟨⟨?_, ?_⟩, hstart'.trans hstart⟩
  . rw [hsegments]
    exact hunlabelled.queued
  . intro x hx
    unfold Playback.todo at hx
    rw [hpending, hfeed, hproducers] at hx
    rcases List.mem_append.mp hx with hread | hpackets
    . rcases List.mem_append.mp hread with hpending | hqueue
      . exact hunlabelled.pending x (Option.mem_toList.mp hpending)
      . exact hunlabelled.feed x hqueue
    . exact hplain.todo x (List.mem_append_right _ hpackets)

theorem Plain.step (hplain : s.Plain) {actor : Actor} (hstep : s.step actor = some s')
    : s'.Plain ∧ s'.pipeline.startCut = s.pipeline.startCut := by
  rcases step_cases hstep with hbeside | ⟨-, hstage, rfl⟩
  . refine ⟨⟨?_, fun x hx => hplain.todo x (hbeside.todo x hx)⟩, hbeside.startCut⟩
    rw [hbeside.segments]
    exact hplain.queued
  . exact hplain.workStep hstage

theorem Cutting.play {cut : Timestamp} (hcutting : s.Cutting cut) {schedule : List Actor}
    (hplay : s.play schedule = some s')
    : s'.Cutting cut := by
  apply play_induct (motive := fun t => t.Cutting cut) hcutting _ hplay
  intro t t' actor ht hstep
  exact ht.step hstep

theorem Plain.play (hplain : s.Plain) {schedule : List Actor} (hplay : s.play schedule = some s')
    : s'.Plain ∧ s'.pipeline.startCut = s.pipeline.startCut := by
  apply play_induct (motive := fun t => t.Plain ∧ t.pipeline.startCut = s.pipeline.startCut) _ _ hplay
  . exact ⟨hplain, rfl⟩
  . rintro t t' actor ⟨ht, hstart⟩ hstep
    rcases ht.step hstep with ⟨ht', hsame⟩
    exact ⟨ht', hsame.trans hstart⟩

end Steps

end Playback
end DecodePipeline
