import DecodePipeline.Proofs.Pipeline.Stepping
import DecodePipeline.Proofs.Pipeline.Tracing

/-!
This module contains the fact that a pipeline reports what it has done: a frame is ready if it says so,
and it waits only if the feed, which it has just asked, had nothing for it.
-/

namespace DecodePipeline

namespace Pipeline

variable {ω ε φ ρ : Type}

def Reports (p : Pipeline ω ε φ ρ) : Prop := p.ready.isSome → p.status = .ready ∧ p.engine.isSome

theorem reports_of_none (p : Pipeline ω ε φ ρ) (hready : p.ready = none) : p.Reports := by
  intro hsome
  rw [hready] at hsome
  cases hsome

structure Answers (p : Pipeline ω ε φ ρ) : Prop where
  reports : p.Reports
  stored : p.status = .ready → p.ready.isSome
  waiting : p.status ≠ .waiting

theorem answers_of_none {p : Pipeline ω ε φ ρ} (hready : p.ready = none)
    (hstatus : p.status = .again ∨ p.status = .ended)
    : p.Answers := by
  refine ⟨p.reports_of_none hready, ?_, ?_⟩
  . intro hstored
    rcases hstatus with hstatus | hstatus <;> simp [hstatus] at hstored
  . intro hwaiting
    rcases hstatus with hstatus | hstatus <;> simp [hstatus] at hwaiting

theorem getFrame_status {p : Pipeline ω ε φ ρ} (hp : p.Reports)
    (hstored : p.status = .ready → p.ready.isSome)
    : p.getFrame.2.1 = p.status ∧ (p.getFrame.1.isSome ↔ p.status = .ready) := by
  unfold getFrame
  cases hready : p.ready with
  | none =>
    have hstatus : p.status ≠ .ready := by
      intro hstatus
      have hsome := hstored hstatus
      simp [hready] at hsome
    simp [hstatus]
  | some frame =>
    have hstatus := (hp (Option.isSome_of_eq_some hready)).1
    simp [hstatus]

section Reading

variable [Engine ω ε] {p q : Pipeline ω ε φ ρ}

theorem switchSegment_answers (hready : p.ready = none)
    (hstatus : p.status = .again ∨ p.status = .ended)
    : p.switchSegment.Answers := by
  apply answers_of_none (p.switchSegment_ready hready)
  rcases p.switchSegment_status_cases with ⟨-, hsame⟩ | hagain | ⟨hended, -⟩
  . rw [hsame]
    exact hstatus
  . exact .inl hagain
  . exact .inr hended

theorem Reads.answers {answer : Received} (hreads : p.Reads answer q) (hattached : p.engine.isSome)
    (hready : p.ready = none)
    : q.Answers := by
  cases hreads with
  | stored hsettles =>
    have hstill := (congrArg Outline.attached hsettles.outline).trans hattached
    exact ⟨fun _ => ⟨rfl, hstill⟩, fun _ => rfl, by simp⟩
  | discarded hsettles =>
    exact answers_of_none ((congrArg Outline.ready hsettles.outline).trans hready) (.inl rfl)
  | passed hsettles =>
    exact switchSegment_answers ((congrArg Outline.ready hsettles.outline).trans hready) (.inl rfl)
  | missed => exact answers_of_none hready (.inl rfl)
  | exhausted => exact switchSegment_answers hready (.inr rfl)

theorem Receives.answers (hreceives : p.Receives q) : q.Answers := by
  rcases hreceives with ⟨engine, hengine, hready, hreads⟩
  exact hreads.answers rfl hready

end Reading

section Working

variable [Engine ω ε] [PacketFeed φ] [PacketRecorder ρ] {p q : Pipeline ω ε φ ρ}

theorem Works.reports {asked : Option (Poll Packet)} (hworks : p.Works asked q) (hp : p.Reports)
    : q.Reports ∧ (q.status = .ready → q.ready.isSome)
        ∧ (q.status = .waiting ↔ asked = some .empty) := by
  cases hworks with
  | detached hengine =>
    have hready : p.ready = none := by
      cases hready : p.ready with
      | none => rfl
      | some frame =>
        have hattached := (hp (Option.isSome_of_eq_some hready)).2
        simp [hengine] at hattached
    exact ⟨reports_of_none _ hready, by simp, by simp⟩
  | kept hengine hready =>
    refine ⟨hp, fun _ => hready, ?_⟩
    simp [(hp hready).1]
  | stopped hreceives =>
    have hanswers := hreceives.answers
    exact ⟨hanswers.reports, hanswers.stored, by simp [hanswers.waiting]⟩
  | waited hreceives hready => exact ⟨reports_of_none _ hready, by simp, by simp⟩
  | fed hreceives hengine hready hfills hagain =>
    have hanswers := hagain.answers
    refine ⟨hanswers.reports, hanswers.stored, ?_⟩
    cases hfills <;> simp [hanswers.waiting]

theorem Works.held_of_empty {asked : Option (Poll Packet)} (hworks : p.Works asked q)
    (hasked : asked = some .empty)
    : q.held = [] := by
  cases hworks with
  | detached | kept | stopped => cases hasked
  | waited _ _ hidle => exact hidle
  | fed _ _ _ hfills =>
    cases hasked
    cases hfills

theorem Works.sendings_of_empty
    {p q : Pipeline (TracedShared ω) (TracedEngine ε) (TracedFeed φ) ρ}
    {asked : Option (Poll Packet)} (hworks : p.Works asked q) (htraces : p.HasTraces)
    (hasked : asked = some .empty)
    : q.shared.sendings = p.shared.sendings := by
  cases hworks with
  | detached | kept | stopped => cases hasked
  | waited hreceives => exact hreceives.sendings htraces
  | fed _ _ _ hfills =>
    cases hasked
    cases hfills

theorem Reports.perform (hp : p.Reports) (operation : Operation φ ρ)
    : (p.perform operation).Reports := by
  cases operation with
  | work =>
    rcases p.doWork_works with ⟨asked, hworks⟩
    exact (hworks.reports hp).1
  | take => exact reports_of_none _ (congrArg Outline.ready (outline_getFrame (.nothing ω ε) p))
  | reset => exact reports_of_none _ (congrArg Outline.ready (outline_reset (.nothing ω ε) p))
  | openDecoder codec =>
    exact reports_of_none _ (congrArg Outline.ready (outline_openDecoder (.nothing ω ε) p codec))
  | setStart | setFramedrop | resetParams | attachRecorder | detachRecorder | refill | wait =>
    exact hp

theorem Reports.after (hp : p.Reports) (operations : List (Operation φ ρ))
    : (p.after operations).Reports := by
  apply after_induct
  . exact hp
  . exact fun q operation _ hq => hq.perform operation

theorem reports_createTraced (codec : SharedCodec) (drivers : List (Driver ω ε)) (feed : φ)
    (shared : ω) (options : DecoderOptions) (now : UInt64) (operations : List (Operation φ ρ))
    : Reports
        ((createTraced codec drivers feed shared options now).afterTraced operations :
          Pipeline (TracedShared ω) (TracedEngine ε) (TracedFeed φ) ρ) :=
  (reports_of_none _ rfl).after _

end Working

end Pipeline
end DecodePipeline
