import DecodePipeline.Proofs.Pipeline.Lockstep

/-!
This module contains what makes no difference to a pipeline that decodes uncompressed video: its
journal, its recorder, the time of day, what its counters counted before, and what the engine was last
told about skipping. Two pipelines that differ in nothing else stay so.
-/

namespace DecodePipeline

def RawVideoEngine.untold (e : RawVideoEngine) : RawVideoEngine := { e with framedrop := .none }

theorem RawVideoEngine.exists_of_untold {e e' : RawVideoEngine} (huntold : e.untold = e'.untold)
    : ∃ framedrop, e = { e' with framedrop } := by
  rcases e with ⟨params, queue, framedrop, draining⟩
  rcases e' with ⟨params', queue', framedrop', draining'⟩
  simp only [untold, mk.injEq] at huntold
  rcases huntold with ⟨rfl, rfl, -, rfl⟩
  exact ⟨framedrop, rfl⟩

namespace Difference

variable {ω : Type} {start start' : Health}

def untold (ω : Type) (start start' : Health) : Difference ω RawVideoEngine where
  engines e s e' s' := e.map RawVideoEngine.untold = e'.map RawVideoEngine.untold ∧ s = s'
  health := Health.SameCount start start'
  clock _ _ := True

theorem exists_of_untold {e e' : RawVideoEngine} {s s' : ω}
    (hengines : (untold ω start start').engines (some e) s (some e') s')
    : s = s' ∧ ∃ framedrop, e = { e' with framedrop } :=
  ⟨hengines.2, RawVideoEngine.exists_of_untold (Option.some.inj hengines.1)⟩

theorem hidden_untold (drivers : List (Driver ω RawVideoEngine))
    : (untold ω start start').Hidden drivers where
  attached e e' s s' hengines := by simpa using congrArg Option.isSome hengines.1
  control e e' s s' command hengines := by
    rcases exists_of_untold hengines with ⟨rfl, framedrop, rfl⟩
    cases command with
    | reset => exact ⟨rfl, rfl, rfl⟩
    | setFrameDrop directive => exact ⟨rfl, rfl, rfl⟩
    | getFrameDelay => exact ⟨rfl, rfl, rfl⟩
  receive e e' s s' hengines := by
    rcases exists_of_untold hengines with ⟨rfl, framedrop, rfl⟩
    rcases e' with ⟨params, queue, _, draining⟩
    cases queue with
    | nil => exact ⟨rfl, rfl, rfl⟩
    | cons frame queue => exact ⟨rfl, rfl, rfl⟩
  uninit e e' s s' hengines := by
    rcases exists_of_untold hengines with ⟨rfl, framedrop, rfl⟩
    exact ⟨rfl, rfl⟩
  init driver _ s s' codec decoder hengines := by
    rcases hengines with ⟨-, rfl⟩
    refine ⟨rfl, ?_⟩
    split
    . exact ⟨rfl, rfl⟩
    . exact ⟨rfl, rfl⟩
  add h h' more hhealth := hhealth.add more
  setTime h h' now now' _ hhealth := hhealth.setTime now now'

-- Sending tells the engine how to skip first, so what it was told before does not count.
theorem hiddenBySending_untold : (untold ω start start').HiddenBySending := by
  intro e e' s s' directive packet hengines
  rcases exists_of_untold hengines with ⟨rfl, framedrop, rfl⟩
  exact ⟨rfl, rfl, rfl⟩

end Difference

namespace Pipeline

variable {ω φ ρ : Type}

structure Alike (start start' : Health) (p q : Pipeline ω RawVideoEngine φ ρ) : Prop where
  codec : p.codec = q.codec
  drivers : p.drivers = q.drivers
  options : p.options = q.options
  feed : p.feed = q.feed
  shared : p.shared = q.shared
  health : Health.SameCount start start' p.health q.health
  engine : p.engine.map RawVideoEngine.untold = q.engine.map RawVideoEngine.untold
  decoder : p.decoder = q.decoder
  ready : p.ready = q.ready
  pending : p.pending = q.pending
  segments : p.segments = q.segments
  timeline : p.timeline = q.timeline
  params : p.params = q.params
  startCut : p.startCut = q.startCut
  framedrop : p.framedrop = q.framedrop
  maySkip : p.maySkip = q.maySkip
  dropped : p.dropped = q.dropped
  status : p.status = q.status

variable {start start' : Health} {p q : Pipeline ω RawVideoEngine φ ρ}

theorem Alike.lockstep (h : Alike start start' p q)
    : Lockstep (.untold ω start start') p q :=
  { h with
    hidden := Difference.hidden_untold p.drivers
    engines := ⟨h.engine, h.shared⟩
    clock := trivial }

theorem alike_of_lockstep (h : Lockstep (.untold ω start start') p q)
    : Alike start start' p q :=
  { h with
    engine := h.engines.1
    shared := h.engines.2 }

theorem Alike.isNone_engine (h : Alike start start' p q) : p.engine.isNone = q.engine.isNone :=
  h.lockstep.isNone_engine

variable [PacketFeed φ] [PacketRecorder ρ]

theorem Alike.perform (h : Alike start start' p q) (operation : Operation φ ρ)
    : Alike start start' (p.perform operation) (q.perform operation) :=
  alike_of_lockstep
    (h.lockstep.perform Difference.hiddenBySending_untold (fun _ => trivial) operation)

theorem Alike.after (h : Alike start start' p q) (operations : List (Operation φ ρ))
    : Alike start start' (p.after operations) (q.after operations) := by
  induction operations generalizing p q with
  | nil => exact h
  | cons operation operations ih => exact ih (h.perform operation)

end Pipeline
end DecodePipeline
