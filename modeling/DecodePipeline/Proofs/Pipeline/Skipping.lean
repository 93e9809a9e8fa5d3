import DecodePipeline.Proofs.Pipeline.Detachment
import DecodePipeline.Proofs.Pipeline.Lifecycle
import DecodePipeline.Simulation.Engine

/-!
This module contains what the frames are due to that a pipeline counts as dropped: each to something
that the engine accepted while it was allowed to skip frames. A pipeline does not ask whether that was a
packet, so an engine that is asked to drain and is still at work afterwards drops frames of no packet.
-/

namespace DecodePipeline

/-- An engine that has accepted anything else than what counts has a frame next, or nothing is left. -/
def Engine.Concludes (ω ε : Type) [Engine ω ε] (counts : Option Packet → Bool) : Prop :=
  ∀ (engine : ε) (shared : ω) (packet : Option Packet), counts packet = false →
    (Engine.send engine shared packet).answer = true →
      (Engine.receive (Engine.send engine shared packet).engine
        (Engine.send engine shared packet).shared).answer ≠ .pending

theorem RawVideoEngine.concludes (ω : Type) : Engine.Concludes ω RawVideoEngine Option.isSome := by
  intro engine shared packet hdrain haccepted
  rw [Option.isSome_eq_false_iff, Option.isNone_iff_eq_none] at hdrain
  rw [hdrain] at haccepted ⊢
  change (engine.send none).1 = true at haccepted
  change (engine.send none).2.receive.1 ≠ .pending
  unfold RawVideoEngine.send at haccepted ⊢
  cases hparams : engine.params with
  | none =>
    rw [hparams] at haccepted
    cases haccepted
  | some params =>
    unfold RawVideoEngine.receive
    cases engine.queue <;> simp

theorem Simulation.SimulatedEngine.concludes
    : Engine.Concludes Simulation.State Simulation.SimulatedEngine Option.isSome := by
  intro engine shared packet hdrain _
  rw [Option.isSome_eq_false_iff, Option.isNone_iff_eq_none] at hdrain
  rw [hdrain]
  change (Simulation.SimulatedEngine.receive { engine with draining := true } _).answer ≠ .pending
  unfold Simulation.SimulatedEngine.receive
  split <;> simp

namespace LoggedCall

def isSkippable (counts : Option Packet → Bool) (c : LoggedCall) : Bool :=
  match c.call with
  | .sent packet .soft true => counts packet
  | _ => false

end LoggedCall

namespace LoggedShared

variable {ω : Type}

def skippable (s : LoggedShared ω) (counts : Option Packet → Bool) : Nat :=
  s.calls.countP (·.isSkippable counts)

theorem skippable_log (s : LoggedShared ω) (counts : Option Packet → Bool) (state : ω) (engine : Nat)
    (call : EngineCall)
    : (s.log state engine call).skippable counts
        = s.skippable counts
          + if (⟨engine, call⟩ : LoggedCall).isSkippable counts then 1 else 0 := by
  unfold skippable log
  rw [List.countP_append, List.countP_singleton]

end LoggedShared

namespace Pipeline

variable {ω ε φ ρ : Type}

section Settled

structure Settled (p : Pipeline ω ε φ ρ) (dropped : Nat) : Prop where
  maySkip : p.maySkip = false
  dropped : p.dropped = dropped

variable [Engine ω ε] {p q : Pipeline ω ε φ ρ} {dropped : Nat}

theorem settled_resetSegment (hdropped : p.dropped = dropped) : p.resetSegment.Settled dropped := by
  rcases p.command_eq .reset with ⟨engine, shared, hcommand⟩
  refine ⟨rfl, ?_⟩
  unfold resetSegment
  rw [hcommand]
  exact hdropped

theorem settled_openDecoder (hdropped : p.dropped = dropped) (codec : SharedCodec)
    : (p.openDecoder codec).2.Settled dropped := by
  have hreleased : p.releaseEngine.dropped = dropped := by
    unfold releaseEngine
    cases p.engine <;> exact hdropped
  have hreset : ({ p.releaseEngine with codec, decoder := none }).resetSegment.Settled dropped :=
    settled_resetSegment hreleased
  rcases p.openDecoder_readied codec with ⟨engine, decoder, shared, status, journal, hopen⟩
  rw [hopen]
  exact ⟨hreset.1, hreset.2⟩

theorem Settled.switchSegment (hp : p.Settled dropped) : p.switchSegment.Settled dropped := by
  cases hqueued : p.segments.queued with
  | none =>
    rw [switchSegment_of_queued_none p hqueued]
    exact hp
  | some packet =>
    have hdropped : (p.switching packet).dropped = dropped := hp.dropped
    cases hkind : SegmentTracker.switchKind packet p.codec with
    | «continue» =>
      rw [switchSegment_of_continue p hqueued hkind]
      have hreset := settled_resetSegment hdropped
      exact ⟨hreset.1, hreset.2⟩
    | reinit codec =>
      have hopened := settled_openDecoder hdropped codec
      rw [switchSegment_of_reinit p hqueued hkind]
      rcases hresult : (p.switching packet).openDecoder codec with ⟨result, q⟩
      rw [hresult] at hopened
      cases result with
      | ok => exact ⟨hopened.1, hopened.2⟩
      | error reason => exact ⟨hopened.1, hopened.2⟩

theorem settled_offer (p : Pipeline ω ε φ ρ) (frame : Frame) : (p.offer frame).Settled p.dropped := by
  have hfinish : (p.finishFrame frame).2.2.dropped = p.dropped := by
    rcases p.finishFrame_eq frame with ⟨engine, shared, timeline, synthesized, journal, hfinish⟩
    rw [hfinish]
  unfold offer
  rcases hresult : p.finishFrame frame with ⟨pts, kept, q⟩
  rw [hresult] at hfinish
  dsimp only
  split
  . split
    . rw [endSegment_eq]
      apply Settled.switchSegment
      exact ⟨rfl, hfinish⟩
    . exact ⟨rfl, hfinish⟩
  . exact ⟨rfl, hfinish⟩

theorem settled_readFrame (p : Pipeline ω ε φ ρ) {engine : ε} (hengine : p.engine = some engine)
    (hready : p.ready = none)
    : p.readFrame.Settled
        (p.dropped
          + if p.maySkip ∧ (Engine.receive engine p.shared).answer = .pending then 1 else 0) := by
  unfold readFrame
  rw [hengine, hready]
  dsimp only
  cases hanswer : (Engine.receive engine p.shared).answer with
  | frame frame =>
    rw [if_neg (by simp)]
    exact settled_offer (p.afterReply (Engine.receive engine p.shared)) frame
  | pending =>
    refine ⟨rfl, ?_⟩
    unfold noteMissing
    change (if p.maySkip then _ else _ : Pipeline ω ε φ ρ).dropped = _
    cases hmay : p.maySkip <;> simp [hmay, afterReply]
  | exhausted =>
    rw [if_neg (by simp), endSegment_eq]
    apply Settled.switchSegment
    exact ⟨rfl, rfl⟩

theorem sendPending_dropped [PacketRecorder ρ] (p : Pipeline ω ε φ ρ) (engine : ε)
    : (p.sendPending engine).dropped = p.dropped
        ∧ (p.sendPending engine).maySkip
          = if (p.sendReply engine p.pendingFrameDrop).answer then p.pendingFrameDrop == .soft
            else p.maySkip := by
  rcases p.sendPending_eq engine with ⟨pending, recorder, status, journal, hsent⟩
  rw [hsent]
  exact ⟨rfl, rfl⟩

end Settled

section Logs

variable {p q : Pipeline (LoggedShared ω) (LoggedEngine ε) (TracedFeed φ) ρ}
variable {counts : Option Packet → Bool} {base : Nat}

structure Covered (p : Pipeline (LoggedShared ω) (LoggedEngine ε) (TracedFeed φ) ρ)
    (counts : Option Packet → Bool) (base : Nat) : Prop where
  maySkip : p.maySkip = false
  enough : base + p.dropped ≤ p.shared.skippable counts

theorem Settled.covered (hq : q.Settled p.dropped) (hp : p.Covered counts base)
    (hshared : q.shared.skippable counts = p.shared.skippable counts)
    : q.Covered counts base := by
  refine ⟨hq.maySkip, ?_⟩
  rw [hq.dropped, hshared]
  exact hp.enough

variable [Engine ω ε]

structure Owes (p : Pipeline (LoggedShared ω) (LoggedEngine ε) (TracedFeed φ) ρ)
    (counts : Option Packet → Bool) (base : Nat) : Prop where
  enough : base + p.dropped ≤ p.shared.skippable counts
  next : p.maySkip = true → base + p.dropped + 1 ≤ p.shared.skippable counts
    ∨ ∀ engine, p.engine = some engine → (Engine.receive engine p.shared).answer ≠ .pending

theorem Covered.owes (hp : p.Covered counts base) : p.Owes counts base := by
  refine ⟨hp.enough, ?_⟩
  intro hmay
  rw [hp.maySkip] at hmay
  cases hmay

theorem HasLogs.unsent (hlogs : p.HasLogs) (counts : Option Packet → Bool) (sent : Nat)
    : Engine.Invariant p.drivers
        (fun (_ : Option (LoggedEngine ε)) (s : LoggedShared ω) => s.skippable counts = sent) := by
  refine ⟨?_, ?_, ?_⟩
  . intro engine shared command hshared
    exact (LoggedShared.skippable_log ..).trans hshared
  . intro engine shared hshared
    exact (LoggedShared.skippable_log ..).trans hshared
  . intro driver hdriver shared params decoder hshared
    rcases hlogs with ⟨drivers, hdrivers⟩
    rw [hdrivers, List.mem_map] at hdriver
    rcases hdriver with ⟨driver, -, rfl⟩
    have hopened : (Engine.init (driver.logged.create shared).1 (driver.logged.create shared).2 params
        decoder).shared.skippable counts = sent := by
      refine (LoggedShared.skippable_log ..).trans ?_
      exact (LoggedShared.skippable_log shared counts (driver.create shared.state).2 ..).trans hshared
    dsimp only at hopened ⊢
    split <;> exact hopened

theorem HasLogs.upholds_unsent (hlogs : p.HasLogs) (counts : Option Packet → Bool)
    : p.Upholds (fun _ s => s.skippable counts = p.shared.skippable counts) :=
  ⟨hlogs.unsent counts _, rfl⟩

theorem readFrame_skippable (hlogs : p.HasLogs) (counts : Option Packet → Bool)
    {engine : LoggedEngine ε} (hengine : p.engine = some engine) (hready : p.ready = none)
    : p.readFrame.shared.skippable counts = p.shared.skippable counts := by
  have hreceived : (p.afterReply (Engine.receive engine p.shared)).Upholds
      (fun _ s => s.skippable counts = p.shared.skippable counts) :=
    ⟨hlogs.unsent counts _, LoggedShared.skippable_log ..⟩
  exact ((p.readFrame_reads hengine hready).upholds hreceived).state

theorem Owes.readFrame (hp : p.Owes counts base) (hlogs : p.HasLogs) {engine : LoggedEngine ε}
    (hengine : p.engine = some engine) (hready : p.ready = none)
    : p.readFrame.Covered counts base := by
  have hsettled := p.settled_readFrame hengine hready
  refine ⟨hsettled.maySkip, ?_⟩
  rw [hsettled.dropped, readFrame_skippable hlogs counts hengine hready]
  split
  . next hmissing =>
    rcases hp.next hmissing.1 with hpaid | hsettles
    . exact hpaid
    . exact absurd hmissing.2 (hsettles engine hengine)
  . exact hp.enough

theorem Covered.readFrame (hp : p.Covered counts base) (hlogs : p.HasLogs)
    : p.readFrame.Covered counts base := by
  cases hengine : p.engine with
  | none =>
    rw [readFrame_of_detached p hengine]
    exact hp
  | some engine =>
    cases hready : p.ready with
    | some frame =>
      rw [readFrame_of_ready p (Option.isSome_of_eq_some hready)]
      exact hp
    | none => exact hp.owes.readFrame hlogs hengine hready

theorem sendReply_skippable (p : Pipeline (LoggedShared ω) (LoggedEngine ε) (TracedFeed φ) ρ)
    (counts : Option Packet → Bool) (engine : LoggedEngine ε) (framedrop : FrameDrop)
    : (p.sendReply engine framedrop).shared.skippable counts
        = p.shared.skippable counts
          + if framedrop = .soft ∧ (p.sendReply engine framedrop).answer
              ∧ counts (p.pending.map p.forEngine) then 1 else 0 := by
  refine (LoggedShared.skippable_log ..).trans ?_
  refine congrArg₂ (· + ·) (LoggedShared.skippable_log ..) ?_
  change (if LoggedCall.isSkippable counts ⟨engine.number, .sent (p.pending.map p.forEngine) framedrop
    (p.sendReply engine framedrop).answer⟩ then 1 else 0) = _
  unfold LoggedCall.isSkippable
  generalize (p.sendReply engine framedrop).answer = accepted
  cases framedrop <;> cases accepted <;> simp

variable [PacketRecorder ρ]

theorem Covered.sends (hp : p.Covered counts base) (hconcludes : Engine.Concludes ω ε counts)
    (engine : LoggedEngine ε)
    : (p.sendPending engine).Owes counts base := by
  rcases p.sendPending_dropped engine with ⟨hdropped, hmay⟩
  rcases p.sendPending_engine engine with ⟨hengine, hshared⟩
  have hskippable := p.sendReply_skippable counts engine p.pendingFrameDrop
  have henough := hp.enough
  rw [← hshared] at hskippable
  refine ⟨?_, ?_⟩
  . rw [hdropped, hskippable]
    omega
  . rw [hmay, hp.maySkip]
    intro hsoft
    split at hsoft
    . next haccepted =>
      cases hcounts : counts (p.pending.map p.forEngine) with
      | true =>
        left
        rw [if_pos ⟨beq_iff_eq.mp hsoft, haccepted, hcounts⟩] at hskippable
        rw [hdropped, hskippable]
        omega
      | false =>
        right
        intro receiver hreceiver
        rw [hengine] at hreceiver
        cases hreceiver
        rw [hshared]
        exact hconcludes _ _ _ hcounts haccepted
    . cases hsoft

variable [PacketFeed φ]

theorem Covered.feeds (hp : p.Covered counts base) (hlogs : p.HasLogs)
    (hconcludes : Engine.Concludes ω ε counts) {engine : LoggedEngine ε} (hready : p.ready = none)
    {asked : Option (Poll Packet)} (hfeeds : p.Feeds engine asked q)
    : (if q.status == .waiting then q else q.readFrame).Covered counts base := by
  cases hfeeds with
  | waits => exact ⟨hp.maySkip, hp.enough⟩
  | @sends asked filled hfills =>
    rcases hfills.holdNewSegment_eq with ⟨pending, queued, phase, journal, hheld⟩
    have hcovered : filled.holdNewSegment.Covered counts base := by
      rw [hheld]
      exact ⟨hp.maySkip, hp.enough⟩
    have hdrivers : (filled.holdNewSegment.sendPending engine).drivers = p.drivers := by
      refine (congrArg Outline.drivers (outline_sendPending (.nothing _ _) _ engine)).trans ?_
      rw [hheld]
      rfl
    rw [if_neg (by rw [sendPending_status]; decide)]
    apply (hcovered.sends hconcludes engine).readFrame (hlogs.of_eq hdrivers)
    . exact (filled.holdNewSegment.sendPending_engine engine).1
    . rw [sendPending_ready, hheld]
      exact hready

theorem Covered.doWork (hp : p.Covered counts base) (hlogs : p.HasLogs)
    (hconcludes : Engine.Concludes ω ε counts)
    : p.doWork.Covered counts base := by
  cases hengine : p.engine with
  | none =>
    rw [doWork_of_detached hengine]
    exact ⟨hp.maySkip, hp.enough⟩
  | some engine =>
    have hattached : p.engine.isSome := Option.isSome_of_eq_some hengine
    have hread := hp.readFrame hlogs
    cases hready : p.readFrame.ready with
    | some frame =>
      rw [doWork_of_stored p hattached (Option.isSome_of_eq_some hready)]
      exact hread
    | none =>
      rw [doWork_of_idle p hattached hready]
      cases hkept : p.readFrame.engine with
      | none =>
        rw [feedPacket_of_detached _ hkept, readFrame_of_detached _ hkept, ite_self]
        exact hread
      | some engine' =>
        rcases p.readFrame.feedPacket_feeds hkept hready with ⟨asked, hfeeds⟩
        exact hread.feeds (hlogs.of_eq p.readFrame_drivers) hconcludes hready hfeeds

theorem Covered.perform (hp : p.Covered counts base) (hlogs : p.HasLogs)
    (hconcludes : Engine.Concludes ω ε counts) (operation : Operation (TracedFeed φ) ρ)
    : (p.perform operation).Covered counts base := by
  have hunsent := hlogs.upholds_unsent counts
  cases operation with
  | work => exact hp.doWork hlogs hconcludes
  | take =>
    unfold Pipeline.perform getFrame
    dsimp only
    split <;> exact ⟨hp.maySkip, hp.enough⟩
  | reset =>
    have hfewer : base ≤ p.shared.skippable counts := by
      have henough := hp.enough
      omega
    refine ⟨rfl, ?_⟩
    rw [← hunsent.reset.state] at hfewer
    exact hfewer
  | openDecoder codec =>
    exact (settled_openDecoder rfl codec).covered hp (hunsent.openDecoder codec).state
  | setStart | setFramedrop | resetParams | attachRecorder | detachRecorder | refill | wait =>
    exact ⟨hp.maySkip, hp.enough⟩

theorem Covered.after (hp : p.Covered counts base) (hlogs : p.HasLogs)
    (hconcludes : Engine.Concludes ω ε counts) (operations : List (Operation φ ρ))
    : (p.afterLogged operations).Covered counts base ∧ (p.afterLogged operations).HasLogs := by
  apply afterLogged_induct (motive := fun q => q.Covered counts base ∧ q.HasLogs)
  . exact ⟨hp, hlogs⟩
  . exact fun q operation _ hq =>
      ⟨hq.1.perform hq.2 hconcludes _, hq.2.of_eq (q.perform_drivers _)⟩

/--
Each frame that was dropped since the last reset is due to a request of its own that the engine accepted
since then and was allowed to skip. These are packets only, if no engine that has been asked to drain is
still at work afterwards.
-/
theorem dropped_le_skippable (hconcludes : Engine.Concludes ω ε counts) (codec : SharedCodec)
    (drivers : List (Driver ω ε)) (feed : φ) (shared : ω) (options : DecoderOptions) (now : UInt64)
    (operations more : List (Operation φ ρ))
    : let p : Pipeline (LoggedShared ω) (LoggedEngine ε) (TracedFeed φ) ρ :=
        (createLogged codec drivers feed shared options now).afterLogged operations
      let q := p.reset.afterLogged more
      p.dropped ≤ p.shared.skippable counts
        ∧ p.shared.skippable counts + q.dropped ≤ q.shared.skippable counts := by
  intro p q
  have hlogs : HasLogs (createLogged codec drivers feed shared options now :
      Pipeline (LoggedShared ω) (LoggedEngine ε) (TracedFeed φ) ρ) := ⟨drivers, rfl⟩
  have hstart : Covered (createLogged codec drivers feed shared options now :
      Pipeline (LoggedShared ω) (LoggedEngine ε) (TracedFeed φ) ρ) counts 0 := ⟨rfl, Nat.le_refl 0⟩
  rcases hstart.after hlogs hconcludes operations with ⟨hp, hplogs⟩
  have hreset : p.reset.shared.skippable counts = p.shared.skippable counts :=
    (hplogs.upholds_unsent counts).reset.state
  have hcovered : p.reset.Covered counts (p.shared.skippable counts) := ⟨rfl, Nat.le_of_eq hreset.symm⟩
  have henough := hp.enough
  rw [Nat.zero_add] at henough
  exact ⟨henough, (hcovered.after (hplogs.of_eq (p.perform_drivers .reset)) hconcludes more).1.enough⟩

theorem dropped_le_packets (codec : SharedCodec) (feed : φ) (shared : ω) (options : DecoderOptions)
    (now : UInt64) (operations : List (Operation φ ρ))
    : let p : Pipeline (LoggedShared ω) (LoggedEngine RawVideoEngine) (TracedFeed φ) ρ :=
        (createLogged codec defaultDrivers feed shared options now).afterLogged operations
      p.dropped ≤ p.shared.skippable Option.isSome :=
  (dropped_le_skippable (RawVideoEngine.concludes ω) codec defaultDrivers feed shared options now
    operations []).1

end Logs

structure TardyEngine where

instance : Engine Unit TardyEngine where
  init e shared _ _ := ⟨.ok (), e, shared⟩
  send e shared _ := ⟨true, e, shared⟩
  receive e shared := ⟨.pending, e, shared⟩
  control e shared _ := ⟨.done, e, shared⟩
  uninit e shared := ⟨(), e, shared⟩

def tardyDriver : Driver Unit TardyEngine where
  name := "tardy"
  decoders := [⟨"tardy", "rawvideo", "rawvideo", "takes everything"⟩]
  create shared := ({}, shared)

-- It is asked to drain in each step, and there is no packet at all.
example
    : let operations : List (Operation PacketChannel Collection) :=
        [.openDecoder sampleCodec, .setFramedrop true, .refill PacketChannel.release, .work, .work]
      let p := (createLogged sampleCodec [tardyDriver] (sampleFeed []) () {} 0).afterLogged operations
      p.dropped = 2 ∧ p.shared.skippable Option.isSome = 0 := by
  decide +kernel

end Pipeline
end DecodePipeline
