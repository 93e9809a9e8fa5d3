import DecodePipeline.Proofs.Pipeline.Detachment
import DecodePipeline.Proofs.Pipeline.Offering
import DecodePipeline.Proofs.Pipeline.Retrying
import DecodePipeline.Proofs.Simulation.Refusals

/-!
This module contains runs of which one meets refusals: a run stalls for each of them when it offers its
first packet, and then goes on like a run without refusals.
-/

namespace DecodePipeline

open Simulation

def LoggedShared.offered {ω : Type} (s : LoggedShared ω) : Bool := s.sendings.any (·.1.isSome)

abbrev SimulatedPipeline (φ ρ : Type) :=
  Pipeline (LoggedShared State) (LoggedEngine SimulatedEngine) φ ρ

namespace Pipeline

variable {φ ρ : Type}

section Idle

structure Untouched (p : SimulatedPipeline φ ρ) : Prop where
  fresh : p.Upholds fun engine _ => ∀ e ∈ engine, e.engine.Fresh
  ready : p.ready = none

variable {p q : SimulatedPipeline φ ρ}
variable {e : LoggedEngine SimulatedEngine}

theorem Untouched.engine (hp : p.Untouched) (hengine : p.engine = some e) : e.engine.Fresh := by
  have hstate := hp.fresh.state
  rw [hengine] at hstate
  exact hstate e rfl

theorem Untouched.of_eq (hp : p.Untouched) (hdrivers : q.drivers = p.drivers)
    (hengine : q.engine = p.engine) (hready : q.ready = p.ready)
    : q.Untouched := by
  refine ⟨⟨?_, ?_⟩, hready.trans hp.ready⟩
  . rw [hdrivers]
    exact hp.fresh.invariant
  . rw [hengine]
    exact hp.fresh.state

theorem Untouched.receives (hp : p.Untouched) (hreceives : p.Receives q)
    : q.Untouched ∧ q.status = .again ∧ q.maySkip = false := by
  rcases hreceives with ⟨e, hengine, hready, hreads⟩
  rw [(hp.engine hengine).receive_logged] at hreads
  cases hreads with
  | missed => exact ⟨hp.of_eq rfl hengine.symm rfl, rfl, rfl⟩

theorem Untouched.readFrame (hp : p.Untouched) : p.readFrame.Untouched := by
  cases hengine : p.engine with
  | none =>
    rw [readFrame_of_detached p hengine]
    exact hp
  | some e => exact (hp.receives (p.receives_readFrame hengine hp.ready)).1

theorem Untouched.sending [PacketFeed φ] (hp : p.Untouched) (hsending : p.sending = some (e, q))
    : q.Untouched ∧ q.engine = some e := by
  rcases sending_eq hsending with ⟨hengine, -⟩
  rcases sending_fields hsending with ⟨feed, pending, queued, phase, journal, rfl⟩
  exact ⟨hp.of_eq rfl rfl rfl, hengine⟩

theorem renewed_switchSegment
    (hinvariant : Engine.Invariant p.drivers
      fun (engine : Option (LoggedEngine SimulatedEngine)) (_ : LoggedShared State) =>
        ∀ e ∈ engine, e.engine.Fresh)
    (hengine : p.engine = some e) (hopen : e.engine.isOpen = true) (hready : p.ready = none)
    (hstatus : p.status = .ended)
    : p.switchSegment.ready = none
        ∧ (p.switchSegment.status = .ended ∨ p.switchSegment.Untouched) := by
  refine ⟨p.switchSegment_ready hready, ?_⟩
  cases hqueued : p.segments.queued with
  | none =>
    left
    rw [switchSegment_of_queued_none p hqueued]
    exact hstatus
  | some packet =>
    right
    refine ⟨p.upholds_switchSegment hqueued hinvariant (by simp) ?_, p.switchSegment_ready hready⟩
    intro other hother
    rw [hengine] at hother
    cases hother
    intro reply other hother
    cases hother
    exact ⟨hopen, rfl, rfl⟩

theorem Untouched.drains [PacketRecorder ρ] (hp : p.Untouched) (hengine : p.engine = some e)
    (hpending : p.pending = none)
    : (p.sendPending e).readFrame.ready = none
        ∧ ((p.sendPending e).readFrame.status = .ended ∨ (p.sendPending e).readFrame.Untouched) := by
  have hfresh := hp.engine hengine
  have hready : (p.sendPending e).ready = none := (p.sendPending_ready e).trans hp.ready
  have hdrivers : (p.sendPending e).drivers = p.drivers :=
    congrArg Outline.drivers (outline_sendPending (.nothing _ _) p e)
  let drained : LoggedEngine SimulatedEngine :=
    ⟨{ e.engine with framedrop := p.pendingFrameDrop, draining := true }, e.number, p.pendingFrameDrop⟩
  have hdrained : (p.sendPending e).engine = some drained := by
    rw [(p.sendPending_engine e).1]
    unfold sendReply
    rw [hpending]
    rfl
  rcases (p.sendPending e).receives_readFrame hdrained hready with ⟨other, hother, -, hreads⟩
  rw [hdrained] at hother
  cases hother
  rw [receive_drained drained hfresh.queue rfl] at hreads
  generalize (p.sendPending e).readFrame = q at hreads
  cases hreads with
  | exhausted =>
    refine renewed_switchSegment ?_ rfl hfresh.isOpen hready rfl
    change Engine.Invariant (p.sendPending e).drivers _
    rw [hdrivers]
    exact hp.fresh.invariant

theorem Untouched.doWork [PacketFeed φ] [PacketRecorder ρ] (hp : p.Untouched)
    (hidle : ∀ e r, p.readFrame.sending = some (e, r) → r.pending = none)
    : p.doWork.ready = none ∧ (p.doWork.status = .ended ∨ p.doWork.Untouched) := by
  cases hengine : p.engine with
  | none =>
    rw [doWork_of_detached hengine]
    exact ⟨hp.ready, .inl rfl⟩
  | some e =>
    have hread := hp.readFrame
    cases hsending : p.readFrame.sending with
    | none =>
      rw [doWork_of_idle p (Option.isSome_of_eq_some hengine) hread.ready]
      rcases p.readFrame.feedPacket_of_not_sending hsending with hfed | ⟨-, -, -, hfed⟩
      . rw [hfed]
        split
        . exact ⟨hread.ready, .inr hread⟩
        . exact ⟨hread.readFrame.ready, .inr hread.readFrame⟩
      . rw [hfed]
        exact ⟨hread.ready, .inr (hread.of_eq rfl rfl rfl)⟩
    | some sent =>
      rcases sent with ⟨other, r⟩
      rcases hread.sending hsending with ⟨huntouched, hattached⟩
      rw [doWork_of_sending hsending]
      exact huntouched.drains hattached (hidle other r hsending)

end Idle

section Stalling

variable [PacketFeed φ] [PacketRecorder ρ]
variable {p q r x : SimulatedPipeline φ ρ}
variable {e : LoggedEngine SimulatedEngine} {packet : Packet} {refusals count : Nat}

structure Submits (p r : SimulatedPipeline φ ρ)
    (e : LoggedEngine SimulatedEngine) (packet : Packet) : Prop where
  sending : p.readFrame.sending = some (e, r)
  engine : r.engine = some e
  fresh : e.engine.Fresh
  ready : r.ready = none
  pending : r.pending = some packet
  home : r.startsSegment packet = false
  maySkip : r.maySkip = false
  status : r.status = .again

omit [PacketRecorder ρ] in
theorem Untouched.submits (hp : p.Untouched) (hsending : p.readFrame.sending = some (e, r))
    (hpending : r.pending = some packet)
    : p.Submits r e packet := by
  rcases sending_eq hsending with ⟨hengine, hready, -, hheld⟩
  have huntouched := hp.readFrame.sending hsending
  rcases Option.isSome_iff_exists.mp (attached_of_readFrame (Option.isSome_of_eq_some hengine)) with
    ⟨engine, hattached⟩
  rcases hp.receives (p.receives_readFrame hattached hp.ready) with ⟨-, hstatus, hmaySkip⟩
  rcases sending_fields hsending with ⟨feed, pending, queued, phase, journal, hr⟩
  refine ⟨hsending, huntouched.2, huntouched.1.engine huntouched.2, huntouched.1.ready, hpending,
    ?_, ?_, ?_⟩
  . rw [hheld] at hpending ⊢
    exact startsSegment_of_held _ hpending
  . rw [hr]
    exact hmaySkip
  . rw [hr]
    exact hstatus

omit [PacketRecorder ρ] in
theorem Submits.drivers (hsubmits : p.Submits r e packet) : r.drivers = p.drivers := by
  rcases sending_fields hsubmits.sending with ⟨feed, pending, queued, phase, journal, rfl⟩
  exact p.readFrame_drivers

theorem add_recordSendRetry (h : Health) (count : Nat)
    : (h.add { sendRetries := count.toUInt64 }).recordSendRetry
        = h.add { sendRetries := (count + 1).toUInt64 } := by
  have hsum : (count + 1).toUInt64 = count.toUInt64 + 1 := UInt64.ofNat_add count 1
  rw [Health.recordSendRetry_eq, hsum]
  simp [Health.add, UInt64.add_assoc]

theorem Submits.refused (hsubmits : p.Submits r e packet)
    (hlockstep : Lockstep (.refusing (refusals + 1) count) r x)
    (hhidden : (Difference.refusing refusals (count + 1)).Hidden r.drivers)
    : p.doWork.ready = none ∧ p.doWork.status = .again
        ∧ ∃ e' r', p.doWork.Submits r' e' packet ∧ r'.drivers = r.drivers
          ∧ Lockstep (.refusing refusals (count + 1)) r' (x.noting packet) := by
  have hengines := hlockstep.engines
  rcases hlockstep.attached with ⟨hdetached, -⟩ | ⟨_, e', hsame, hx, hengines⟩
  . rw [hsubmits.engine] at hdetached
    cases hdetached
  rw [hsubmits.engine] at hsame
  cases hsame
  let directive := r.pendingFrameDrop
  let told : LoggedEngine SimulatedEngine :=
    ⟨{ e.engine with framedrop := directive }, e.number, directive⟩
  have hfresh : told.engine.Fresh :=
    ⟨hsubmits.fresh.isOpen, hsubmits.fresh.queue, hsubmits.fresh.draining⟩
  rcases Difference.refusing_of_refused hengines directive (r.forEngine packet) with
    ⟨first, hrefused, hfirst⟩
  rcases Difference.refusing_of_pending hfirst hfresh with ⟨second, hsecond, hpending⟩
  rcases Difference.refusing_of_pending hpending hfresh with ⟨third, hthird, hstill⟩
  let retried : SimulatedPipeline φ ρ :=
    { r.noting packet with engine := some told, health := r.health.recordSendRetry, status := .again }
  have hsent : r.sendPending e = { retried with shared := first } :=
    sendPending_of_refused hsubmits.pending hrefused
  have hwork : p.doWork = { retried with shared := second } := by
    rw [doWork_of_sending hsubmits.sending, hsent]
    exact readFrame_of_pending rfl hsubmits.ready hsubmits.maySkip hsecond
  have hread : p.doWork.readFrame = { retried with shared := third } := by
    rw [hwork]
    exact readFrame_of_pending rfl hsubmits.ready hsubmits.maySkip hthird
  have hagain : p.doWork.Submits { retried with shared := third } told packet := by
    refine ⟨?_, rfl, hfresh, hsubmits.ready, hsubmits.pending, hsubmits.home, hsubmits.maySkip, rfl⟩
    rw [hread]
    exact sending_of_pending rfl hsubmits.ready hsubmits.pending hsubmits.home
  refine ⟨?_, ?_, told, { retried with shared := third }, hagain, rfl, ?_⟩
  . rw [hwork]
    exact hsubmits.ready
  . rw [hwork]
  . have hhealth : r.health.recordSendRetry
        = x.health.add { sendRetries := (count + 1).toUInt64 } := by
      rw [show r.health = _ from hlockstep.health]
      exact add_recordSendRetry x.health count
    rw [← hx] at hstill
    exact
      { hlockstep with
        hidden := hhidden
        engines := hstill
        health := hhealth
        timeline := congrArg (·.notePacket packet.pts packet.dts) hlockstep.timeline
        status := hsubmits.status.symm.trans hlockstep.status }

theorem Submits.stalls (hsubmits : p.Submits r e packet)
    (hlockstep : Lockstep (.refusing refusals count) r x)
    (hhidden : ∀ refusals count, (Difference.refusing refusals count).Hidden r.drivers)
    {e' : LoggedEngine SimulatedEngine} (hx : x.engine = some e')
    : ∃ (q r' : SimulatedPipeline φ ρ) (e'' : LoggedEngine SimulatedEngine),
        (∀ rounds, p.playOut (rounds + refusals) = q.playOut rounds)
          ∧ q.Submits r' e'' packet ∧ r'.drivers = r.drivers
          ∧ Lockstep (.refusing 0 (count + refusals)) q.doWork (x.sendPending e').readFrame := by
  -- Each refusal takes one step, after which the packet is submitted once more.
  induction refusals generalizing p r e x count with
  | zero =>
    refine ⟨p, r, e, fun rounds => rfl, hsubmits, rfl, ?_⟩
    have hsends : (Difference.refusing 0 count).HiddenBySending :=
      Difference.hiddenBySending_refusing
    have hengines := hlockstep.engines
    rw [hsubmits.engine, hx] at hengines
    rw [doWork_of_sending hsubmits.sending]
    apply Lockstep.readFrame
    apply hlockstep.sendPending
    rw [hlockstep.pendingFrameDrop]
    exact hlockstep.sendReply hsends hengines _
  | succ refusals ih =>
    rcases hsubmits.refused hlockstep (hhidden _ _) with
      ⟨hready, hstatus, e₁, r₁, hnext, hdrivers, hstep⟩
    have hpending : x.pending = some packet := hlockstep.pending.symm.trans hsubmits.pending
    rcases ih hnext hstep (hdrivers ▸ hhidden) hx with
      ⟨q, r', e'', hplay, hsubmits', hdrivers', hlast⟩
    refine ⟨q, r', e'', ?_, hsubmits', hdrivers'.trans hdrivers, ?_⟩
    . intro rounds
      rw [← hplay rounds, ← Nat.add_assoc, playOut_of_idle hready, hstatus]
      rfl
    . rw [noting_sendPending hpending, Nat.add_right_comm] at hlast
      exact hlast

end Stalling

section Runs

variable [PacketFeed φ] [PacketRecorder ρ]
variable {p q last : SimulatedPipeline (TracedFeed φ) ρ} {refusals : Nat}

theorem offered_doWork (hlogs : p.HasLogs)
    : p.doWork.shared.offered = (p.shared.offered || p.offering.any (·.packet.isSome)) := by
  have hsent := doWork_logged_sendings hlogs
  unfold LoggedShared.offered
  rw [hsent]
  simp [Offer.sending, Function.comp_def]

theorem playOut_offered (hlogs : p.HasLogs) (hoffered : p.doWork.shared.offered = true) {rounds : Nat}
    {frames : List Frame} (hplay : p.playOut rounds = some (frames, last))
    : last.shared.offered = true := by
  have hround (q : SimulatedPipeline (TracedFeed φ) ρ) (hq : q.HasLogs)
      (hoffered : q.doWork.shared.offered = true)
      : q.doWork.getFrame.2.2.HasLogs ∧ q.doWork.getFrame.2.2.shared.offered = true := by
    have hworked : q.doWork.HasLogs := hq.of_eq (q.perform_drivers .work)
    refine ⟨hworked.of_eq (q.doWork.perform_drivers .take), ?_⟩
    unfold LoggedShared.offered at hoffered ⊢
    rw [hworked.upholds_sendings.getFrame.state]
    exact hoffered
  have hlast : last.HasLogs ∧ last.shared.offered = true := by
    refine playOut_induct hplay (motive := fun q => q.HasLogs ∧ q.shared.offered = true) ?_ ?_
    . exact hround p hlogs hoffered
    . intro q hq
      apply hround q hq.1
      rw [offered_doWork hq.1, hq.2]
      rfl
  exact hlast.2

omit [PacketRecorder ρ] in
theorem sendsAlike_of_idle {p q : SimulatedPipeline φ ρ} {count : Nat}
    (hidle : ∀ e r, p.sending = some (e, r) → r.pending = none)
    : SendsAlike (.refusing refusals count) p q := by
  intro e r e' r' hsending _ hstep hengines
  have hpending := hidle e r hsending
  have hdrain := Difference.sendsAlike_drain hengines r.pendingFrameDrop
  have hreply : r.sendReply e r.pendingFrameDrop
      = Engine.sendTold e r.shared r.pendingFrameDrop none := by
    unfold sendReply
    rw [hpending]
    rfl
  have hreply' : r'.sendReply e' r.pendingFrameDrop
      = Engine.sendTold e' r'.shared r.pendingFrameDrop none := by
    unfold sendReply
    rw [← hstep.pending, hpending]
    rfl
  rw [← hstep.pendingFrameDrop, hreply, hreply']
  exact hdrain

theorem offered_of_idle (hlogs : p.HasLogs) (hunoffered : p.shared.offered = false)
    (hidle : ∀ e r, p.readFrame.sending = some (e, r) → r.pending = none)
    : p.doWork.shared.offered = false := by
  rw [offered_doWork hlogs, hunoffered, Bool.false_or]
  unfold offering feeding
  cases hsending : p.readFrame.sending with
  | none => rfl
  | some sent =>
    have hpending := hidle sent.1 sent.2 hsending
    simp [offerTo, hpending]

theorem Submits.offered {r : SimulatedPipeline (TracedFeed φ) ρ} {e : LoggedEngine SimulatedEngine}
    {packet : Packet} (hsubmits : p.Submits r e packet) (hlogs : p.HasLogs)
    : p.doWork.shared.offered = true := by
  rw [offered_doWork hlogs]
  unfold offering feeding
  rw [hsubmits.sending]
  simp [offerTo, hsubmits.pending]

theorem Submits.playOut {r x : SimulatedPipeline (TracedFeed φ) ρ}
    {e e' : LoggedEngine SimulatedEngine} {packet : Packet} {rounds : Nat} {frames : List Frame}
    (hsubmits : p.Submits r e packet) (hlockstep : Lockstep (.refusing refusals 0) r x)
    (hhidden : ∀ refusals count, (Difference.refusing refusals count).Hidden p.drivers)
    (hlogs : p.HasLogs) (hsending : q.readFrame.sending = some (e', x))
    (hplay : q.playOut rounds = some (frames, last))
    : ∃ last' : SimulatedPipeline (TracedFeed φ) ρ,
        p.playOut (rounds + refusals) = some (frames, last') ∧ last'.shared.offered = true
          ∧ Lockstep (.refusing 0 refusals) last' last := by
  have hx : x.engine = some e' := (outline_sending (.nothing _ _) _ hsending).2.2.1
  rw [← hsubmits.drivers] at hhidden
  rcases hsubmits.stalls hlockstep hhidden hx with ⟨p', r', e'', hstalls, hlast, hdrivers, hwork⟩
  rw [Nat.zero_add, ← doWork_of_sending hsending] at hwork
  have hlogs' : p'.HasLogs := by
    apply hlogs.of_eq
    rw [← hlast.drivers, hdrivers, hsubmits.drivers]
  have hplayed := hwork.playOut Difference.hiddenBySending_refusing rounds
  rw [hplay] at hplayed
  generalize hplay' : p'.playOut rounds = played at hplayed
  cases hplayed with
  | @some played _ hsame =>
    rcases played with ⟨frames', last'⟩
    rcases hsame with ⟨hframes, hend⟩
    dsimp only at hframes hend
    subst hframes
    exact ⟨last', (hstalls _).trans hplay', playOut_offered hlogs' (hlast.offered hlogs') hplay', hend⟩

theorem playOut_refusing {rounds : Nat} {frames : List Frame}
    (hlockstep : Lockstep (.refusing refusals 0) p q)
    (hhidden : ∀ refusals count, (Difference.refusing refusals count).Hidden p.drivers)
    (hlogs : p.HasLogs) (huntouched : p.Untouched) (hunoffered : p.shared.offered = false)
    (hplay : q.playOut rounds = some (frames, last))
    : ∃ (rounds' : Nat) (last' : SimulatedPipeline (TracedFeed φ) ρ) (left : Nat),
        p.playOut rounds' = some (frames, last')
          ∧ Lockstep (.refusing left (if last'.shared.offered then refusals else 0)) last' last := by
  -- The induction is on the run without refusals, of which each step is matched by one step or stalls.
  induction rounds generalizing p q with
  | zero => cases hplay
  | succ rounds ih =>
    by_cases hidle : ∀ e r, p.readFrame.sending = some (e, r) → r.pending = none
    . rcases huntouched.doWork hidle with ⟨hready, hstill⟩
      have hwork := hlockstep.work (sendsAlike_of_idle hidle)
      have hunoffered' := offered_of_idle hlogs hunoffered hidle
      have hdrivers := p.perform_drivers .work
      rw [playOut_of_idle (hwork.ready.symm.trans hready), ← hwork.status] at hplay
      split at hplay
      . next hended =>
        cases hplay
        refine ⟨1, p.doWork, refusals, ?_, ?_⟩
        . rw [playOut_of_idle hready, if_pos hended]
        . rw [hunoffered']
          exact hwork
      . next hgoes =>
        have huntouched' := hstill.resolve_left hgoes
        rcases ih hwork (hdrivers ▸ hhidden) (hlogs.of_eq hdrivers) huntouched' hunoffered' hplay with
          ⟨rounds', last', left, hplay', hlast⟩
        refine ⟨rounds' + 1, last', left, ?_, hlast⟩
        rw [playOut_of_idle hready, if_neg hgoes]
        exact hplay'
    . simp only [not_forall] at hidle
      rcases hidle with ⟨e, r, hsending, hpending⟩
      rcases Option.ne_none_iff_exists'.mp hpending with ⟨packet, hpacket⟩
      rcases hlockstep.readFrame.sending with ⟨hnone, -⟩ | ⟨_, _, e', x, hsame, hsending', hstep, -⟩
      . rw [hnone] at hsending
        cases hsending
      . rw [hsending] at hsame
        cases hsame
        rcases (huntouched.submits hsending hpacket).playOut hstep hhidden hlogs hsending' hplay with
          ⟨last', hplay', hoffered, hlast⟩
        refine ⟨rounds + 1 + refusals, last', 0, hplay', ?_⟩
        rw [hoffered]
        exact hlast

end Runs

end Pipeline

end DecodePipeline
