import DecodePipeline.Proofs.Pipeline.Boundaries
import DecodePipeline.Proofs.Pipeline.Holding
import DecodePipeline.Proofs.Pipeline.Lifecycle
import DecodePipeline.Proofs.Pipeline.Playout

/-!
This module contains the end of runs: if the feed comes to an end, the engines take everything at once
and they give everything back when they drain, then the pipeline ends, and it never has to send
anything twice. The bounds of the segments have to be numbers.
-/

namespace DecodePipeline

structure Supply (ω ε φ : Type) where
  -- what is known of the attached engine and of the state that engines share
  holds : Option ε → ω → Prop
  frames : ε → Nat
  drains : ε → Prop
  readings : φ → Nat
  proper : φ → Prop

namespace Supply

variable {ω ε φ : Type}

def left (s : Supply ω ε φ) (engine : Option ε) : Nat := (engine.map s.frames).getD 0

variable [Engine ω ε] [PacketFeed φ]

structure Finite (s : Supply ω ε φ) (drivers : List (Driver ω ε)) : Prop where
  invariant : Engine.Invariant drivers s.holds
  lasting : Engine.Lasting s.holds
  left : ∀ limit, Engine.Invariant drivers fun engine _ => s.left engine ≤ limit
  send : ∀ (engine : ε) (shared : ω) (directive : FrameDrop) (packet : Option Packet),
    s.holds (some engine) shared →
      let reply := Engine.sendTold engine shared directive packet
      reply.answer = true ∧ s.frames reply.engine ≤ s.frames engine + packet.toList.length
        ∧ (packet = none → s.drains reply.engine)
  receive : ∀ (engine : ε) (shared : ω), s.holds (some engine) shared →
    let reply := Engine.receive engine shared
    match reply.answer with
    | .frame _ => s.frames reply.engine < s.frames engine
    | .pending => s.frames reply.engine ≤ s.frames engine ∧ ¬ s.drains engine
    | .exhausted => s.frames reply.engine ≤ s.frames engine
  item : ∀ {feed after : φ} {packet : Packet}, s.proper feed →
    PacketFeed.tryRead feed = (.item packet, after) →
      packet.bounds.Proper ∧ s.proper after ∧ s.readings after < s.readings feed
  empty : ∀ {feed after : φ}, s.proper feed → PacketFeed.tryRead feed = (.empty, after) →
    s.proper after ∧ s.readings after < s.readings feed
  ended : ∀ {feed after : φ}, s.proper feed → PacketFeed.tryRead feed = (.ended, after) →
    s.proper after ∧ s.readings after ≤ s.readings feed

end Supply

namespace Pipeline

variable {ω ε φ ρ : Type} {s : Supply ω ε φ}

/--
How long the pipeline can still go on. A packet that is read is held back, comes again when its segment
starts, and then becomes a frame, and each of these makes it less.
-/
def potential (s : Supply ω ε φ) (p : Pipeline ω ε φ ρ) : Nat :=
  4 * s.readings p.feed + 3 * p.segments.queued.toList.length + 2 * p.pending.toList.length
    + s.left p.engine

variable [Engine ω ε] [PacketFeed φ] {p q filled : Pipeline ω ε φ ρ}

structure Finishing (s : Supply ω ε φ) (p : Pipeline ω ε φ ρ) : Prop where
  finite : s.Finite p.drivers
  state : s.holds p.engine p.shared
  separate : p.Separate
  home : ∀ packet, p.pending = some packet → p.segments.isNewSegment packet p.codec = false
  proper : ∀ packet ∈ p.held, packet.bounds.Proper
  feed : s.proper p.feed

theorem Finishing.upholds (hp : p.Finishing s) : p.Upholds s.holds := ⟨hp.finite.invariant, hp.state⟩

theorem Finishing.upholds_left (hp : p.Finishing s)
    : p.Upholds fun engine _ => s.left engine ≤ s.left p.engine :=
  ⟨hp.finite.left _, Nat.le_refl _⟩

section Switch

omit [PacketFeed φ] in
theorem switchSegment_pending (p : Pipeline ω ε φ ρ) {packet : Packet}
    (hqueued : p.segments.queued = some packet)
    : (p.switchSegment.pending = some packet ∧ p.switchSegment.segments = { bounds := packet.bounds }
          ∧ SegmentTracker.switchKind packet p.switchSegment.codec = .continue)
        ∨ p.switchSegment.pending = none := by
  cases hkind : SegmentTracker.switchKind packet p.codec with
  | «continue» =>
    have houtline := outline_switchSegment_continue (.nothing ω ε) p hqueued hkind
    have hcodec : p.switchSegment.codec = p.codec := congrArg Outline.codec houtline
    refine .inl ⟨congrArg Outline.pending houtline, congrArg Outline.segments houtline, ?_⟩
    rw [hcodec]
    exact hkind
  | reinit codec =>
    have houtline := outline_switchSegment_reinit (.nothing ω ε) p hqueued hkind
    have hpending := congrArg Outline.pending houtline
    have hsegments := congrArg Outline.segments houtline
    have hcodec : p.switchSegment.codec = codec := congrArg Outline.codec houtline
    dsimp only [outline] at hpending hsegments
    rw [hpending, hsegments, hcodec]
    split
    . exact .inl ⟨rfl, rfl, SegmentTracker.switchKind_of_reinit hkind⟩
    . exact .inr rfl

theorem Finishing.switchSegment (hp : p.Finishing s)
    : p.switchSegment.Finishing s
        ∧ (p.switchSegment = p ∨ potential s p.switchSegment < potential s p) := by
  cases hqueued : p.segments.queued with
  | none =>
    rw [switchSegment_of_queued_none p hqueued]
    exact ⟨hp, .inl rfl⟩
  | some packet =>
    have hpending : p.pending = none := by simpa [Separate, hqueued] using hp.separate
    have hproper : packet.bounds.Proper := hp.proper packet (by simp [held, hqueued])
    have hfeed := p.switchSegment_sameSetting.feed
    have hnone := p.switchSegment_queued
    have hleft := hp.upholds_left.switchSegment.state
    have hstate := hp.upholds.switchSegment.state
    have hfinite := hp.finite
    rw [← p.switchSegment_drivers] at hfinite
    have hgood := hp.feed
    rw [← hfeed] at hgood
    refine ⟨⟨hfinite, hstate, .inr hnone, ?_, ?_, hgood⟩, .inr ?_⟩
    . rcases p.switchSegment_pending hqueued with ⟨hsome, hsegments, hkind⟩ | hgone
      . intro other hother
        rw [hsome] at hother
        cases hother
        rw [hsegments]
        exact SegmentTracker.not_isNewSegment_of_entered hproper hkind
      . rw [hgone]
        rintro _ ⟨⟩
    . intro other hother
      unfold held at hother
      rw [hnone] at hother
      rcases p.switchSegment_pending hqueued with ⟨hsome, -, -⟩ | hgone
      . rw [hsome] at hother
        simp only [Option.toList_some, Option.toList_none, List.append_nil,
          List.mem_singleton] at hother
        rw [hother]
        exact hproper
      . rw [hgone] at hother
        cases hother
    . have hat_most : p.switchSegment.pending.toList.length ≤ 1 := by
        cases p.switchSegment.pending <;> simp
      unfold potential
      rw [hfeed, hnone, hqueued, hpending]
      simp only [Option.toList_none, Option.toList_some, List.length_nil, List.length_singleton]
      omega

end Switch

section Reading

structure Dwindles (s : Supply ω ε φ) (p q : Pipeline ω ε φ ρ) : Prop where
  finishing : q.Finishing s
  potential : potential s q ≤ potential s p
  retries : q.health.sendRetries = p.health.sendRetries

theorem Finishing.dwindles_of_outline (hp : p.Finishing s)
    (houtline : ∃ ready, q.outline (.nothing ω ε) = { p.outline (.nothing ω ε) with ready })
    (hstate : s.holds q.engine q.shared) (hleft : s.left q.engine ≤ s.left p.engine)
    (hretries : q.health.sendRetries = p.health.sendRetries)
    : Dwindles s p q := by
  rcases houtline with ⟨ready, houtline⟩
  have hdrivers : q.drivers = p.drivers := congrArg Outline.drivers houtline
  have hpending : q.pending = p.pending := congrArg Outline.pending houtline
  have hsegments : q.segments = p.segments := congrArg Outline.segments houtline
  have hcodec : q.codec = p.codec := congrArg Outline.codec houtline
  have hfeed : q.feed = p.feed := congrArg Outline.feed houtline
  refine ⟨⟨?_, hstate, hp.separate.of_eq hpending hsegments, ?_, ?_, ?_⟩, ?_, hretries⟩
  . rw [hdrivers]
    exact hp.finite
  . rw [hpending, hsegments, hcodec]
    exact hp.home
  . unfold held
    rw [hpending, hsegments]
    exact hp.proper
  . rw [hfeed]
    exact hp.feed
  . unfold potential
    rw [hpending, hsegments, hfeed]
    omega

theorem Finishing.dwindles_switchSegment (hp : p.Finishing s) : Dwindles s p p.switchSegment := by
  rcases hp.switchSegment with ⟨hswitched, hless⟩
  refine ⟨hswitched, ?_, ?_⟩
  . rcases hless with hsame | hless
    . rw [hsame]
    . exact Nat.le_of_lt hless
  . exact p.switchSegment_counted Health.sendRetries fun _ _ => rfl

theorem Finishing.dwindles_self (hp : p.Finishing s) : Dwindles s p p := ⟨hp, Nat.le_refl _, rfl⟩

theorem Dwindles.trans {r : Pipeline ω ε φ ρ} (hpq : Dwindles s p q) (hqr : Dwindles s q r)
    : Dwindles s p r :=
  ⟨hqr.finishing, Nat.le_trans hqr.potential hpq.potential, hqr.retries.trans hpq.retries⟩

theorem Finishing.dwindles_outcome (hp : p.Finishing s) (ready : Option Frame) (health : Health)
    (dropped : Nat) (maySkip : Bool) (status : Status)
    (hretries : health.sendRetries = p.health.sendRetries)
    : Dwindles s p { p with health, ready, dropped, maySkip, status } :=
  hp.dwindles_of_outline ⟨ready, rfl⟩ hp.state (Nat.le_refl _) hretries

theorem Settles.dwindles {frame settled : Frame} (hsettles : p.Settles q frame settled)
    (hp : p.Finishing s)
    : Dwindles s p q := by
  rcases hsettles.health with ⟨synthesized, hhealth⟩
  apply hp.dwindles_of_outline ⟨p.ready, hsettles.outline⟩
  . exact (hsettles.upholds _ hp.upholds).state
  . exact (hsettles.upholds _ hp.upholds_left).state
  . rw [hhealth]
    rfl

theorem Reads.dwindles {answer : Received} (hreads : p.Reads answer q) (hp : p.Finishing s)
    : Dwindles s p q := by
  cases hreads with
  | @stored q frame settled hsettles =>
    have hsettled := hsettles.dwindles hp
    exact hsettled.trans (hsettled.finishing.dwindles_outcome (some settled) _ _ _ _ rfl)
  | @discarded q frame settled hsettles =>
    have hsettled := hsettles.dwindles hp
    exact hsettled.trans
      (hsettled.finishing.dwindles_outcome _ q.health.recordDiscarded _ _ _ rfl)
  | @passed q frame settled hsettles =>
    have hsettled := hsettles.dwindles hp
    have hdiscarded := hsettled.trans
      (hsettled.finishing.dwindles_outcome q.ready q.health.recordDiscarded q.dropped q.maySkip
        .again rfl)
    exact hdiscarded.trans hdiscarded.finishing.dwindles_switchSegment
  | @missed health dropped hhealth =>
    have hretries : health.sendRetries = p.health.sendRetries := by
      rcases hhealth with rfl | rfl
      . rfl
      . rfl
    exact hp.dwindles_outcome _ _ _ _ _ hretries
  | exhausted =>
    have hended := hp.dwindles_outcome p.ready p.health p.dropped false .ended rfl
    exact hended.trans hended.finishing.dwindles_switchSegment

theorem Finishing.dwindles_afterReply (hp : p.Finishing s) {engine : ε}
    (hengine : p.engine = some engine)
    : let reply := Engine.receive engine p.shared
      Dwindles s p (p.afterReply reply)
        ∧ match reply.answer with
          | .frame _ => potential s (p.afterReply reply) < potential s p
          | .pending => ¬ s.drains engine
          | .exhausted => True := by
  intro reply
  have hstate := hp.state
  rw [hengine] at hstate
  have hreceived := hp.finite.receive engine p.shared hstate
  have hlasting := hp.finite.lasting.receive engine p.shared hstate
  dsimp only at hreceived
  have houtline : (p.afterReply reply).outline (.nothing ω ε) = p.outline (.nothing ω ε) := by
    simp [outline, afterReply, hengine, Engine.View.nothing]
  have hleft : s.left p.engine = s.frames engine := by
    rw [hengine]
    rfl
  have hleft' : s.left (p.afterReply reply).engine = s.frames reply.engine := rfl
  have hdwindles (hlimit : s.frames reply.engine ≤ s.frames engine)
      : Dwindles s p (p.afterReply reply) := by
    apply hp.dwindles_of_outline ⟨p.ready, houtline⟩ hlasting _ rfl
    rw [hleft, hleft']
    exact hlimit
  cases hanswer : reply.answer with
  | frame frame =>
    rw [hanswer] at hreceived
    refine ⟨hdwindles (Nat.le_of_lt hreceived), ?_⟩
    dsimp only
    unfold potential
    rw [hleft, hleft']
    exact Nat.add_lt_add_left hreceived _
  | pending =>
    rw [hanswer] at hreceived
    exact ⟨hdwindles hreceived.1, hreceived.2⟩
  | exhausted =>
    rw [hanswer] at hreceived
    exact ⟨hdwindles hreceived, trivial⟩

theorem Receives.dwindles (hreceives : p.Receives q) (hp : p.Finishing s)
    : Dwindles s p q
        ∧ (potential s q < potential s p
          ∨ (q.ready = none ∧ q.engine.isSome
            ∧ (q.status = .ended ∨ ∀ engine, p.engine = some engine → ¬ s.drains engine))) := by
  rcases hreceives with ⟨engine, hengine, hready, hreads⟩
  rcases hp.dwindles_afterReply hengine with ⟨hreply, hgiven⟩
  generalize Engine.receive engine p.shared = reply at hreads hreply hgiven
  have hread := hreads.dwindles hreply.finishing
  refine ⟨hreply.trans hread, ?_⟩
  cases hanswer : reply.answer with
  | frame frame =>
    rw [hanswer] at hgiven
    exact .inl (Nat.lt_of_le_of_lt hread.potential hgiven)
  | pending =>
    rw [hanswer] at hreads hgiven
    cases hreads with
    | missed =>
      refine .inr ⟨hready, rfl, .inr ?_⟩
      rintro other hother
      rw [hengine] at hother
      cases hother
      exact hgiven
  | exhausted =>
    rw [hanswer] at hreads
    cases hreads with
    | exhausted =>
      have hended : Dwindles s p { p.afterReply reply with maySkip := false, status := .ended } :=
        hreply.trans (hreply.finishing.dwindles_outcome _ _ _ _ _ rfl)
      rcases hended.finishing.switchSegment with ⟨-, hsame | hless⟩
      . right
        rw [hsame]
        exact ⟨hready, rfl, .inl rfl⟩
      . exact .inl (Nat.lt_of_lt_of_le hless hended.potential)

end Reading

section Feeding

variable {asked : Option (Poll Packet)} {engine : ε}

theorem Finishing.startsSegment (hp : p.Finishing s) {packet : Packet}
    (hpending : p.pending = some packet)
    : p.startsSegment packet = false := by
  unfold Pipeline.startsSegment
  rw [hp.home packet hpending, Bool.and_false]

theorem Finishing.receive_item (hp : p.Finishing s) (hidle : p.held = []) {packet : Packet} {feed : φ}
    (htry : PacketFeed.tryRead p.feed = (.item packet, feed))
    : Dwindles s p ({ p with feed, pending := some packet } : Pipeline ω ε φ ρ).holdNewSegment := by
  rcases p.held_eq_nil.mp hidle with ⟨hpending, hqueued⟩
  rcases hp.finite.item hp.feed htry with ⟨hbounds, hgood, hless⟩
  rcases holdNewSegment_cases { p with feed, pending := some packet } with
    ⟨hhold, hstarts⟩ | ⟨other, hother, -, hhold⟩
  . rw [hhold]
    have hnew : p.segments.isNewSegment packet p.codec = false := by
      have hstarts := hstarts packet rfl
      unfold Pipeline.startsSegment SegmentTracker.hasQueued at hstarts
      simpa [hqueued] using hstarts
    refine ⟨⟨hp.finite, hp.state, .inr hqueued, ?_, ?_, hgood⟩, ?_, rfl⟩
    . rintro _ ⟨⟩
      exact hnew
    . simpa [held, hqueued] using hbounds
    . simp only [potential, hqueued, hpending, Option.toList_none, Option.toList_some,
        List.length_nil, List.length_singleton]
      omega
  . cases hother
    rw [hhold]
    refine ⟨⟨hp.finite, hp.state, .inl rfl, ?_, ?_, hgood⟩, ?_, rfl⟩
    . rintro _ ⟨⟩
    . simpa [held, SegmentTracker.queue] using hbounds
    . simp only [potential, SegmentTracker.queue, say, hqueued, hpending, Option.toList_none,
        Option.toList_some, List.length_nil, List.length_singleton]
      omega

theorem Fills.dwindles (hfills : p.Fills asked filled) (hp : p.Finishing s)
    : Dwindles s p filled.holdNewSegment := by
  cases hfills with
  | held hheld =>
    cases hpending : p.pending with
    | none =>
      rw [holdNewSegment_of_pending_none p hpending]
      exact hp.dwindles_self
    | some packet =>
      rw [holdNewSegment_of_same p hpending (hp.startsSegment hpending)]
      exact hp.dwindles_self
  | item hidle htry => exact hp.receive_item hidle htry
  | @ended feed hidle htry =>
    rcases hp.finite.ended hp.feed htry with ⟨hgood, hless⟩
    rw [holdNewSegment_of_pending_none { p with feed } (p.held_eq_nil.mp hidle).1]
    refine ⟨⟨hp.finite, hp.state, hp.separate, hp.home, hp.proper, hgood⟩, ?_, rfl⟩
    unfold potential
    dsimp only
    omega

variable [PacketRecorder ρ]

omit [PacketRecorder ρ] in
theorem Finishing.accepts (hp : p.Finishing s) (hengine : p.engine = some engine)
    : let reply := p.sendReply engine p.pendingFrameDrop
      reply.answer = true ∧ s.frames reply.engine ≤ s.frames engine + p.pending.toList.length
        ∧ (p.pending = none → s.drains reply.engine) := by
  intro reply
  have hstate := hp.state
  rw [hengine] at hstate
  rcases hp.finite.send engine p.shared p.pendingFrameDrop (p.pending.map p.forEngine) hstate with
    ⟨haccepted, hframes, hdrains⟩
  have hlength : (p.pending.map p.forEngine).toList.length = p.pending.toList.length := by
    cases p.pending <;> rfl
  rw [hlength] at hframes
  refine ⟨haccepted, hframes, ?_⟩
  intro hpending
  apply hdrains
  rw [hpending]
  rfl

theorem Finishing.sendPending (hp : p.Finishing s) (hengine : p.engine = some engine)
    : Dwindles s p (p.sendPending engine)
        ∧ (potential s (p.sendPending engine) < potential s p
          ∨ ∀ after, (p.sendPending engine).engine = some after → s.drains after) := by
  rcases hp.accepts hengine with ⟨haccepted, hframes, hdrains⟩
  have hsends := hp.upholds.sends hp.finite.lasting hengine
  have hretries := p.sendPending_health engine
  have hafter := (p.sendPending_engine engine).1
  have houtline := outline_sendPending (.nothing ω ε) p engine
  have hdrivers : (p.sendPending engine).drivers = p.drivers := congrArg Outline.drivers houtline
  have hfeed : (p.sendPending engine).feed = p.feed := congrArg Outline.feed houtline
  have hsegments : (p.sendPending engine).segments = p.segments :=
    congrArg Outline.segments houtline
  have hpending : (p.sendPending engine).pending = none :=
    (congrArg Outline.pending houtline).trans (if_pos haccepted)
  have hsame : (p.sendPending engine).health.sendRetries = p.health.sendRetries := by
    rw [hretries]
    cases p.pending with
    | none => rfl
    | some packet =>
      dsimp only
      rw [if_pos haccepted]
      rfl
  have hpotential : potential s (p.sendPending engine) + p.pending.toList.length ≤ potential s p := by
    unfold potential Supply.left
    rw [hfeed, hsegments, hpending, hafter, hengine]
    simp only [Option.toList_none, List.length_nil, Option.map_some, Option.getD_some]
    omega
  refine ⟨⟨⟨?_, hsends.state, hp.separate.sendPending engine, ?_, ?_, ?_⟩, ?_, hsame⟩, ?_⟩
  . rw [hdrivers]
    exact hp.finite
  . rw [hpending]
    rintro _ ⟨⟩
  . intro packet hpacket
    unfold held at hpacket
    rw [hpending, hsegments] at hpacket
    exact hp.proper packet (List.mem_append_right _ hpacket)
  . rw [hfeed]
    exact hp.feed
  . omega
  . cases hsent : p.pending with
    | some packet =>
      rw [hsent] at hpotential
      exact .inl (Nat.lt_of_succ_le hpotential)
    | none =>
      right
      rw [hafter]
      rintro _ ⟨⟩
      exact hdrains hsent

theorem Works.dwindles (hworks : p.Works asked q) (hp : p.Finishing s) (hready : p.ready = none)
    : Dwindles s p q
        ∧ (potential s q < potential s p ∨ (q.ready = none ∧ q.status = .ended)) := by
  cases hworks with
  | detached hengine =>
    have hended := hp.dwindles_outcome p.ready p.health p.dropped p.maySkip .ended rfl
    exact ⟨hended, .inr ⟨hready, rfl⟩⟩
  | kept _ hstored =>
    rw [hready] at hstored
    cases hstored
  | stopped hreceives hstop =>
    rcases hreceives.dwindles hp with ⟨hdwindles, hless | ⟨hnone, hsome, -⟩⟩
    . exact ⟨hdwindles, .inl hless⟩
    . rcases hstop with hstored | hdetached
      . rw [hnone] at hstored
        cases hstored
      . rw [hdetached] at hsome
        cases hsome
  | @waited received feed hreceives hnone hidle htry =>
    have hreceived := (hreceives.dwindles hp).1
    have hgood := hreceived.finishing
    rcases hgood.finite.empty hgood.feed htry with ⟨hproper, hread⟩
    have hless : potential s { received with feed, status := .waiting } < potential s received := by
      unfold potential
      dsimp only
      omega
    refine ⟨⟨?_, ?_, hreceived.retries⟩, .inl (Nat.lt_of_lt_of_le hless hreceived.potential)⟩
    . exact ⟨hgood.finite, hgood.state, hgood.separate.of_eq rfl rfl, hgood.home, hgood.proper,
        hproper⟩
    . exact Nat.le_of_lt (Nat.lt_of_lt_of_le hless hreceived.potential)
  | @fed asked received filled last engine hreceives hengine hnone hfills hagain =>
    have hreceived := (hreceives.dwindles hp).1
    have hloaded := hreceived.trans (hfills.dwindles hreceived.finishing)
    have hattached : filled.holdNewSegment.engine = some engine := by
      rcases hfills.holdNewSegment_eq with ⟨pending, queued, phase, journal, hheld⟩
      rw [hheld]
      exact hengine
    rcases hloaded.finishing.sendPending hattached with ⟨hsent, hsending⟩
    rcases hagain.dwindles hsent.finishing with ⟨hlast, hreading⟩
    refine ⟨(hloaded.trans hsent).trans hlast, ?_⟩
    have hbefore := hloaded.potential
    have hafter := hlast.potential
    have hbetween := hsent.potential
    rcases hsending with hless | hdrains
    . left
      omega
    . rcases hreading with hless | ⟨hready, -, hended | hdrained⟩
      . left
        omega
      . exact .inr ⟨hready, hended⟩
      . have hengine := (filled.holdNewSegment.sendPending_engine engine).1
        exact absurd (hdrains _ hengine) (hdrained _ hengine)

theorem Finishing.dwindles_doWork (hp : p.Finishing s) (hready : p.ready = none)
    : Dwindles s p p.doWork
        ∧ (potential s p.doWork < potential s p
          ∨ (p.doWork.ready = none ∧ p.doWork.status = .ended)) := by
  rcases p.doWork_works with ⟨asked, hworks⟩
  exact hworks.dwindles hp hready

omit [PacketRecorder ρ] in
theorem Finishing.dwindles_getFrame (hp : p.Finishing s) : Dwindles s p p.getFrame.2.2 := by
  unfold getFrame
  cases p.ready with
  | none => exact hp.dwindles_self
  | some frame =>
    exact hp.dwindles_outcome none (p.health.recordDelivered p.now) _ _ _ rfl

theorem Finishing.playOut_ends (hp : p.Finishing s) (hready : p.ready = none)
    : ∃ rounds frames r, p.playOut rounds = some (frames, r)
        ∧ r.health.sendRetries = p.health.sendRetries := by
  induction hlimit : potential s p using Nat.strong_induction_on generalizing p with
  | _ limit ih =>
    rcases hp.dwindles_doWork hready with ⟨hworked, hless | ⟨hidle, hended⟩⟩
    . have htaken := hworked.trans hworked.finishing.dwindles_getFrame
      have hstill := hworked.finishing.dwindles_getFrame.potential
      have hnone : p.doWork.getFrame.2.2.ready = none :=
        congrArg Outline.ready (outline_getFrame (.nothing ω ε) p.doWork)
      rcases hround : p.doWork.getFrame with ⟨frame, status, q⟩
      rw [hround] at htaken hstill hnone
      have hlower : potential s q < limit := by
        rw [← hlimit]
        exact Nat.lt_of_le_of_lt hstill hless
      rcases ih _ hlower htaken.finishing hnone rfl with ⟨rounds, frames, r, hplay, hretries⟩
      have hsame := hretries.trans htaken.retries
      cases frame with
      | some frame =>
        refine ⟨rounds + 1, frame :: frames, r, ?_, hsame⟩
        rw [playOut_of_frame hround, hplay]
        rfl
      | none =>
        by_cases hended : status = .ended
        . subst hended
          exact ⟨1, [], q, playOut_of_ended hround 0, htaken.retries⟩
        . exact ⟨rounds + 1, frames, r, (playOut_of_none hround hended rounds).trans hplay, hsame⟩
    . refine ⟨1, [], p.doWork, ?_, hworked.retries⟩
      rw [playOut_of_idle hidle, if_pos hended]

end Feeding

end Pipeline
end DecodePipeline
