import DecodePipeline.Proofs.Pipeline.Holding
import DecodePipeline.Proofs.Pipeline.Lifecycle
import DecodePipeline.Proofs.Pipeline.Observation

/-!
This module contains what a pipeline offers to its engines: each packet that the feed delivers is
offered, and offered again if it is refused, before the next one is, until an engine accepts it.
-/

namespace DecodePipeline

/-- A packet with its presentation time in place of a missing decode time, for codecs that want it. -/
def Packet.timedFor (packet : Packet) (codec : CodecParams) : Packet :=
  { packet with dts := if codec.aviDts then packet.dts else packet.dts <|> packet.pts }

/-- What a pipeline offered, a packet or, without one, that the engine drains, and what came of it. -/
structure Offer where
  -- as it was delivered
  packet : Option Packet
  codec : CodecParams
  accepted : Bool

namespace Offer

def sending (o : Offer) : Option Packet × Bool := (o.packet.map (·.timedFor o.codec), o.accepted)

/-- What is done with one packet: it is offered until it is accepted, or until it is given up. -/
structure Attempts (packet : Packet) (offers : List Offer) : Prop where
  same : ∀ o ∈ offers, o.packet = some packet
  refused : ∀ o ∈ offers.dropLast, o.accepted = false

theorem attempts_of_refused {packet : Packet} {offers : List Offer}
    (hrefused : ∀ o ∈ offers, o.packet = some packet ∧ o.accepted = false)
    : Attempts packet offers where
  same o ho := (hrefused o ho).1
  refused o ho := (hrefused o (List.dropLast_subset offers ho)).2

theorem attempts_concat {packet : Packet} {offers : List Offer}
    (hrefused : ∀ o ∈ offers, o.packet = some packet ∧ o.accepted = false) {last : Offer}
    (hlast : last.packet = some packet)
    : Attempts packet (offers ++ [last]) := by
  refine ⟨?_, ?_⟩
  . intro o ho
    rw [List.mem_append, List.mem_singleton] at ho
    rcases ho with ho | rfl
    . exact (hrefused o ho).1
    . exact hlast
  . intro o ho
    rw [List.dropLast_concat] at ho
    exact (hrefused o ho).2

end Offer

def EngineCall.sending? : EngineCall → Option (Option Packet × Bool)
  | sent packet _ accepted => some (packet, accepted)
  | _ => none

def LoggedShared.sendings {ω : Type} (s : LoggedShared ω) : List (Option Packet × Bool) :=
  s.calls.filterMap (·.call.sending?)

theorem LoggedShared.sendings_log {ω : Type} (s : LoggedShared ω) (state : ω) (engine : Nat)
    (call : EngineCall)
    : (s.log state engine call).sendings = s.sendings ++ call.sending?.toList := by
  unfold sendings log
  rw [List.filterMap_append]
  cases hcall : call.sending? with
  | none => simp [hcall]
  | some sending => simp [hcall]

namespace TracedFeed

variable {φ : Type}

def delivered (f : TracedFeed φ) : List Packet := f.polls.flatMap Poll.items

theorem delivered_of_tryRead [PacketFeed φ] {f g : TracedFeed φ} {poll : Poll Packet}
    (htry : PacketFeed.tryRead f = (poll, g))
    : g.delivered = f.delivered ++ poll.items := by
  unfold delivered
  rw [polls_of_tryRead htry, List.flatMap_append]
  simp

end TracedFeed

namespace Pipeline

variable {ω ε φ ρ : Type}

theorem forEngine_eq (p : Pipeline ω ε φ ρ) (packet : Packet)
    : p.forEngine packet = packet.timedFor p.codec.params := by
  rcases packet with ⟨payload, pts, dts, duration, segment, keyframe, stream⟩
  unfold forEngine Packet.timedFor
  cases dts <;> cases p.codec.params.aviDts <;> rfl

variable [Engine ω ε]

def offerTo (p : Pipeline ω ε φ ρ) (engine : ε) : Offer where
  packet := p.pending
  codec := p.codec.params
  accepted := (p.sendReply engine p.pendingFrameDrop).answer

section Feeds

variable [PacketFeed φ]

def feeding (p : Pipeline ω ε φ ρ) : List Offer :=
  (p.sending.map fun sent => sent.2.offerTo sent.1).toList

def offering (p : Pipeline ω ε φ ρ) : List Offer := p.readFrame.feeding

variable [PacketRecorder ρ]

def offersOf (p : Pipeline ω ε φ ρ) : Operation φ ρ → List Offer
  | .work => p.offering
  | _ => []

def offers (p : Pipeline ω ε φ ρ) : List (Operation φ ρ) → List Offer
  | [] => []
  | operation :: operations => p.offersOf operation ++ (p.perform operation).offers operations

omit [PacketRecorder ρ] in
theorem feeding_of_detached (p : Pipeline ω ε φ ρ) (hengine : p.engine = none) : p.feeding = [] := by
  unfold feeding sending
  rw [hengine]
  rfl

omit [PacketRecorder ρ] in
theorem feeding_of_ready (p : Pipeline ω ε φ ρ) (hready : p.ready.isSome) : p.feeding = [] := by
  rcases Option.isSome_iff_exists.mp hready with ⟨frame, hframe⟩
  unfold feeding sending
  rw [hframe]
  cases p.engine <;> rfl

theorem doWork_offering {motive : Pipeline ω ε φ ρ → List Offer → Prop} (p : Pipeline ω ε φ ρ)
    (start : motive p []) (ended : motive { p with status := .ended } [])
    (read : ∀ q offers, motive q offers → motive q.readFrame offers)
    (feed : ∀ q, motive q [] → motive q.feedPacket q.feeding)
    : motive p.doWork p.offering := by
  have hread := read p [] start
  have hfeed := feed _ hread
  unfold doWork offering
  split
  . next hdetached =>
    have hengine : p.engine = none := by simpa using hdetached
    rw [readFrame_of_detached p hengine, feeding_of_detached p hengine]
    exact ended
  . dsimp only
    split
    . next hready =>
      rw [feeding_of_ready _ hready]
      exact hread
    . split
      . exact hfeed
      . exact read _ _ hfeed

end Feeds

section Sendings

variable {p : Pipeline (LoggedShared ω) (LoggedEngine ε) (TracedFeed φ) ρ}

theorem HasLogs.invariant (hlogs : p.HasLogs) (sendings : List (Option Packet × Bool))
    : Engine.Invariant p.drivers
        (fun (_ : Option (LoggedEngine ε)) (s : LoggedShared ω) => s.sendings = sendings) := by
  have hlog (s : LoggedShared ω) (state : ω) (engine : Nat) {call : EngineCall}
      (hcall : call.sending? = none) (hs : s.sendings = sendings)
      : (s.log state engine call).sendings = sendings := by
    rw [LoggedShared.sendings_log, hcall, hs]
    exact List.append_nil _
  refine ⟨?_, ?_, ?_⟩
  . exact fun engine shared command hs => hlog _ _ _ rfl hs
  . exact fun engine shared hs => hlog _ _ _ rfl hs
  . intro driver hdriver shared params decoder hs
    rcases hlogs with ⟨drivers, hdrivers⟩
    rw [hdrivers, List.mem_map] at hdriver
    rcases hdriver with ⟨driver, -, rfl⟩
    have hcreated : (driver.logged.create shared).2.sendings = sendings :=
      hlog shared (driver.create shared.state).2 _ rfl hs
    dsimp only
    split <;> exact hlog _ _ _ rfl hcreated

theorem HasLogs.upholds_sendings (hlogs : p.HasLogs)
    : p.Upholds (fun _ s => s.sendings = p.shared.sendings) := ⟨hlogs.invariant _, rfl⟩

theorem readFrame_logged_sendings (hlogs : p.HasLogs)
    : p.readFrame.shared.sendings = p.shared.sendings := by
  cases hengine : p.engine with
  | none => rw [readFrame_of_detached p hengine]
  | some engine =>
    cases hready : p.ready with
    | some frame => rw [readFrame_of_ready p (Option.isSome_of_eq_some hready)]
    | none =>
      have hreceived : (p.afterReply (Engine.receive engine p.shared)).Upholds
          (fun _ s => s.sendings = p.shared.sendings) := by
        refine ⟨hlogs.invariant _, ?_⟩
        exact (LoggedShared.sendings_log ..).trans (List.append_nil _)
      exact ((p.readFrame_reads hengine hready).upholds hreceived).state

theorem sendReply_sendings (engine : LoggedEngine ε)
    : (p.sendReply engine p.pendingFrameDrop).shared.sendings
        = p.shared.sendings ++ [(p.offerTo engine).sending] := by
  have hforEngine : p.forEngine = (·.timedFor p.codec.params) := funext p.forEngine_eq
  refine (LoggedShared.sendings_log ..).trans ?_
  refine congrArg₂ (· ++ ·) ((LoggedShared.sendings_log ..).trans (List.append_nil _)) ?_
  unfold Offer.sending offerTo
  rw [← hforEngine]
  rfl

variable [PacketFeed φ] [PacketRecorder ρ]

theorem feedPacket_logged_sendings
    : p.feedPacket.shared.sendings = p.shared.sendings ++ p.feeding.map Offer.sending := by
  unfold feeding
  cases hsending : p.sending with
  | none =>
    rw [Option.map_none, Option.toList_none, List.map_nil, List.append_nil]
    rcases p.feedPacket_of_not_sending hsending with hfeed | ⟨-, -, -, hfeed⟩
    . rw [hfeed]
    . rw [hfeed]
  | some sent =>
    rcases sent with ⟨engine, q⟩
    have hshared : q.shared = p.shared := by
      rcases sending_fields hsending with ⟨feed, pending, queued, phase, journal, hq⟩
      rw [hq]
    rw [feedPacket_of_sending p hsending, (q.sendPending_engine engine).2, sendReply_sendings, hshared]
    rfl

theorem doWork_logged_sendings (hlogs : p.HasLogs)
    : p.doWork.shared.sendings = p.shared.sendings ++ p.offering.map Offer.sending := by
  have hwork : p.doWork.HasLogs
      ∧ p.doWork.shared.sendings = p.shared.sendings ++ p.offering.map Offer.sending := by
    apply doWork_offering (motive := fun q offers => q.HasLogs
      ∧ q.shared.sendings = p.shared.sendings ++ offers.map Offer.sending)
    . exact ⟨hlogs, (List.append_nil _).symm⟩
    . exact ⟨hlogs, (List.append_nil _).symm⟩
    . intro q offers hq
      exact ⟨hq.1.of_eq q.readFrame_drivers, (readFrame_logged_sendings hq.1).trans hq.2⟩
    . intro q hq
      refine ⟨hq.1.of_eq q.feedPacket_drivers, ?_⟩
      rw [feedPacket_logged_sendings, hq.2, List.map_nil, List.append_nil]
  exact hwork.2

end Sendings

section Attempts

structure Offered (p : Pipeline ω ε (TracedFeed φ) ρ) (offers : List Offer) : Prop where
  separate : p.Separate
  attempts : ∃ earlier attempts tries,
    p.feed.delivered = earlier ++ p.held
      ∧ List.Forall₂ Offer.Attempts earlier attempts
      ∧ offers.filter (·.packet.isSome) = attempts.flatten ++ tries
      ∧ ∀ o ∈ tries, ∃ packet ∈ p.held, o.packet = some packet ∧ o.accepted = false

variable {p q : Pipeline ω ε (TracedFeed φ) ρ} {offers : List Offer}

omit [Engine ω ε] in
theorem Offered.and_nothing (hoffered : p.Offered offers) : p.Offered (offers ++ []) := by
  rw [List.append_nil]
  exact hoffered

omit [Engine ω ε] in
theorem Offered.of_same (hoffered : p.Offered offers) (hfeed : q.feed.delivered = p.feed.delivered)
    (hheld : q.held = p.held) (hseparate : q.Separate)
    : q.Offered offers := by
  refine ⟨hseparate, ?_⟩
  rw [hfeed, hheld]
  exact hoffered.attempts

omit [Engine ω ε] in
theorem Offered.of_eq (hoffered : p.Offered offers) (hfeed : q.feed = p.feed)
    (hpending : q.pending = p.pending) (hsegments : q.segments = p.segments)
    : q.Offered offers := by
  apply hoffered.of_same
  . rw [hfeed]
  . unfold held
    rw [hpending, hsegments]
  . exact hoffered.separate.of_eq hpending hsegments

theorem untried {tries : List Offer} (htries : ∀ o ∈ tries, ∃ packet ∈ ([] : List Packet),
      o.packet = some packet ∧ o.accepted = false)
    : tries = [] := by
  rw [List.eq_nil_iff_forall_not_mem]
  intro o ho
  rcases htries o ho with ⟨packet, hpacket, -⟩
  cases hpacket

omit [Engine ω ε] in
theorem Offered.of_nothing_held (hoffered : p.Offered offers)
    (hfeed : q.feed.delivered = p.feed.delivered) (hheld : q.held = [])
    : q.Offered offers := by
  rcases hoffered.attempts with ⟨earlier, attempts, tries, hdelivered, hattempts, hoffers, htries⟩
  have hlength := hoffered.separate.held_length
  refine ⟨.inl (q.held_eq_nil.mp hheld).1, ?_⟩
  rw [hfeed, hheld, hdelivered]
  cases hkept : p.held with
  | nil =>
    rw [hkept] at htries
    have hnone := untried htries
    exact ⟨earlier, attempts, [], rfl, hattempts, hnone ▸ hoffers, by simp⟩
  | cons packet more =>
    rw [hkept] at htries hlength
    have hnone : more = [] := by simpa using hlength
    subst hnone
    refine ⟨earlier ++ [packet], attempts ++ [tries], [], ?_, ?_, ?_, by simp⟩
    . rw [List.append_nil]
    . refine List.rel_append hattempts (.cons (Offer.attempts_of_refused ?_) .nil)
      intro o ho
      rcases htries o ho with ⟨same, hsame, hrefused⟩
      rw [List.mem_singleton] at hsame
      rw [← hsame]
      exact hrefused
    . rw [hoffers]
      simp

omit [Engine ω ε] in
theorem Offered.fillPending [PacketFeed φ] (hoffered : p.Offered offers)
    (hfill : p.fillPending.1 = false)
    : p.fillPending.2.Offered offers := by
  rcases p.fillPending_cases hfill with
    ⟨-, hq⟩ | ⟨hheld, packet, feed, htry, hq⟩ | ⟨hheld, feed, htry, hq⟩
  . rw [hq]
    exact hoffered
  . rcases hoffered.attempts with ⟨earlier, attempts, tries, hdelivered, hattempts, hoffers, htries⟩
    have hqueued : p.segments.queued = none := (p.held_eq_nil.mp hheld).2
    rw [hheld] at hdelivered htries
    rw [hq]
    refine ⟨.inr hqueued, earlier, attempts, tries, ?_, hattempts, hoffers, ?_⟩
    . refine (TracedFeed.delivered_of_tryRead htry).trans ?_
      rw [hdelivered]
      simp [held, hqueued, Poll.items]
    . intro o ho
      rcases htries o ho with ⟨packet, hpacket, -⟩
      cases hpacket
  . rw [hq]
    apply hoffered.of_same
    . refine (TracedFeed.delivered_of_tryRead htry).trans ?_
      simp [Poll.items]
    . rfl
    . exact hoffered.separate.of_eq rfl rfl

omit [Engine ω ε] in
theorem Offered.sending [PacketFeed φ] (hoffered : p.Offered offers) {engine : ε}
    (hsending : p.sending = some (engine, q))
    : q.Offered offers := by
  rcases sending_eq hsending with ⟨-, -, hfill, rfl⟩
  have hfilled := hoffered.fillPending hfill
  rcases p.fillPending.2.holdNewSegment_eq with ⟨pending, queued, phase, journal, heq⟩
  refine hfilled.of_same ?_ (holdNewSegment_held _) hfilled.separate.holdNewSegment
  rw [heq]

theorem Offered.sendPending [PacketRecorder ρ] (hoffered : p.Offered offers) (engine : ε)
    : (p.sendPending engine).Offered (offers ++ [p.offerTo engine]) := by
  have hseparate := hoffered.separate.sendPending engine
  have houtline := outline_sendPending (.nothing ω ε) p engine
  have hfeed : (p.sendPending engine).feed = p.feed := congrArg Outline.feed houtline
  have hsegments : (p.sendPending engine).segments = p.segments :=
    congrArg Outline.segments houtline
  have hpending : (p.sendPending engine).pending
      = if (p.offerTo engine).accepted then none else p.pending :=
    congrArg Outline.pending houtline
  have hpacket : (p.offerTo engine).packet = p.pending := rfl
  rcases hoffered with ⟨separate, earlier, attempts, tries, hdelivered, hattempts, hoffers, htries⟩
  refine ⟨hseparate, ?_⟩
  unfold held at hdelivered htries ⊢
  rw [hfeed, hpending, hsegments, List.filter_append, hoffers]
  generalize p.offerTo engine = offer at hpacket ⊢
  cases hsent : p.pending with
  | none =>
    rw [hsent] at hpacket hdelivered htries
    refine ⟨earlier, attempts, tries, ?_, hattempts, ?_, ?_⟩
    . simpa using hdelivered
    . simp [hpacket]
    . simpa using htries
  | some packet =>
    have hqueued : p.segments.queued = none := by simpa [Separate, hsent] using separate
    rw [hsent, hqueued] at hdelivered htries
    rw [hsent] at hpacket
    have hrefused : ∀ o ∈ tries, o.packet = some packet ∧ o.accepted = false := by
      simpa using htries
    cases haccepted : offer.accepted with
    | false =>
      refine ⟨earlier, attempts, tries ++ [offer], ?_, hattempts, ?_, ?_⟩
      . simpa [hqueued] using hdelivered
      . simp [hpacket]
      . intro o ho
        rw [List.mem_append, List.mem_singleton] at ho
        refine ⟨packet, by simp, ?_⟩
        rcases ho with ho | rfl
        . exact hrefused o ho
        . exact ⟨hpacket, haccepted⟩
    | true =>
      refine ⟨earlier ++ [packet], attempts ++ [tries ++ [offer]], [], ?_, ?_, ?_, by simp⟩
      . simpa [hqueued] using hdelivered
      . exact List.rel_append hattempts (.cons (Offer.attempts_concat hrefused hpacket) .nil)
      . simp [hpacket]

theorem Offered.feedPacket [PacketFeed φ] [PacketRecorder ρ] (hoffered : p.Offered offers)
    : p.feedPacket.Offered (offers ++ p.feeding) := by
  unfold feeding
  cases hsending : p.sending with
  | none =>
    rw [Option.map_none, Option.toList_none, List.append_nil]
    rcases p.feedPacket_of_not_sending hsending with hfeed | ⟨-, -, hempty, hfeed⟩
    . rw [hfeed]
      exact hoffered
    . rw [hfeed]
      apply hoffered.of_same
      . have htry : PacketFeed.tryRead p.feed
            = ((PacketFeed.tryRead p.feed).1, (PacketFeed.tryRead p.feed).2) := rfl
        refine (TracedFeed.delivered_of_tryRead htry).trans ?_
        rw [hempty]
        simp [Poll.items]
      . rfl
      . exact hoffered.separate.of_eq rfl rfl
  | some sent =>
    rw [feedPacket_of_sending p hsending]
    exact (hoffered.sending hsending).sendPending sent.1

theorem held_switchSegment (p : Pipeline ω ε φ ρ) (hseparate : p.Separate)
    : p.switchSegment.held = p.held ∨ p.switchSegment.held = [] := by
  cases hqueued : p.segments.queued with
  | none => exact .inl (congrArg held (switchSegment_of_queued_none p hqueued))
  | some packet =>
    have hpending : p.pending = none := by simpa [Separate, hqueued] using hseparate
    have hheld : p.held = [packet] := by simp [held, hpending, hqueued]
    cases hkind : SegmentTracker.switchKind packet p.codec with
    | «continue» =>
      have houtline := outline_switchSegment_continue (.nothing ω ε) p hqueued hkind
      have hsent : p.switchSegment.pending = some packet := congrArg Outline.pending houtline
      have hnone : p.switchSegment.segments.queued = none :=
        congrArg (·.segments.queued) houtline
      left
      simp [held, hsent, hnone, hqueued, hpending]
    | reinit codec =>
      have houtline := outline_switchSegment_reinit (.nothing ω ε) p hqueued hkind
      have hsent : p.switchSegment.pending
          = if ((p.switching packet).openDecoder codec).1.isOk then some packet else none :=
        congrArg Outline.pending houtline
      have hnone := p.switchSegment_queued
      unfold held at hheld ⊢
      rw [hsent, hnone, hheld]
      split
      . exact .inl rfl
      . exact .inr rfl

theorem Offered.switchSegment (hoffered : p.Offered offers) : p.switchSegment.Offered offers := by
  have hfeed : p.switchSegment.feed.delivered = p.feed.delivered := by
    rw [p.switchSegment_sameSetting.feed]
  rcases p.held_switchSegment hoffered.separate with hheld | hheld
  . exact hoffered.of_same hfeed hheld hoffered.separate.switchSegment
  . exact hoffered.of_nothing_held hfeed hheld

theorem Offered.readFrame (hoffered : p.Offered offers) : p.readFrame.Offered offers := by
  rcases readFrame_cases (.nothing ω ε) p with ⟨q, houtline, hcases⟩
  have hq : q.Offered offers :=
    hoffered.of_eq (congrArg Outline.feed houtline) (congrArg Outline.pending houtline)
      (congrArg Outline.segments houtline)
  rcases hcases with hread | ⟨-, -, frame, pts, -, -, hread⟩ | ⟨-, -, hread⟩
  . rw [hread]
    exact hq
  . rw [hread]
    exact hq.of_eq rfl rfl rfl
  . rw [hread]
    exact hq.switchSegment

theorem held_openDecoder (p : Pipeline ω ε φ ρ) (hseparate : p.Separate) (codec : SharedCodec)
    : (p.openDecoder codec).2.held = p.held ∨ (p.openDecoder codec).2.held = [] := by
  have houtline := outline_openDecoder (.nothing ω ε) p codec
  have hpending : (p.openDecoder codec).2.pending = none := congrArg Outline.pending houtline
  have hsegments : (p.openDecoder codec).2.segments
      = if p.segments.phase == .switching then p.segments else {} :=
    congrArg Outline.segments houtline
  unfold held
  rw [hpending, hsegments]
  split
  . cases hqueued : p.segments.queued with
    | none => exact .inr rfl
    | some packet =>
      left
      have hnone : p.pending = none := by simpa [Separate, hqueued] using hseparate
      rw [hnone]
  . exact .inr rfl

theorem Offered.openDecoder (hoffered : p.Offered offers) (codec : SharedCodec)
    : (p.openDecoder codec).2.Offered offers := by
  have houtline := outline_openDecoder (.nothing ω ε) p codec
  have hfeed : (p.openDecoder codec).2.feed.delivered = p.feed.delivered :=
    congrArg (·.feed.delivered) houtline
  have hpending : (p.openDecoder codec).2.pending = none := congrArg Outline.pending houtline
  rcases p.held_openDecoder hoffered.separate codec with hheld | hheld
  . exact hoffered.of_same hfeed hheld (.inl hpending)
  . exact hoffered.of_nothing_held hfeed hheld

theorem Offered.reset (hoffered : p.Offered offers) : p.reset.Offered offers := by
  have houtline := outline_reset (.nothing ω ε) p
  apply hoffered.of_nothing_held
  . exact congrArg (·.feed.delivered) houtline
  . rw [held_eq_nil]
    exact ⟨congrArg Outline.pending houtline, congrArg (·.segments.queued) houtline⟩

theorem Offered.getFrame (hoffered : p.Offered offers) : p.getFrame.2.2.Offered offers := by
  have houtline := outline_getFrame (.nothing ω ε) p
  exact hoffered.of_eq (congrArg Outline.feed houtline) (congrArg Outline.pending houtline)
    (congrArg Outline.segments houtline)

variable [PacketFeed φ] [PacketRecorder ρ]

theorem Offered.doWork (hoffered : p.Offered offers) : p.doWork.Offered (offers ++ p.offering) := by
  apply doWork_offering (motive := fun q more => q.Offered (offers ++ more))
  . rw [List.append_nil]
    exact hoffered
  . rw [List.append_nil]
    exact hoffered.of_eq rfl rfl rfl
  . exact fun q more hq => hq.readFrame
  . intro q hq
    rw [List.append_nil] at hq
    exact hq.feedPacket

theorem Offered.perform (hoffered : p.Offered offers) (operation : Operation φ ρ)
    : (p.perform (operation.lift TracedFeed.lift)).Offered
        (offers ++ p.offersOf (operation.lift TracedFeed.lift)) := by
  cases operation with
  | work => exact hoffered.doWork
  | take => exact hoffered.getFrame.and_nothing
  | reset => exact hoffered.reset.and_nothing
  | openDecoder codec => exact (hoffered.openDecoder codec).and_nothing
  | refill change =>
    apply Offered.and_nothing
    exact hoffered.of_same rfl rfl (hoffered.separate.of_eq rfl rfl)
  | setStart | setFramedrop | resetParams | attachRecorder | detachRecorder | wait =>
    apply Offered.and_nothing
    exact hoffered.of_eq rfl rfl rfl

theorem Offered.after (hoffered : p.Offered offers) (operations : List (Operation φ ρ))
    : (p.after (operations.map (·.lift TracedFeed.lift))).Offered
        (offers ++ p.offers (operations.map (·.lift TracedFeed.lift))) := by
  induction operations generalizing p offers with
  | nil => exact hoffered.and_nothing
  | cons operation operations ih =>
    rw [List.map_cons, after_cons, Pipeline.offers, ← List.append_assoc]
    exact ih (hoffered.perform operation)

end Attempts

end Pipeline
end DecodePipeline
