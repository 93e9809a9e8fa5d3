import DecodePipeline.Proofs.Pipeline.Accounting
import DecodePipeline.Proofs.Pipeline.Holding

/-!
This module contains the end of uncompressed video: a pipeline that still has a decoder says that it has
ended only if its feed has just ended and nothing is left anywhere. The decoder never refuses a packet.
-/

namespace DecodePipeline

namespace RawVideoEngine

structure Idle (e : RawVideoEngine) : Prop where
  isOpen : e.params.isSome
  queue : e.queue = []

structure Given (e : RawVideoEngine) (packet : Option Packet) : Prop where
  isOpen : e.params.isSome
  draining : e.draining = packet.isNone
  queue : e.queue = [] ∨ (packet.isSome ∧ ∃ frame, e.queue = [frame])

theorem idle_of_init (e : RawVideoEngine) (codec : CodecParams) (decoder : String)
    (hok : (e.init codec decoder).1 = .ok ())
    : (e.init codec decoder).2.Idle := by
  unfold init at hok ⊢
  split at hok
  . cases hok
  . split at hok
    . cases hok
    . next hcodec hsize =>
      rw [if_neg hcodec, if_neg hsize]
      exact ⟨rfl, rfl⟩

theorem Idle.control {e : RawVideoEngine} (hidle : e.Idle) (command : EngineCommand)
    : (e.control command).2.Idle := by
  cases command with
  | reset => exact ⟨hidle.isOpen, rfl⟩
  | setFrameDrop | getFrameDelay => exact ⟨hidle.isOpen, hidle.queue⟩

theorem Idle.send {e : RawVideoEngine} (hidle : e.Idle) (packet : Option Packet)
    : (e.send packet).1 = true ∧ (e.send packet).2.Given packet := by
  rcases Option.isSome_iff_exists.mp hidle.isOpen with ⟨params, hparams⟩
  have hroom : ¬ capacity ≤ e.queue.length := by
    rw [hidle.queue]
    decide
  unfold RawVideoEngine.send
  rw [hparams]
  cases packet with
  | none => exact ⟨rfl, rfl, rfl, .inl hidle.queue⟩
  | some packet =>
    dsimp only
    unfold sendPacket
    rw [if_neg hroom]
    refine ⟨rfl, hidle.isOpen, rfl, ?_⟩
    dsimp only
    rw [hidle.queue]
    split
    . exact .inl rfl
    . exact .inr ⟨rfl, _, rfl⟩

theorem Idle.receive {e : RawVideoEngine} (hidle : e.Idle)
    : e.receive.2.Idle ∧ ∀ frame, e.receive.1 ≠ .frame frame := by
  unfold RawVideoEngine.receive
  rw [hidle.queue]
  refine ⟨hidle, ?_⟩
  intro frame
  dsimp only
  split <;> simp

theorem Given.receive {e : RawVideoEngine} {packet : Option Packet} (hgiven : e.Given packet)
    : e.receive.2.Idle ∧ (e.receive.1 = .exhausted ↔ packet = none) := by
  have hopen : e.isOpen = true := hgiven.isOpen
  unfold RawVideoEngine.receive
  rcases hgiven.queue with hqueue | ⟨hsome, frame, hqueue⟩
  . rw [hqueue, hgiven.draining, hopen]
    refine ⟨⟨hgiven.isOpen, hqueue⟩, ?_⟩
    cases packet <;> simp
  . rw [hqueue]
    refine ⟨⟨hgiven.isOpen, rfl⟩, ?_⟩
    cases packet <;> simp at hsome ⊢

end RawVideoEngine

namespace TracedShared

variable {ω : Type} {s t : TracedShared ω}

def Unrefused (s : TracedShared ω) : Prop := ∀ packet, .sent packet false ∉ s.exchanges

theorem Unrefused.append (hunrefused : s.Unrefused) {exchange : Exchange}
    (hexchange : ∀ packet, .sent packet false ≠ exchange)
    (hmore : t.exchanges = s.exchanges ++ [exchange])
    : t.Unrefused := by
  intro packet hmem
  rw [hmore, List.mem_append, List.mem_singleton] at hmem
  rcases hmem with hmem | hsame
  . exact hunrefused packet hmem
  . exact hexchange packet hsame

theorem Unrefused.refused (hunrefused : s.Unrefused) : s.refused = [] := by
  unfold TracedShared.refused
  rw [List.filterMap_eq_nil_iff]
  intro exchange hmem
  rcases exchange with ⟨packet, accepted⟩ | answer
  . cases accepted with
    | false => exact absurd hmem (hunrefused packet)
    | true => rfl
  . rfl

end TracedShared

namespace Pipeline

variable {ω φ ρ : Type}

def Willing (engine : Option (TracedEngine RawVideoEngine)) (shared : TracedShared ω) : Prop :=
  (∀ e, engine = some e → e.engine.Idle) ∧ shared.Unrefused

section Willing

variable {p q : Pipeline (TracedShared ω) (TracedEngine RawVideoEngine) (TracedFeed φ) ρ}

theorem Willing.attached {engine : TracedEngine RawVideoEngine} {shared : TracedShared ω}
    (hwilling : Willing (some engine) shared)
    : engine.engine.Idle := hwilling.1 engine rfl

theorem willing_of_idle {engine : TracedEngine RawVideoEngine} {shared : TracedShared ω}
    (hidle : engine.engine.Idle) (hunrefused : shared.Unrefused)
    : Willing (some engine) shared := by
  refine ⟨?_, hunrefused⟩
  rintro _ ⟨⟩
  exact hidle

theorem willing_of_none {shared : TracedShared ω} (hunrefused : shared.Unrefused)
    : Willing none shared := by
  refine ⟨?_, hunrefused⟩
  rintro _ ⟨⟩

theorem HasTraces.willing (htraces : p.HasTraces)
    : Engine.Invariant p.drivers (Willing (ω := ω)) := by
  rcases htraces with ⟨drivers, hdrivers⟩
  refine ⟨?_, ?_, ?_⟩
  . intro engine shared command hwilling
    exact willing_of_idle (hwilling.attached.control command) hwilling.2
  . intro engine shared hwilling
    exact willing_of_none hwilling.2
  . intro driver hdriver shared params decoder hwilling
    rw [hdrivers, List.mem_map] at hdriver
    rcases hdriver with ⟨driver, -, rfl⟩
    dsimp only
    split
    . next hok => exact willing_of_idle (RawVideoEngine.idle_of_init _ params decoder hok) hwilling.2
    . exact willing_of_none hwilling.2

theorem willing_of_receive {engine : TracedEngine RawVideoEngine} {shared : TracedShared ω}
    (hidle : engine.engine.receive.2.Idle) (hunrefused : shared.Unrefused)
    : Willing (some (Engine.receive engine shared).engine) (Engine.receive engine shared).shared := by
  apply willing_of_idle hidle
  exact hunrefused.append (by simp) (TracedEngine.receive_exchanges engine shared)

end Willing

structure Quiet (p : Pipeline (TracedShared ω) (TracedEngine RawVideoEngine) (TracedFeed φ) ρ) :
    Prop where
  traces : p.HasTraces
  willing : Willing p.engine p.shared
  queued : p.segments.queued = none

section Steps

variable {p q r filled : Pipeline (TracedShared ω) (TracedEngine RawVideoEngine) (TracedFeed φ) ρ}

theorem Quiet.idle (hquiet : p.Quiet) {engine : TracedEngine RawVideoEngine}
    (hengine : p.engine = some engine)
    : engine.engine.Idle :=
  hquiet.willing.1 engine hengine

theorem Quiet.upholds (hquiet : p.Quiet) : p.Upholds Willing := ⟨hquiet.traces.willing, hquiet.willing⟩

theorem Quiet.of_eq (hquiet : p.Quiet) (hdrivers : q.drivers = p.drivers)
    (hengine : q.engine = p.engine) (hshared : q.shared = p.shared)
    (hsegments : q.segments = p.segments)
    : q.Quiet := by
  refine ⟨hquiet.traces.of_eq hdrivers, ?_, ?_⟩
  . rw [hengine, hshared]
    exact hquiet.willing
  . rw [hsegments]
    exact hquiet.queued

theorem Reads.queued {answer : Received} (hreads : p.Reads answer q)
    (hqueued : answer = .exhausted ∨ p.segments.queued = none)
    : q.segments.queued = none := by
  cases hreads with
  | stored hsettles | discarded hsettles =>
    have hnone : p.segments.queued = none := by simpa using hqueued
    exact (congrArg (·.segments.queued) hsettles.outline).trans hnone
  | passed | exhausted => exact switchSegment_queued _
  | missed => simpa using hqueued

theorem Reads.quiet {answer : Received} (hreads : p.Reads answer q) (htraces : p.HasTraces)
    (hwilling : Willing p.engine p.shared)
    (hqueued : answer = .exhausted ∨ p.segments.queued = none)
    : q.Quiet where
  traces := htraces.of_eq hreads.sameSetting.drivers
  willing := (hreads.upholds ⟨htraces.willing, hwilling⟩).state
  queued := hreads.queued hqueued

theorem Reads.of_no_frame {answer : Received} (hreads : p.Reads answer q)
    (hanswer : ∀ frame, answer ≠ .frame frame) (hqueued : p.segments.queued = none)
    : q.ready = p.ready ∧ q.engine = p.engine := by
  cases hreads with
  | stored | discarded | passed => exact absurd rfl (hanswer _)
  | missed => exact ⟨rfl, rfl⟩
  | exhausted =>
    rw [switchSegment_of_queued_none]
    . exact ⟨rfl, rfl⟩
    . exact hqueued

theorem Reads.of_ended {answer : Received} (hreads : p.Reads answer q)
    (hended : q.status = .ended) (hattached : q.engine.isSome)
    : answer = .exhausted ∧ p.segments.queued = none
        ∧ q = { p with maySkip := false, status := .ended } := by
  cases hreads with
  | stored | discarded | missed => cases hended
  | @passed q frame settled hsettles =>
    rcases switchSegment_status_cases
      ({ q with health := q.health.recordDiscarded, status := .again } : Pipeline _ _ _ _)
      with ⟨-, hsame⟩ | hagain | ⟨-, hnone⟩
    . rw [hsame] at hended
      cases hended
    . rw [hagain] at hended
      cases hended
    . rw [hnone] at hattached
      cases hattached
  | exhausted =>
    rcases switchSegment_status_cases
      ({ p with maySkip := false, status := .ended } : Pipeline _ _ _ _)
      with ⟨hqueued, hsame⟩ | hagain | ⟨-, hnone⟩
    . exact ⟨rfl, hqueued, hsame⟩
    . rw [hagain] at hended
      cases hended
    . rw [hnone] at hattached
      cases hattached

theorem Quiet.receives (hquiet : p.Quiet) (hreceives : p.Receives q)
    : q.Quiet ∧ q.ready = none ∧ q.engine.isSome := by
  rcases hreceives with ⟨engine, hengine, hready, hreads⟩
  have hwilling := hquiet.willing
  rw [hengine] at hwilling
  rcases hwilling.attached.receive with ⟨hidle, hanswer⟩
  rcases hreads.of_no_frame hanswer hquiet.queued with ⟨hstill, hkept⟩
  refine ⟨?_, ?_, ?_⟩
  . exact hreads.quiet hquiet.traces (willing_of_receive hidle hwilling.2) (.inr hquiet.queued)
  . exact hstill.trans hready
  . rw [hkept]
    rfl

theorem Fills.ended_of_idle {ε : Type} [PacketFeed φ] {p q : Pipeline ω ε φ ρ}
    {asked : Option (Poll Packet)} (hfills : p.Fills asked q) (hidle : q.held = [])
    : asked = some .ended := by
  cases hfills with
  | held hheld => exact absurd hidle hheld
  | item => cases (held_eq_nil _).mp hidle |>.1
  | ended => rfl

theorem Quiet.holds [PacketFeed φ] (hquiet : q.Quiet) {asked : Option (Poll Packet)}
    (hfills : q.Fills asked filled)
    : filled.holdNewSegment.HasTraces ∧ filled.holdNewSegment.shared = q.shared
        ∧ filled.holdNewSegment.Separate := by
  rcases hfills.eq with ⟨feed, pending, rfl⟩
  rcases holdNewSegment_eq { q with feed, pending } with ⟨pending', queued, phase, journal, hhold⟩
  have hseparate : Separate { q with feed, pending } := .inr hquiet.queued
  refine ⟨hquiet.traces.of_eq ?_, ?_, hseparate.holdNewSegment⟩
  . rw [hhold]
  . rw [hhold]

variable [PacketRecorder ρ]

theorem sendPending_given {engine : TracedEngine RawVideoEngine} (hidle : engine.engine.Idle)
    (hunrefused : p.shared.Unrefused)
    : ∃ engine' : TracedEngine RawVideoEngine,
        (p.sendPending engine).engine = some engine'
          ∧ engine'.engine.Given (p.pending.map p.forEngine)
          ∧ (p.sendPending engine).shared.Unrefused
          ∧ (p.sendPending engine).pending = none := by
  let reply := p.sendReply engine p.pendingFrameDrop
  rcases (hidle.control (.setFrameDrop p.pendingFrameDrop)).send (p.pending.map p.forEngine)
    with ⟨hanswer, hgiven⟩
  have haccepted : reply.answer = true := hanswer
  rcases p.sendPending_engine engine with ⟨hengine, hshared⟩
  have hexchanges : reply.shared.exchanges
      = p.shared.exchanges ++ [.sent (p.pending.map p.forEngine) reply.answer] := rfl
  have hpending : (p.sendPending engine).pending = if reply.answer then none else p.pending :=
    congrArg Outline.pending (outline_sendPending (.nothing _ _) p engine)
  refine ⟨reply.engine, hengine, hgiven, ?_, ?_⟩
  . rw [hshared]
    exact hunrefused.append (by simp [haccepted]) hexchanges
  . rw [hpending, haccepted]
    rfl

theorem Quiet.fed [PacketFeed φ] (hquiet : q.Quiet) {engine : TracedEngine RawVideoEngine}
    {asked : Option (Poll Packet)} (hengine : q.engine = some engine)
    (hfills : q.Fills asked filled)
    (hagain : (filled.holdNewSegment.sendPending engine).Receives r)
    : r.Quiet ∧ (r.status = .ended → r.engine.isSome →
      asked = some .ended ∧ r.pending = none ∧ r.ready = none) := by
  have hwilling := hquiet.willing
  rw [hengine] at hwilling
  rcases hquiet.holds hfills with ⟨htraces, hshared, hseparate⟩
  have hkept := holdNewSegment_held filled
  generalize filled.holdNewSegment = holding at hagain htraces hshared hseparate hkept
  rcases sendPending_given hwilling.attached (p := holding) (by rw [hshared]; exact hwilling.2)
    with ⟨engine', hengine', hgiven, hunrefused, hpending⟩
  have houtline := outline_sendPending (.nothing _ _) holding engine
  have hdrivers : (holding.sendPending engine).drivers = holding.drivers :=
    congrArg Outline.drivers houtline
  have hsegments : (holding.sendPending engine).segments = holding.segments :=
    congrArg Outline.segments houtline
  rcases hgiven.receive with ⟨hidle, hexhausted⟩
  rcases hagain with ⟨receiver, hreceiver, hready, hreads⟩
  rw [hengine'] at hreceiver
  cases hreceiver
  -- The engine is drained exactly when no packet was left to be sent.
  have hanswer : (Engine.receive engine' (holding.sendPending engine).shared).answer = .exhausted
      ↔ holding.pending = none := by
    rw [← Option.map_eq_none_iff]
    exact hexhausted
  refine ⟨?_, ?_⟩
  . apply hreads.quiet (htraces.of_eq hdrivers) (willing_of_receive hidle hunrefused)
    rw [hanswer]
    -- A packet is held back only if none is pending, and then the engine was told to drain.
    rcases hseparate with hnone | hqueued
    . exact .inl hnone
    . exact .inr ((congrArg (·.queued) hsegments).trans hqueued)
  . intro hended hattached
    rcases hreads.of_ended hended hattached with ⟨hover, hqueued, rfl⟩
    refine ⟨hfills.ended_of_idle ?_, hpending, hready⟩
    rw [← hkept, held_eq_nil]
    exact ⟨hanswer.mp hover, (congrArg (·.queued) hsegments).symm.trans hqueued⟩

theorem Quiet.works [PacketFeed φ] (hquiet : p.Quiet) (hreports : p.Reports)
    {asked : Option (Poll Packet)} (hworks : p.Works asked q)
    : q.Quiet ∧ (q.status = .ended → q.engine.isSome →
      asked = some .ended ∧ q.pending = none ∧ q.ready = none) := by
  cases hworks with
  | detached hengine =>
    refine ⟨hquiet.of_eq rfl rfl rfl rfl, ?_⟩
    intro _ hattached
    simp [hengine] at hattached
  | kept hengine hready =>
    refine ⟨hquiet, ?_⟩
    intro hended
    simp [(hreports hready).1] at hended
  | stopped hreceives hstop =>
    rcases hquiet.receives hreceives with ⟨-, hready, hattached⟩
    rcases hstop with hsome | hnone
    . simp [hready] at hsome
    . simp [hnone] at hattached
  | waited hreceives =>
    refine ⟨(hquiet.receives hreceives).1.of_eq rfl rfl rfl rfl, ?_⟩
    intro hended
    cases hended
  | fed hreceives hengine hready hfills hagain =>
    exact (hquiet.receives hreceives).1.fed hengine hfills hagain

theorem Quiet.perform [PacketFeed φ] (hquiet : p.Quiet) (hreports : p.Reports)
    (operation : Operation (TracedFeed φ) ρ)
    : (p.perform operation).Quiet := by
  have htraces : (p.perform operation).HasTraces := hquiet.traces.of_eq (p.perform_drivers operation)
  cases operation with
  | work =>
    rcases p.doWork_works with ⟨asked, hworks⟩
    exact (hquiet.works hreports hworks).1
  | take =>
    refine ⟨htraces, hquiet.upholds.getFrame.state, ?_⟩
    exact (congrArg (·.segments.queued) (outline_getFrame (.nothing _ _) p)).trans hquiet.queued
  | reset =>
    refine ⟨htraces, hquiet.upholds.reset.state, ?_⟩
    exact congrArg (·.segments.queued) (outline_reset (.nothing _ _) p)
  | openDecoder codec =>
    refine ⟨htraces, (hquiet.upholds.openDecoder codec).state, ?_⟩
    refine (congrArg (·.segments.queued) (outline_openDecoder (.nothing _ _) p codec)).trans ?_
    dsimp only
    split
    . exact hquiet.queued
    . rfl
  | setStart | setFramedrop | resetParams | attachRecorder | detachRecorder | refill | wait =>
    exact hquiet.of_eq rfl rfl rfl rfl

end Steps

theorem quiet_createTraced [PacketFeed φ] [PacketRecorder ρ] (codec : SharedCodec)
    (drivers : List (Driver ω RawVideoEngine)) (feed : φ) (shared : ω) (options : DecoderOptions)
    (now : UInt64) (operations : List (Operation φ ρ))
    {p : Pipeline (TracedShared ω) (TracedEngine RawVideoEngine) (TracedFeed φ) ρ}
    (hp : p = (createTraced codec drivers feed shared options now).afterTraced operations)
    : p.Quiet ∧ p.Reports := by
  rw [hp]
  apply afterTraced_induct (motive := fun p => p.Quiet ∧ p.Reports)
  . have hunrefused : ({ state := shared } : TracedShared ω).Unrefused :=
      fun _ => List.not_mem_nil
    exact ⟨⟨⟨drivers, rfl⟩, willing_of_none hunrefused, rfl⟩, reports_of_none _ rfl⟩
  . exact fun p operation hp => ⟨hp.1.perform hp.2 _, hp.2.perform _⟩

/--
Whatever the feed does: if a step of a pipeline that decodes uncompressed video ends with the word that it
is over, and there still is a decoder, then the feed was just read and has ended, and nothing is left to
be sent, to be decoded or to be taken. Between steps the engine holds no frame, and it has never refused
a packet.
-/
theorem ends_only_with_feed [PacketFeed φ] [PacketRecorder ρ] (codec : SharedCodec)
    (drivers : List (Driver ω RawVideoEngine)) (feed : φ) (shared : ω) (options : DecoderOptions)
    (now : UInt64) (operations : List (Operation φ ρ))
    : let p : Pipeline (TracedShared ω) (TracedEngine RawVideoEngine) (TracedFeed φ) ρ :=
        (createTraced codec drivers feed shared options now).afterTraced operations
      let q := p.doWork
      p.untraced drivers = (create codec drivers feed shared options now).after operations
        ∧ q.untraced drivers
          = ((create codec drivers feed shared options now).after operations).doWork
        ∧ (q.status = .ended → q.hasDecoder →
          q.feed.polls = p.feed.polls ++ [.ended]
            ∧ q.pending = none ∧ q.segments.queued = none ∧ q.ready = none
            ∧ ∃ e, q.engine = some e ∧ e.engine.queue = [])
        ∧ (∀ e, p.engine = some e → e.engine.queue = [])
        ∧ (∀ packet, .sent packet false ∉ p.shared.exchanges)
        ∧ p.health.sendRetries = 0 := by
  intro p q
  have huntraced : p.untraced drivers
      = (create codec drivers feed shared options now).after operations :=
    untraced_createTraced codec drivers feed shared options now operations
  have hp : p.Quiet ∧ p.Reports :=
    quiet_createTraced codec drivers feed shared options now operations rfl
  rcases hp with ⟨hquiet, hreports⟩
  rcases accounted_afterTraced (ρ := ρ) codec drivers feed shared options now operations
    with ⟨fates, haccounts, -⟩
  rcases p.doWork_works with ⟨asked, hworks⟩
  rcases hquiet.works hreports hworks with ⟨hstill, hover⟩
  refine ⟨huntraced, ?_, ?_, fun e he => (hquiet.idle he).queue, hquiet.willing.2, ?_⟩
  . rw [untraced_doWork p (afterTraced_drivers _ operations), huntraced]
  . intro hended hattached
    rcases hover hended hattached with ⟨rfl, hpending, hready⟩
    rcases Option.isSome_iff_exists.mp hattached with ⟨e, he⟩
    exact ⟨hworks.polls, hpending, hstill.queued, hready, e, he, (hstill.idle he).queue⟩
  . refine (congrArg Health.sendRetries haccounts.counted).trans ?_
    unfold Health.due
    dsimp only
    rw [hquiet.willing.2.refused]
    rfl

theorem sample_ends_only_with_feed
    : let operations : List (Operation PacketChannel Collection) :=
        [.openDecoder sampleCodec, .work, .work, .take, .refill PacketChannel.release]
      let p := sampleTraced.afterTraced operations
      p.doWork.status = .ended ∧ p.doWork.hasDecoder
        ∧ p.doWork.feed.polls = p.feed.polls ++ [.ended]
        ∧ ∃ e, p.doWork.engine = some e ∧ e.engine.queue = [] := by
  intro operations p
  have hended : p.doWork.status = .ended := by decide +kernel
  have hattached : p.doWork.hasDecoder := by decide +kernel
  rcases ends_only_with_feed sampleCodec defaultDrivers (sampleFeed [samplePacket]) () {} 0
    operations with ⟨-, -, hover, -⟩
  rcases hover hended hattached with ⟨hpolls, -, -, -, hidle⟩
  exact ⟨hended, hattached, hpolls, hidle⟩

end Pipeline
end DecodePipeline
