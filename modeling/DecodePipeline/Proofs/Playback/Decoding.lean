import DecodePipeline.Proofs.Playback.Pictures

/-!
This module contains the steps of a pipeline that decodes uncompressed video. Between two steps the
engine is empty: a packet that is sent becomes a frame in the same step, and what has to drain does so
at once.
-/

namespace DecodePipeline.Pipeline

variable {ω φ ρ : Type}

section Incoming

variable {p : Pipeline ω RawVideoEngine φ ρ} {e : RawVideoEngine}

def withInput (p : Pipeline ω RawVideoEngine φ ρ) (feed : φ) (pending : Option Packet) :
    Pipeline ω RawVideoEngine φ ρ :=
  { p with feed, pending }

theorem Running.withInput (hrunning : p.Running e) (feed : φ) (pending : Option Packet)
    : (p.withInput feed pending).Running e :=
  ⟨hrunning.engine, hrunning.ready, hrunning.params⟩

theorem Steady.withInput (hsteady : p.Steady e) (feed : φ) (pending : Option Packet)
    : (p.withInput feed pending).Steady e := by
  refine ⟨?_, ?_, ?_, ?_, ?_, ?_, ?_⟩
  . exact hsteady.engine
  . exact hsteady.drivers
  . exact hsteady.options
  . exact hsteady.startCut
  . exact hsteady.ready
  . exact hsteady.params
  . exact hsteady.cache

def incoming [PacketFeed φ] (p : Pipeline ω RawVideoEngine φ ρ) : Poll Packet × φ :=
  match p.pending with
  | some packet => (.item packet, p.feed)
  | none => PacketFeed.tryRead p.feed

theorem incoming_of_none [PacketFeed φ] (hpending : p.pending = none)
    : p.incoming = PacketFeed.tryRead p.feed := by
  unfold incoming
  rw [hpending]

theorem incoming_of_some [PacketFeed φ] {packet : Packet} (hpending : p.pending = some packet)
    : p.incoming = (.item packet, p.feed) := by
  unfold incoming
  rw [hpending]

theorem incoming_of_core [PacketFeed φ] {q : Pipeline ω RawVideoEngine φ ρ} (hcore : q.core = p.core)
    : q.incoming = p.incoming := by
  unfold incoming
  rw [show q.pending = p.pending from congrArg Core.pending hcore,
    show q.feed = p.feed from congrArg Core.feed hcore]

theorem startsSegment_of_core {q : Pipeline ω RawVideoEngine φ ρ} {packet : Packet}
    {feed : φ} (hcore : q.core = { p.core with feed, pending := some packet })
    : q.startsSegment packet = p.startsSegment packet := by
  unfold startsSegment
  rw [show q.codec = p.codec from congrArg Core.codec hcore,
    show q.segments = p.segments from congrArg Core.segments hcore]

theorem fillPending_eq [PacketFeed φ] (hqueued : p.segments.queued = none)
    : p.fillPending
        = match p.incoming with
          | (.item packet, feed) => (false, p.withInput feed (some packet))
          | (.empty, feed) => (true, p.withInput feed none)
          | (.ended, feed) => (false, p.withInput feed none) := by
  cases hpending : p.pending with
  | none =>
    have hsame (feed : φ)
        : ({ p with feed } : Pipeline ω RawVideoEngine φ ρ) = p.withInput feed none := by
      unfold withInput
      rw [← hpending]
    rw [fillPending_of_idle p hpending hqueued, incoming_of_none hpending]
    rcases PacketFeed.tryRead p.feed with ⟨poll, feed⟩
    cases poll with
    | item packet => rfl
    | empty => exact congrArg (Prod.mk true) (hsame feed)
    | ended => exact congrArg (Prod.mk false) (hsame feed)
  | some packet =>
    have hheld : p.held ≠ [] := by
      rw [Ne, held_eq_nil, hpending]
      simp
    have hsame : p.withInput p.feed (some packet) = p := by
      rw [← hpending]
      rfl
    rw [fillPending_of_held p hheld, incoming_of_some hpending]
    exact (congrArg (Prod.mk false) hsame).symm

structure Resting (p : Pipeline ω RawVideoEngine φ ρ) : Prop where
  idle : ∃ e, p.Steady e ∧ e.queue = [] ∧ e.draining = false
  queued : p.segments.queued = none

theorem Resting.of_core {q : Pipeline ω RawVideoEngine φ ρ} (hrest : p.Resting)
    (hcore : q.core = p.core)
    : q.Resting := by
  rcases hrest.idle with ⟨e, hsteady, hidle⟩
  refine ⟨⟨e, hsteady.of_core hcore, hidle⟩, ?_⟩
  exact (congrArg (·.segments.queued) hcore).trans hrest.queued

theorem feedPacket_of_running [PacketFeed φ] [PacketRecorder ρ] (hrunning : p.Running e)
    : p.feedPacket
        = match p.fillPending with
          | (true, q) => { q with status := .waiting }
          | (false, q) => q.holdNewSegment.sendPending e := by
  unfold feedPacket
  rw [hrunning.engine, hrunning.ready]
  rcases p.fillPending with ⟨waits, q⟩
  cases waits <;> rfl

structure Idle (e : RawVideoEngine) (codec : SharedCodec) : Prop where
  queue : e.queue = []
  draining : e.draining = false
  params : e.params = some (.ofSize codec.params.width codec.params.height)

structure Calm (p : Pipeline ω RawVideoEngine φ ρ) (e : RawVideoEngine) : Prop where
  engine : p.engine = some e
  ready : p.ready = none
  idle : Idle e p.codec
  queued : p.segments.queued = none

theorem Calm.running (hcalm : p.Calm e) : p.Running e :=
  ⟨hcalm.engine, hcalm.ready, Option.isSome_of_eq_some hcalm.idle.params⟩

theorem Calm.of_core {q : Pipeline ω RawVideoEngine φ ρ} (hcalm : p.Calm e) (hcore : q.core = p.core)
    : q.Calm e := by
  simp only [core, Core.mk.injEq] at hcore
  rcases hcore with ⟨hcodec, -, -, -, hengine, hready, -, hsegments, -, -⟩
  refine ⟨hengine.trans hcalm.engine, hready.trans hcalm.ready, ?_, ?_⟩
  . rw [hcodec]
    exact hcalm.idle
  . rw [hsegments]
    exact hcalm.queued

theorem Resting.calm (hrest : p.Resting) : ∃ e, p.Steady e ∧ p.Calm e := by
  rcases hrest.idle with ⟨e, hsteady, hqueue, hdraining⟩
  exact ⟨e, hsteady, hsteady.engine, hsteady.ready, ⟨hqueue, hdraining, hsteady.params⟩, hrest.queued⟩

theorem doWork_of_calm [PacketFeed φ] [PacketRecorder ρ] (hcalm : p.Calm e)
    : ∃ q : Pipeline ω RawVideoEngine φ ρ, p.readFrame = q ∧ q.core = p.core ∧ q.Calm e ∧ p.doWork
        = if q.feedPacket.status == .waiting then q.feedPacket else q.feedPacket.readFrame := by
  rcases core_readFrame_of_idle hcalm.running hcalm.idle.queue hcalm.idle.draining with ⟨hcore, -⟩
  have hready : p.readFrame.ready = none := (congrArg Core.ready hcore).trans hcalm.ready
  refine ⟨p.readFrame, rfl, hcore, hcalm.of_core hcore, ?_⟩
  unfold doWork
  rw [hcalm.engine]
  dsimp only
  rw [hready]
  rfl

theorem excludes_of_hard {t : Timestamp} {packet : Packet} (hsteady : p.Steady e)
    (hpending : p.pending = some packet) (hpts : packet.pts = none ∨ packet.pts = some t)
    (hhard : p.pendingFrameDrop = .hard)
    : p.excludes t = true := by
  unfold pendingFrameDrop at hhard
  rw [hpending, hsteady.startCut] at hhard
  rcases lt_of_frameDropFor_hard hhard with ⟨t', start, ht', hstart, hlt⟩
  have ht : packet.pts = some t' := ht'
  have hsame : t = t' := by
    rw [ht] at hpts
    simpa [eq_comm] using hpts
  subst hsame
  have hbefore : p.segments.bounds.isBeforeStart t = true := by
    have hstart : p.segments.bounds.start = some start := hstart
    unfold SegmentBounds.isBeforeStart
    rw [hstart]
    exact decide_eq_true hlt
  unfold excludes
  rw [hbefore, Bool.or_true]

theorem forEngine_of_dts (p : Pipeline ω RawVideoEngine φ ρ) {packet : Packet}
    (hdts : packet.dts.isSome)
    : p.forEngine packet = packet := by
  unfold forEngine
  rw [Option.isNone_eq_false_iff.mpr hdts]
  rfl

end Incoming

section Packets

variable [PacketRecorder ρ] {p : Pipeline ω RawVideoEngine φ ρ} {e : RawVideoEngine}

theorem sendPending_of_accepted {e' : RawVideoEngine}
    (hsend : ({ e with framedrop := p.pendingFrameDrop }).send (p.pending.map p.forEngine)
      = (true, e'))
    : (p.sendPending e).core = { p.core with engine := some e', pending := none }
        ∧ (p.sendPending e).status = .again := by
  have hanswer : (p.sendTo e p.pendingFrameDrop).1 = true := congrArg Prod.fst hsend
  have hsent : (p.sendTo e p.pendingFrameDrop).2.core = { p.core with engine := some e' } :=
    congrArg (fun reply : Bool × RawVideoEngine => { p.core with engine := some reply.2 }) hsend
  unfold sendPending
  dsimp only
  rcases hresult : p.sendTo e p.pendingFrameDrop with ⟨accepted, q⟩
  rw [hresult] at hanswer hsent
  dsimp only at hanswer hsent ⊢
  subst hanswer
  refine ⟨?_, rfl⟩
  refine (core_acceptPending q).trans ?_
  rw [hsent]

theorem sendPending_of_pending_none (hparams : e.params.isSome) (hpending : p.pending = none)
    : (p.sendPending e).core
          = { p.core with
              engine := some { e with framedrop := p.pendingFrameDrop, draining := true } }
        ∧ (p.sendPending e).status = .again := by
  have hsend : ({ e with framedrop := p.pendingFrameDrop }).send (p.pending.map p.forEngine)
      = (true, { e with framedrop := p.pendingFrameDrop, draining := true }) := by
    rw [hpending]
    rcases Option.isSome_iff_exists.mp hparams with ⟨params, hparams⟩
    unfold RawVideoEngine.send
    rw [hparams]
    rfl
  rcases sendPending_of_accepted hsend with ⟨hcore, hstatus⟩
  refine ⟨hcore.trans ?_, hstatus⟩
  have hnone : p.core.pending = none := hpending
  rw [← hnone]

theorem sendPending_of_pending {packet : Packet} {params : ImageParams}
    (hparams : e.params = some params) (hpending : p.pending = some packet) (hqueue : e.queue = [])
    : let sent := p.forEngine packet
      (p.sendPending e).core
          = { p.core with
              engine := some
                { e with
                  framedrop := p.pendingFrameDrop
                  queue :=
                    if p.pendingFrameDrop == .hard then []
                    else [{ payload := sent.payload, pts := sent.pts, dts := sent.dts, params }]
                  draining := false }
              pending := none }
        ∧ (p.sendPending e).status = .again := by
  apply sendPending_of_accepted
  rw [hpending, Option.map_some]
  unfold RawVideoEngine.send
  rw [hparams]
  unfold RawVideoEngine.sendPacket
  rw [hqueue]
  rfl

theorem readFrame_of_sent (hrunning : p.Running e) (hqueue : e.queue = [])
    (hpending : p.pending = none)
    : (p.sendPending e).status = .again
        ∧ ∃ (q : Pipeline ω RawVideoEngine φ ρ) (e' : RawVideoEngine),
            (p.sendPending e).readFrame = q.endSegment ∧ q.status = .ended
            ∧ e'.params = e.params ∧ q.core = { p.core with engine := some e' } := by
  rcases sendPending_of_pending_none (p := p) hrunning.params hpending with ⟨hcore, hstatus⟩
  have hrunning' := hrunning.update hcore rfl
  refine ⟨hstatus, _, { e with framedrop := p.pendingFrameDrop, draining := true },
    readFrame_of_drained hrunning' hqueue rfl, rfl, rfl, hcore⟩

theorem getFrame_of_sent (hsteady : p.Steady e) (hqueue : e.queue = [])
    (hqueued : p.segments.queued = none) {packet : Packet} (hpending : p.pending = some packet)
    {t : Timestamp} (hpts : packet.pts = none ∨ packet.pts = some t) (hdts : packet.dts = some t)
    : ∃ e' cache, Idle e' p.codec ∧ cache.Holds (p.codec.params.width, p.codec.params.height)
        ∧ let taken := (p.sendPending e).readFrame.getFrame
          taken.2.2.core = { p.core with engine := some e', pending := none, params := cache }
            ∧ taken.2.1 = (if p.excludes t then .again else .ready)
            ∧ taken.1.map Frame.picture
                = if p.excludes t then none
                  else some
                    ⟨packet.payload, some t, (p.codec.params.width, p.codec.params.height)⟩ := by
  rcases sendPending_of_pending hsteady.params hpending hqueue with ⟨hcore, -⟩
  rw [p.forEngine_of_dts (Option.isSome_of_eq_some hdts)] at hcore
  have hhard := excludes_of_hard hsteady hpending hpts
  generalize p.sendPending e = q at *
  by_cases hdrop : p.pendingFrameDrop = .hard
  . -- the engine skips the packet, whose time is excluded
    rw [hdrop] at hcore
    have hsteady' := hsteady.update hcore rfl hsteady.cache
    rcases core_readFrame_of_idle hsteady'.running rfl rfl with ⟨hread, hagain⟩
    have hready : q.readFrame.ready = none :=
      (congrArg Core.ready hread).trans hsteady'.ready
    refine ⟨{ e with framedrop := .hard, queue := [], draining := false }, p.params,
      ⟨rfl, rfl, hsteady.params⟩, hsteady.cache, ?_⟩
    dsimp only
    rw [getFrame_of_none hready hagain (by decide), hhard hdrop]
    exact ⟨hread.trans hcore, rfl, rfl⟩
  . have hkeep : (p.pendingFrameDrop == .hard) = false := beq_eq_false_iff_ne.mpr hdrop
    rw [hkeep] at hcore
    have hsteady' := hsteady.update hcore rfl hsteady.cache
    let engine := { e with framedrop := p.pendingFrameDrop, queue := [], draining := false }
    let frame : Frame :=
      { payload := packet.payload
        pts := packet.pts
        dts := packet.dts
        params := .ofSize p.codec.params.width p.codec.params.height }
    have hread : q.readFrame = (q.withEngine engine).offer frame :=
      readFrame_of_frame hsteady'.running rfl
    have hreceived : (q.withEngine engine).core
        = { p.core with engine := some engine, pending := none } := by
      change { q.core with engine := some engine } = _
      rw [hcore]
    have hsteady'' := hsteady.update hreceived rfl hsteady.cache
    have hcodec : (q.withEngine engine).codec = p.codec := congrArg Core.codec hreceived
    have hexcludes : (q.withEngine engine).excludes t = p.excludes t := by
      unfold excludes
      rw [show (q.withEngine engine).segments = p.segments from congrArg Core.segments hreceived,
        show (q.withEngine engine).startCut = p.startCut from congrArg Core.startCut hreceived]
    have hqueued' : (q.withEngine engine).segments.queued = none :=
      (congrArg (·.segments.queued) hreceived).trans hqueued
    have hsize : frame.params.size
        = ((q.withEngine engine).codec.params.width, (q.withEngine engine).codec.params.height) := by
      rw [hcodec]
      rfl
    rcases offer_spec hsteady'' hqueued' (show frame.pts = none ∨ frame.pts = some t from hpts) hdts
      hsize with ⟨cache, hcache, hcore', hstatus', hpicture⟩
    rw [hexcludes] at hstatus' hpicture
    refine ⟨engine, cache, ⟨rfl, rfl, hsteady.params⟩, hcache, ?_⟩
    rw [hread]
    refine ⟨hcore'.trans ?_, hstatus', hpicture⟩
    rw [hreceived]

variable [PacketFeed φ] {feed : φ}

theorem doWork_of_empty (hcalm : p.Calm e) (hincoming : p.incoming = (.empty, feed))
    : p.doWork.core = { p.core with feed, pending := none } ∧ p.doWork.status = .waiting := by
  rcases doWork_of_calm hcalm with ⟨q, -, hcore, hcalm', hwork⟩
  have hfed : q.feedPacket = { q.withInput feed none with status := .waiting } := by
    rw [feedPacket_of_running hcalm'.running, fillPending_eq hcalm'.queued, incoming_of_core hcore,
      hincoming]
  rw [hwork, hfed, ← hcore]
  exact ⟨rfl, rfl⟩

theorem doWork_of_ended (hcalm : p.Calm e) (hincoming : p.incoming = (.ended, feed))
    : p.doWork.status = .ended
        ∧ ∃ e, p.doWork.core = { p.core with engine := some e, feed, pending := none } := by
  rcases doWork_of_calm hcalm with ⟨q, -, hcore, hcalm', hwork⟩
  have hfed : q.feedPacket = (q.withInput feed none).sendPending e := by
    rw [feedPacket_of_running hcalm'.running, fillPending_eq hcalm'.queued, incoming_of_core hcore,
      hincoming]
    dsimp only
    rw [holdNewSegment_of_pending_none (q.withInput feed none) rfl]
  have hrunning := hcalm'.running.withInput feed none
  rcases readFrame_of_sent hrunning hcalm.idle.queue rfl
    with ⟨hstatus, r, e', hread, hended, -, hcore'⟩
  rw [hwork, hfed, hstatus, if_neg (by decide), hread, endSegment_of_queued_none]
  . refine ⟨hended, e', ?_⟩
    rw [hcore', ← hcore]
    rfl
  . exact (congrArg (·.segments.queued) hcore').trans hcalm'.queued

theorem doWork_of_same (hcalm : p.Calm e) {packet : Packet}
    (hincoming : p.incoming = (.item packet, feed)) (hhome : p.startsSegment packet = false)
    : ∃ q : Pipeline ω RawVideoEngine φ ρ,
        q.core = { p.core with feed, pending := some packet }
          ∧ p.doWork = (q.sendPending e).readFrame := by
  rcases doWork_of_calm hcalm with ⟨q, -, hcore, hcalm', hwork⟩
  let r := q.withInput feed (some packet)
  have hcore' : r.core = { p.core with feed, pending := some packet } := by
    rw [← hcore]
    rfl
  have hfed : q.feedPacket = r.sendPending e := by
    rw [feedPacket_of_running hcalm'.running, fillPending_eq hcalm'.queued, incoming_of_core hcore,
      hincoming]
    dsimp only
    rw [holdNewSegment_of_same r rfl ((startsSegment_of_core hcore').trans hhome)]
  rcases sendPending_of_pending (p := r) hcalm.idle.params rfl hcalm.idle.queue with ⟨-, hstatus⟩
  refine ⟨r, hcore', ?_⟩
  rw [hwork, hfed, hstatus, if_neg (by decide)]

theorem doWork_of_home (hrest : p.Resting) {packet : Packet}
    (hincoming : p.incoming = (.item packet, feed)) (hhome : p.startsSegment packet = false)
    {t : Timestamp} (hpts : packet.pts = none ∨ packet.pts = some t) (hdts : packet.dts = some t)
    : ∃ e cache, Idle e p.codec ∧ cache.Holds (p.codec.params.width, p.codec.params.height)
        ∧ p.doWork.getFrame.2.2.core
            = { p.core with engine := some e, feed, pending := none, params := cache }
        ∧ p.doWork.getFrame.2.1 = (if p.excludes t then .again else .ready)
        ∧ p.doWork.getFrame.1.map Frame.picture
            = if p.excludes t then none
              else some
                ⟨packet.payload, some t, (p.codec.params.width, p.codec.params.height)⟩ := by
  rcases hrest.calm with ⟨e, hsteady, hcalm⟩
  rcases doWork_of_same hcalm hincoming hhome with ⟨q, hcore, hwork⟩
  have hcodec : q.codec = p.codec := congrArg Core.codec hcore
  have hexcludes : q.excludes t = p.excludes t := by
    unfold excludes
    rw [show q.segments = p.segments from congrArg Core.segments hcore,
      show q.startCut = p.startCut from congrArg Core.startCut hcore]
  have hqueued : q.segments.queued = none := (congrArg (·.segments.queued) hcore).trans hrest.queued
  have hsame : q.core
      = { p.core with
          engine := some e
          feed
          pending := some packet
          segments := p.segments
          params := p.params } := by
    rw [hcore, ← hsteady.engine]
    rfl
  rcases getFrame_of_sent (hsteady.update hsame rfl hsteady.cache) hcalm.idle.queue hqueued
    (congrArg Core.pending hcore) hpts hdts with ⟨e', cache, hidle, hcache, htaken⟩
  rw [hcodec] at hidle hcache htaken
  rw [hexcludes] at htaken
  rw [hwork]
  refine ⟨e', cache, hidle, hcache, htaken.1.trans ?_, htaken.2⟩
  rw [hcore]

end Packets

end DecodePipeline.Pipeline
