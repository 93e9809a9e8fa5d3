import DecodePipeline.Proofs.Playback.Switching

/-!
This module contains the work of a pipeline on the packets of a stream of uncompressed video. A packet
that starts a segment comes again as the first packet of that segment, and every other packet is used
up at once: it gives its picture if its own segment does not exclude it.
-/

namespace DecodePipeline

def SegmentBounds.Proper (bounds : SegmentBounds) : Prop :=
  -- The bounds are numbers, so the window can be compared with itself.
  bounds.start == bounds.start ∧ bounds.stop == bounds.stop

theorem CodecParams.size_of_beq {a b : CodecParams} (heq : a == b)
    : a.width = b.width ∧ a.height = b.height := by
  change instBEqCodecParams.beq a b = true at heq
  rcases a with ⟨_, _, _, _, _, width, height, _, _, _, _⟩
  rcases b with ⟨_, _, _, _, _, width', height', _, _, _, _⟩
  simp only [instBEqCodecParams.beq, Bool.and_eq_true, beq_iff_eq] at heq
  rcases heq with ⟨-, -, -, -, -, hwidth, hheight, -⟩
  exact ⟨hwidth, hheight⟩

namespace Packet

def shown (x : Packet) (first : SharedCodec) : Option Picture :=
  if x.anyTime.any fun t => x.bounds.isPastEnd t || x.bounds.isBeforeStart t then none
  else
    let codec := (x.codec.getD first).params
    some ⟨x.payload, x.anyTime, (codec.width, codec.height)⟩

end Packet

def codecsOf (first : SharedCodec) (packets : List Packet) : List SharedCodec :=
  first :: packets.filterMap (·.codec)

structure PlainStream (first : SharedCodec) (packets : List Packet) : Prop where
  decodable : first.Decodable ∧ ∀ x ∈ packets, ∀ codec, x.codec = some codec → codec.Decodable
  timed : ∀ x ∈ packets, ∃ t, x.dts = some t ∧ (x.pts = none ∨ x.pts = some t)
  proper : ∀ x ∈ packets, x.bounds.Proper
  labelled : (∀ x ∈ packets, x.segment = none) ∨ ∀ x ∈ packets, x.codec.isSome
  shared : ∀ a ∈ codecsOf first packets, ∀ b ∈ codecsOf first packets,
    a.ident = b.ident → a.params = b.params

namespace Pipeline

variable {ω φ ρ : Type} {p : Pipeline ω RawVideoEngine φ ρ} {first : SharedCodec}
  {packets : List Packet}

theorem Resting.ready (hrest : p.Resting) : p.ready = none := by
  rcases hrest.idle with ⟨e, hsteady, -⟩
  exact hsteady.ready

theorem Resting.startCut (hrest : p.Resting) : p.startCut = none := by
  rcases hrest.idle with ⟨e, hsteady, -⟩
  exact hsteady.startCut

structure Follows (p : Pipeline ω RawVideoEngine φ ρ) (first : SharedCodec)
    (packets : List Packet) : Prop where
  resting : p.Resting
  codec : p.codec ∈ codecsOf first packets
  plain : (∀ x ∈ packets, x.segment = none) → p.codec = first ∧ p.segments.bounds = {}
  home : ∀ x, p.pending = some x → p.startsSegment x = false

theorem startsSegment_eq_false_iff (hqueued : p.segments.queued = none) {x : Packet}
    : p.startsSegment x = false
        ↔ x.segment = none ∨ (x.bounds.start == p.segments.bounds.start)
          ∧ (x.bounds.stop == p.segments.bounds.stop)
          ∧ SegmentTracker.switchKind x p.codec = .continue := by
  unfold startsSegment SegmentTracker.hasQueued SegmentTracker.isNewSegment SegmentTracker.keepsCodec
    Packet.bounds SegmentTracker.switchKind Packet.codec
  rw [hqueued]
  cases x.segment with
  | none => simp
  | some label => cases hcodec : label.codec <;> simp [hcodec, and_assoc, bne]

theorem same_of_continue {x : Packet} {codec active : SharedCodec} (hcodec : x.codec = some codec)
    (hkind : SegmentTracker.switchKind x active = .continue)
    : codec.same active := by
  unfold SegmentTracker.switchKind at hkind
  rw [hcodec] at hkind
  by_contra hother
  dsimp only at hkind
  rw [if_neg hother] at hkind
  cases hkind

theorem home_of_proper (hqueued : p.segments.queued = none) {x : Packet}
    (hbounds : p.segments.bounds = x.bounds) (hproper : x.bounds.Proper)
    (hkind : SegmentTracker.switchKind x p.codec = .continue)
    : p.startsSegment x = false := by
  rw [startsSegment_eq_false_iff hqueued, hbounds]
  exact Or.inr ⟨hproper.1, hproper.2, hkind⟩

theorem sameSize_of_same (hplain : PlainStream first packets) {a b : SharedCodec}
    (ha : a ∈ codecsOf first packets) (hb : b ∈ codecsOf first packets) (hsame : a.same b)
    : b.params.width = a.params.width ∧ b.params.height = a.params.height := by
  unfold SharedCodec.same at hsame
  rcases Bool.or_eq_true _ _ |>.mp hsame with hident | hparams
  . rw [hplain.shared a ha b hb (beq_iff_eq.mp hident)]
    exact ⟨rfl, rfl⟩
  . rcases CodecParams.size_of_beq hparams with ⟨hwidth, hheight⟩
    exact ⟨hwidth.symm, hheight.symm⟩

theorem mem_codecsOf {x : Packet} {codec : SharedCodec} (hx : x ∈ packets)
    (hcodec : x.codec = some codec)
    : codec ∈ codecsOf first packets :=
  List.mem_cons_of_mem _ (List.mem_filterMap.mpr ⟨x, hx, hcodec⟩)

theorem Follows.shown (hfollows : p.Follows first packets) (hplain : PlainStream first packets)
    {x : Packet} (hx : x ∈ packets) (hhome : p.startsSegment x = false) {t : Timestamp}
    (hpts : x.pts = none ∨ x.pts = some t) (hdts : x.dts = some t)
    : (if p.excludes t then none
        else some (Picture.mk x.payload (some t) (p.codec.params.width, p.codec.params.height)))
      = x.shown first := by
  have htime : x.anyTime = some t := by
    unfold Packet.anyTime
    rcases hpts with hpts | hpts <;> rw [hpts, hdts] <;> rfl
  have hagree : (x.bounds.start == p.segments.bounds.start) ∧ (x.bounds.stop == p.segments.bounds.stop)
      ∧ p.codec.params.width = (x.codec.getD first).params.width
      ∧ p.codec.params.height = (x.codec.getD first).params.height := by
    rcases hplain.labelled with hnone | hsome
    . rcases hfollows.plain hnone with ⟨hcodec, hbounds⟩
      have hsegment := hnone x hx
      unfold Packet.bounds Packet.codec
      rw [hsegment, hcodec, hbounds]
      exact ⟨rfl, rfl, rfl, rfl⟩
    . rcases Option.isSome_iff_exists.mp (hsome x hx) with ⟨codec, hcodec⟩
      rcases (startsSegment_eq_false_iff hfollows.resting.queued).mp hhome
        with hsegment | ⟨hstart, hstop, hkind⟩
      . unfold Packet.codec at hcodec
        rw [hsegment] at hcodec
        cases hcodec
      . rw [hcodec]
        exact ⟨hstart, hstop, sameSize_of_same hplain (mem_codecsOf hx hcodec) hfollows.codec
          (same_of_continue hcodec hkind)⟩
  have hexcludes : p.excludes t = (x.bounds.isPastEnd t || x.bounds.isBeforeStart t) := by
    unfold excludes
    rw [hfollows.resting.startCut, SegmentBounds.isPastEnd_congr hagree.2.1,
      SegmentBounds.isBeforeStart_congr hagree.1]
    simp
  unfold Packet.shown
  rw [htime, hexcludes, hagree.2.2.1, hagree.2.2.2]
  rfl

theorem Resting.withInput (hrest : p.Resting) (feed : φ) (pending : Option Packet)
    : (p.withInput feed pending).Resting := by
  rcases hrest.idle with ⟨e, hsteady, hidle⟩
  exact ⟨⟨e, hsteady.withInput feed pending, hidle⟩, hrest.queued⟩

theorem Resting.of_idle {q : Pipeline ω RawVideoEngine φ ρ} {codec : SharedCodec}
    {e : RawVideoEngine} {feed : φ} {pending : Option Packet} {segments : SegmentTracker}
    {cache : ParamsCache} (hrest : p.Resting)
    (hcore : q.core
      = { p.core with codec, engine := some e, feed, pending, segments, params := cache })
    (hidle : Idle e codec) (hcache : cache.Holds (codec.params.width, codec.params.height))
    (hqueued : segments.queued = none)
    : q.Resting := by
  rcases hrest.idle with ⟨e', hsteady, -⟩
  simp only [core, Core.mk.injEq] at hcore
  rcases hcore with ⟨hcodec, hdrivers, hoptions, -, hengine, hready, -, hsegments, hparams, hstart⟩
  refine ⟨⟨e, ⟨hengine, ?_, ?_, ?_, ?_, ?_, ?_⟩, hidle.queue, hidle.draining⟩, ?_⟩
  . exact hdrivers.trans hsteady.drivers
  . exact hoptions.trans hsteady.options
  . exact hstart.trans hsteady.startCut
  . exact hready.trans hsteady.ready
  . rw [hcodec]
    exact hidle.params
  . rw [hparams, hcodec]
    exact hcache
  . rw [hsegments]
    exact hqueued

theorem codecFrom_mem (hcodec : p.codec ∈ codecsOf first packets) {x : Packet} (hx : x ∈ packets)
    : x.codecFrom p.codec ∈ codecsOf first packets := by
  rcases x.codecFrom_eq p.codec with hsame | hnamed
  . rw [hsame]
    exact hcodec
  . exact mem_codecsOf hx hnamed

theorem Follows.of_core {q : Pipeline ω RawVideoEngine φ ρ} (hfollows : p.Follows first packets)
    (hcore : q.core = p.core)
    : q.Follows first packets := by
  have hcodec : q.codec = p.codec := congrArg Core.codec hcore
  have hsegments : q.segments = p.segments := congrArg Core.segments hcore
  have hpending : q.pending = p.pending := congrArg Core.pending hcore
  refine ⟨hfollows.resting.of_core hcore, ?_, ?_, ?_⟩
  . rw [hcodec]
    exact hfollows.codec
  . rw [hcodec, hsegments]
    exact hfollows.plain
  . intro x hx
    rw [hpending] at hx
    rw [← hfollows.home x hx]
    unfold startsSegment
    rw [hcodec, hsegments]

theorem follows_openWith (hplain : PlainStream first packets) (feed : φ) (shared : ω) (now : UInt64)
    : ∃ p : Pipeline ω RawVideoEngine φ ρ,
        openWith first defaultDrivers feed shared {} now = (.ok (), p)
          ∧ p.Follows first packets ∧ p.feed = feed ∧ p.pending = none := by
  let created : Pipeline ω RawVideoEngine φ ρ := create first defaultDrivers feed shared {} now
  have hopen := openDecoder_of_opens (p := created) rfl hplain.decodable.1.opens
  have hcore := core_opened_of_fresh created first rfl
  simp only [core, Core.mk.injEq] at hcore
  rcases hcore
    with ⟨hcodec, hdrivers, hoptions, hfeed, hengine, hready, hpending, hsegments, hparams,
      hstart⟩
  have hempty : (created.opened first).segments = {} := hsegments
  let e : RawVideoEngine := { params := some (.ofSize first.params.width first.params.height) }
  refine ⟨created.opened first, hopen, ⟨⟨⟨e, ?_, rfl, rfl⟩, ?_⟩, ?_, ?_, ?_⟩, hfeed, hpending⟩
  . refine ⟨hengine, hdrivers, hoptions, hstart, hready, ?_, ?_⟩
    . rw [hcodec]
    . rw [hparams]
      apply ParamsCache.holds_empty
  . rw [hempty]
  . rw [hcodec]
    exact List.mem_cons_self
  . intro hnone
    rw [hcodec, hempty]
    exact ⟨rfl, rfl⟩
  . simp [hpending]

variable [PacketFeed φ] [PacketRecorder ρ] {feed : φ}

theorem Follows.wait (hfollows : p.Follows first packets) (hincoming : p.incoming = (.empty, feed))
    : p.doWork.getFrame = (none, .waiting, p.doWork) ∧ p.doWork.Follows first packets
        ∧ p.doWork.feed = feed ∧ p.doWork.pending = none := by
  rcases hfollows.resting.calm with ⟨_, -, hcalm⟩
  rcases doWork_of_empty hcalm hincoming with ⟨hcore, hstatus⟩
  have hrest : p.doWork.Resting := (hfollows.resting.withInput feed none).of_core hcore
  have hcodec : p.doWork.codec = p.codec := congrArg Core.codec hcore
  have hsegments : p.doWork.segments = p.segments := congrArg Core.segments hcore
  have hpending : p.doWork.pending = none := congrArg Core.pending hcore
  refine ⟨getFrame_of_none hrest.ready hstatus (by decide), ⟨hrest, ?_, ?_, ?_⟩,
    congrArg Core.feed hcore, hpending⟩
  . rw [hcodec]
    exact hfollows.codec
  . rw [hcodec, hsegments]
    exact hfollows.plain
  . simp [hpending]

theorem Follows.finish (hfollows : p.Follows first packets) (hincoming : p.incoming = (.ended, feed))
    : p.doWork.getFrame = (none, .ended, p.doWork) ∧ p.doWork.status = .ended
        ∧ p.doWork.feed = feed ∧ p.doWork.pending = none := by
  rcases hfollows.resting.calm with ⟨_, -, hcalm⟩
  rcases doWork_of_ended hcalm hincoming with ⟨hstatus, _, hcore⟩
  have hready : p.doWork.ready = none := (congrArg Core.ready hcore).trans hfollows.resting.ready
  exact ⟨getFrame_of_none hready hstatus (by decide), hstatus, congrArg Core.feed hcore,
    congrArg Core.pending hcore⟩

theorem Follows.consume (hfollows : p.Follows first packets) (hplain : PlainStream first packets)
    {x : Packet} (hx : x ∈ packets) (hincoming : p.incoming = (.item x, feed))
    (hhome : p.startsSegment x = false)
    : let taken := p.doWork.getFrame
      taken.2.2.Follows first packets ∧ taken.2.2.feed = feed ∧ taken.2.2.pending = none
        ∧ taken.1.map Frame.picture = x.shown first ∧ (taken.1 = none → taken.2.1 = .again) := by
  rcases hplain.timed x hx with ⟨t, hdts, hpts⟩
  rcases doWork_of_home hfollows.resting hincoming hhome hpts hdts
    with ⟨e, cache, hidle, hcache, hcore, hstatus, hpicture⟩
  have hshown := hfollows.shown hplain hx hhome hpts hdts
  dsimp only
  generalize p.doWork.getFrame = taken at *
  rcases taken with ⟨frame, status, q⟩
  dsimp only at hcore hstatus hpicture ⊢
  have hcodec : q.codec = p.codec := congrArg Core.codec hcore
  have hsegments : q.segments = p.segments := congrArg Core.segments hcore
  have hpending : q.pending = none := congrArg Core.pending hcore
  refine ⟨⟨?_, ?_, ?_, ?_⟩, congrArg Core.feed hcore, hpending, hpicture.trans hshown, ?_⟩
  . exact hfollows.resting.of_idle hcore hidle hcache
      hfollows.resting.queued
  . rw [hcodec]
    exact hfollows.codec
  . rw [hcodec, hsegments]
    exact hfollows.plain
  . simp [hpending]
  . intro hnone
    rw [hnone] at hpicture
    rw [hstatus]
    cases hexcludes : p.excludes t with
    | true => rfl
    | false =>
      rw [hexcludes] at hpicture
      cases hpicture

theorem Follows.advance (hfollows : p.Follows first packets) (hplain : PlainStream first packets)
    {x : Packet} (hx : x ∈ packets) (hincoming : p.incoming = (.item x, feed))
    (hnew : p.startsSegment x = true)
    : p.doWork.getFrame = (none, .again, p.doWork) ∧ p.doWork.Follows first packets
        ∧ p.doWork.feed = feed ∧ p.doWork.pending = some x := by
  rcases hfollows.resting.calm with ⟨e, hsteady, hcalm⟩
  have hstart : x.canStart p.options p.codec = true := by
    rw [hsteady.options]
    exact Packet.canStart_of_decodable (hplain.decodable.2 x hx) p.codec
  rcases doWork_of_new hcalm hsteady.drivers hincoming hnew hstart with ⟨hstatus, e', hidle, hcore⟩
  have hready : p.core.ready = none := hsteady.ready
  have hcut : p.core.startCut = none := hsteady.startCut
  rw [← hready, ← hcut] at hcore
  have hrest : p.doWork.Resting :=
    hfollows.resting.of_idle hcore hidle (ParamsCache.holds_empty _) rfl
  have hactive : p.doWork.codec = x.codecFrom p.codec := congrArg Core.codec hcore
  have hbounds : p.doWork.segments.bounds = x.bounds := congrArg (·.segments.bounds) hcore
  have hpending : p.doWork.pending = some x := congrArg Core.pending hcore
  refine ⟨getFrame_of_none hrest.ready hstatus (by decide), ⟨hrest, ?_, ?_, ?_⟩,
    congrArg Core.feed hcore, hpending⟩
  . rw [hactive]
    exact codecFrom_mem hfollows.codec hx
  . intro hnone
    have hhome := (startsSegment_eq_false_iff hfollows.resting.queued).mpr (Or.inl (hnone x hx))
    rw [hhome] at hnew
    cases hnew
  . intro x' hx'
    have hsame : x' = x := Option.some.inj (hx'.symm.trans hpending)
    subst hsame
    apply home_of_proper hrest.queued hbounds (hplain.proper x' hx)
    rw [hactive]
    exact x'.switchKind_codecFrom p.codec

end Pipeline
end DecodePipeline
