import DecodePipeline.Proofs.Pipeline.Selection
import DecodePipeline.Proofs.Playback.Decoding

/-!
This module contains the start of segments in a pipeline that decodes uncompressed video. The current
segment drains at once. If there is a decoder for the new segment, then the packet that starts it is
the next one, and otherwise the pipeline has ended.
-/

namespace DecodePipeline

structure SharedCodec.Decodable (codec : SharedCodec) : Prop where
  name : codec.params.codec = RawVideoEngine.name
  width : codec.params.width ≠ 0
  height : codec.params.height ≠ 0

theorem SharedCodec.Decodable.opens {codec : SharedCodec} (hdecodable : codec.Decodable)
    : ({} : DecoderOptions).opens codec.params = true := by
  unfold DecoderOptions.opens DecoderOptions.entriesFor
  rw [hdecodable.name]
  simp only [Bool.and_eq_true, bne_iff_ne]
  exact ⟨⟨rfl, hdecodable.width⟩, hdecodable.height⟩

namespace Packet

def codecFrom (x : Packet) (active : SharedCodec) : SharedCodec :=
  match SegmentTracker.switchKind x active with
  | .continue => active
  | .reinit codec => codec

def canStart (x : Packet) (options : DecoderOptions) (active : SharedCodec) : Bool :=
  match SegmentTracker.switchKind x active with
  | .continue => true
  | .reinit codec => options.opens codec.params

theorem codecFrom_eq (x : Packet) (active : SharedCodec)
    : x.codecFrom active = active ∨ x.codec = some (x.codecFrom active) := by
  unfold codecFrom SegmentTracker.switchKind
  cases x.codec with
  | none => exact Or.inl rfl
  | some codec =>
    dsimp only
    by_cases hsame : codec.same active
    . rw [if_pos hsame]
      exact Or.inl rfl
    . rw [if_neg hsame]
      exact Or.inr rfl

theorem switchKind_codecFrom (x : Packet) (active : SharedCodec)
    : SegmentTracker.switchKind x (x.codecFrom active) = .continue := by
  unfold codecFrom SegmentTracker.switchKind
  cases x.codec with
  | none => rfl
  | some codec => by_cases hsame : codec.same active <;> simp [hsame, codec.same_self]

theorem canStart_of_decodable {x : Packet}
    (hdecodable : ∀ codec, x.codec = some codec → codec.Decodable) (active : SharedCodec)
    : x.canStart {} active = true := by
  unfold canStart SegmentTracker.switchKind
  cases hcodec : x.codec with
  | none => rfl
  | some codec =>
    dsimp only
    by_cases hsame : codec.same active
    . rw [if_pos hsame]
    . rw [if_neg hsame]
      exact (hdecodable codec hcodec).opens

end Packet

namespace Pipeline

variable {ω φ ρ : Type} {p : Pipeline ω RawVideoEngine φ ρ}

theorem core_readied (p : Pipeline ω RawVideoEngine φ ρ) (codec : SharedCodec)
    : (p.readied codec).core
        = { p.core with
            codec
            engine := none
            ready := none
            pending := none
            segments := if p.segments.phase == .switching then p.segments else {}
            params := {}
            startCut := none } := by
  have houtline := outline_prepareCodec (.nothing ω RawVideoEngine) p codec
  have hengine : (p.prepareCodec codec).engine = none := by
    simpa [outline] using congrArg Outline.attached houtline
  have hparams : (p.prepareCodec codec).params = {} := rfl
  simp only [outline, Outline.mk.injEq] at houtline
  rcases houtline with ⟨hcodec, hdrivers, hoptions, hfeed, -, -, hready, hpending, hsegments, hstart⟩
  unfold readied core sayAll
  dsimp only
  rw [hcodec, hdrivers, hoptions, hfeed, hengine, hready, hpending, hsegments, hparams, hstart]

theorem core_opened (p : Pipeline ω RawVideoEngine φ ρ) (codec : SharedCodec)
    : (p.opened codec).core
        = { (p.readied codec).core with
            engine := some { params := some (.ofSize codec.params.width codec.params.height) } } := rfl

theorem core_opened_of_fresh (p : Pipeline ω RawVideoEngine φ ρ) (codec : SharedCodec)
    (hsegments : p.segments = {})
    : (p.opened codec).core
        = { p.core with
            codec
            engine := some { params := some (.ofSize codec.params.width codec.params.height) }
            ready := none
            pending := none
            segments := {}
            params := {}
            startCut := none } := by
  rw [core_opened, core_readied, hsegments]
  rfl

theorem openDecoder_of_ok (hdrivers : p.drivers = defaultDrivers) {codec : SharedCodec}
    (hok : (p.openDecoder codec).1 = .ok ())
    : p.openDecoder codec = (.ok (), p.opened codec) := by
  cases hopens : p.options.opens codec.params with
  | false =>
    rcases openDecoder_of_not_opens hdrivers hopens with ⟨reason, hfailed, -⟩
    rw [hok] at hfailed
    cases hfailed
  | true => exact openDecoder_of_opens hdrivers hopens

theorem core_resetSegment {e : RawVideoEngine} (hengine : p.engine = some e)
    : p.resetSegment.core
        = { p.core with
            engine := some { e with queue := [], draining := false }
            ready := none
            pending := none
            params := {}
            startCut := none } := by
  have hcommand : (p.command .reset).2 = p.withEngine { e with queue := [], draining := false } := by
    unfold command
    rw [hengine]
    rfl
  unfold resetSegment
  rw [hcommand]
  rfl

theorem core_entered (p : Pipeline ω RawVideoEngine φ ρ) (packet : Packet) (reinit : Bool)
    : (p.entered packet reinit).core
        = { p.core with
            pending := some packet
            segments := p.segments.completeSwitch packet.bounds } := rfl

theorem switchSegment_of_canStart {e : RawVideoEngine} (hengine : p.engine = some e)
    (hparams : e.params = some (.ofSize p.codec.params.width p.codec.params.height))
    (hdrivers : p.drivers = defaultDrivers) {packet : Packet}
    (hqueued : p.segments.queued = some packet) (hstart : packet.canStart p.options p.codec)
    : p.switchSegment.status = .again
        ∧ ∃ e', Idle e' (packet.codecFrom p.codec) ∧ p.switchSegment.core
            = { p.core with
                codec := packet.codecFrom p.codec
                engine := some e'
                ready := none
                pending := some packet
                segments := { bounds := packet.bounds }
                params := {}
                startCut := none } := by
  unfold Packet.canStart at hstart
  unfold Packet.codecFrom
  cases hkind : SegmentTracker.switchKind packet p.codec with
  | «continue» =>
    have hreset := core_resetSegment (p := p.switching packet) hengine
    have hsegments := congrArg Core.segments hreset
    rw [switchSegment_of_continue p hqueued hkind]
    refine ⟨rfl, { e with queue := [], draining := false }, ⟨rfl, rfl, hparams⟩, ?_⟩
    rw [core_entered, hreset, show (p.switching packet).resetSegment.segments = _ from hsegments]
    rfl
  | reinit codec =>
    rw [hkind] at hstart
    have hopen := openDecoder_of_opens (p := p.switching packet) hdrivers hstart
    have hcore := core_opened (p.switching packet) codec
    rw [core_readied] at hcore
    have hsegments := congrArg Core.segments hcore
    rw [switchSegment_of_reinit p hqueued hkind, hopen]
    refine ⟨rfl, { params := some (.ofSize codec.params.width codec.params.height) },
      ⟨rfl, rfl, rfl⟩, ?_⟩
    dsimp only
    rw [core_entered, hcore, show ((p.switching packet).opened codec).segments = _ from hsegments]
    rfl

theorem switchSegment_of_not_canStart (hdrivers : p.drivers = defaultDrivers) {packet : Packet}
    (hqueued : p.segments.queued = some packet) (hstart : packet.canStart p.options p.codec = false)
    : p.switchSegment.status = .ended ∧ p.switchSegment.ready = none := by
  unfold Packet.canStart at hstart
  cases hkind : SegmentTracker.switchKind packet p.codec with
  | «continue» =>
    rw [hkind] at hstart
    cases hstart
  | reinit codec =>
    rw [hkind] at hstart
    have hopen := openDecoder_of_not_opens (p := p.switching packet) hdrivers hstart
    have houtline := outline_openDecoder (.nothing ω RawVideoEngine) (p.switching packet) codec
    have hready := congrArg Outline.ready houtline
    rw [switchSegment_of_reinit p hqueued hkind]
    rcases hresult : (p.switching packet).openDecoder codec with ⟨result, q⟩
    rw [hresult] at hopen hready
    rcases hopen with ⟨reason, rfl, -⟩
    exact ⟨rfl, hready⟩

section Work

variable [PacketFeed φ] [PacketRecorder ρ] {e : RawVideoEngine} {feed : φ}

theorem doWork_of_starting (hcalm : p.Calm e) {packet : Packet}
    (hincoming : p.incoming = (.item packet, feed)) (hnew : p.startsSegment packet = true)
    : ∃ (q : Pipeline ω RawVideoEngine φ ρ) (e' : RawVideoEngine),
        p.doWork = q.switchSegment ∧ e'.params = e.params
          ∧ q.core
            = { p.core with
                engine := some e'
                feed
                pending := none
                segments := p.segments.queue packet } := by
  rcases doWork_of_calm hcalm with ⟨q, -, hcore, hcalm', hwork⟩
  let r := q.withInput feed (some packet)
  let held : Pipeline ω RawVideoEngine φ ρ :=
    { r.say (.newSegment packet.anyTime) with pending := none, segments := r.segments.queue packet }
  have hcore' : r.core = { p.core with feed, pending := some packet } := by
    rw [← hcore]
    rfl
  have hfed : q.feedPacket = held.sendPending e := by
    rw [feedPacket_of_running hcalm'.running, fillPending_eq hcalm'.queued, incoming_of_core hcore,
      hincoming]
    dsimp only
    rw [holdNewSegment_of_new r rfl ((startsSegment_of_core hcore').trans hnew)]
  have hrunning : held.Running e :=
    ⟨hcalm'.engine, hcalm'.ready, hcalm'.running.params⟩
  rcases readFrame_of_sent hrunning hcalm.idle.queue rfl
    with ⟨hstatus, s, e', hread, -, hparams, hsent⟩
  have hqueued : s.segments.queued = some packet := congrArg (·.segments.queued) hsent
  refine ⟨s, e', ?_, hparams, ?_⟩
  . rw [hwork, hfed, hstatus, if_neg (by decide), hread, endSegment_of_queued s hqueued]
  . rw [hsent]
    change { r.core with engine := some e', pending := none, segments := r.segments.queue packet } = _
    rw [hcore', show r.segments = p.segments from congrArg Core.segments hcore']

theorem doWork_of_new (hcalm : p.Calm e) (hdrivers : p.drivers = defaultDrivers) {packet : Packet}
    (hincoming : p.incoming = (.item packet, feed)) (hnew : p.startsSegment packet = true)
    (hstart : packet.canStart p.options p.codec)
    : p.doWork.status = .again
        ∧ ∃ e', Idle e' (packet.codecFrom p.codec) ∧ p.doWork.core
            = { p.core with
                codec := packet.codecFrom p.codec
                engine := some e'
                feed
                ready := none
                pending := some packet
                segments := { bounds := packet.bounds }
                params := {}
                startCut := none } := by
  rcases doWork_of_starting hcalm hincoming hnew with ⟨q, e', hwork, hparams, hcore⟩
  have hcodec : q.codec = p.codec := congrArg Core.codec hcore
  have hoptions : q.options = p.options := congrArg Core.options hcore
  have hparams' : e'.params = some (.ofSize q.codec.params.width q.codec.params.height) := by
    rw [hcodec, hparams]
    exact hcalm.idle.params
  rw [← hcodec, ← hoptions] at hstart
  rcases switchSegment_of_canStart (congrArg Core.engine hcore) hparams'
    ((congrArg Core.drivers hcore).trans hdrivers) (congrArg (·.segments.queued) hcore) hstart
    with ⟨hagain, e'', hidle, hswitched⟩
  rw [hcodec] at hidle hswitched
  rw [hwork]
  refine ⟨hagain, e'', hidle, hswitched.trans ?_⟩
  rw [hcore]

theorem doWork_of_failing (hcalm : p.Calm e) (hdrivers : p.drivers = defaultDrivers)
    {packet : Packet} (hincoming : p.incoming = (.item packet, feed))
    (hnew : p.startsSegment packet = true) (hstart : packet.canStart p.options p.codec = false)
    : p.doWork.status = .ended ∧ p.doWork.ready = none := by
  rcases doWork_of_starting hcalm hincoming hnew with ⟨q, e', hwork, -, hcore⟩
  rw [← show q.codec = p.codec from congrArg Core.codec hcore,
    ← show q.options = p.options from congrArg Core.options hcore] at hstart
  rw [hwork]
  exact switchSegment_of_not_canStart ((congrArg Core.drivers hcore).trans hdrivers)
    (congrArg (·.segments.queued) hcore) hstart

end Work

end Pipeline
end DecodePipeline
