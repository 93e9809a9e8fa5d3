import DecodePipeline.Proofs.Pipeline.Reading
import DecodePipeline.Proofs.Playback.Stream

/-!
This module contains when the loop that drives a pipeline with uncompressed video comes to an end. A
packet takes at most two rounds, one that starts its segment and one that uses it up, unless the bounds
of its segment are not equal to themselves: such a packet starts its segment again and again.
-/

namespace DecodePipeline

def PacketFeed.Ends {φ : Type} [PacketFeed φ] : φ → List Packet → Prop
  | feed, [] => (tryRead feed).1 = .ended
  | feed, packet :: rest => (tryRead feed).1 = .item packet ∧ Ends (tryRead feed).2 rest

theorem PacketChannel.ends_of_senders {channel : PacketChannel} {queue : List Packet}
    (hqueue : channel.packets.queue = queue) (hsenders : channel.packets.senders = 0)
    : PacketFeed.Ends channel queue := by
  induction queue generalizing channel with
  | nil =>
    unfold PacketFeed.Ends
    rw [tryRead_of_nil hqueue, hsenders]
    rfl
  | cons packet queue ih =>
    unfold PacketFeed.Ends
    rw [tryRead_of_cons hqueue]
    exact ⟨rfl, ih rfl hsenders⟩

instance (bounds : SegmentBounds) : Decidable bounds.Proper := inferInstanceAs (Decidable (_ ∧ _))

theorem Timestamp.beq_left {a b : Option Timestamp} (heq : a == b) : a == a := by
  cases a with
  | none => rfl
  | some a =>
    cases b with
    | none => cases heq
    | some b =>
      rcases Timestamp.beq_iff.mp heq with ⟨n, ha, -⟩
      exact Timestamp.beq_iff.mpr ⟨n, ha, ha⟩

/--
Reading the packets comes to an end: a packet with bounds that are not equal to themselves comes only
after a segment that has no decoder, if there is one at all.
-/
def DecoderOptions.readsToEnd (options : DecoderOptions) : SharedCodec → List Packet → Bool
  | _, [] => true
  | active, x :: rest =>
    if x.canStart options active then
      decide x.bounds.Proper && options.readsToEnd (x.codecFrom active) rest
    else true

theorem DecoderOptions.readsToEnd_of_proper (options : DecoderOptions) (active : SharedCodec)
    {packets : List Packet} (hproper : ∀ x ∈ packets, x.bounds.Proper)
    : options.readsToEnd active packets = true := by
  induction packets generalizing active with
  | nil => rfl
  | cons x rest ih =>
    rcases List.forall_mem_cons.mp hproper with ⟨hx, hrest⟩
    unfold readsToEnd
    rw [decide_eq_true hx, ih (x.codecFrom active) hrest]
    split <;> rfl

namespace Pipeline

variable {ω φ ρ : Type} {p : Pipeline ω RawVideoEngine φ ρ} {e : RawVideoEngine}
  {packets : List Packet}

theorem proper_of_home (hqueued : p.segments.queued = none) {x : Packet}
    (hhome : p.startsSegment x = false)
    : x.bounds.Proper ∧ SegmentTracker.switchKind x p.codec = .continue := by
  rcases (startsSegment_eq_false_iff hqueued).mp hhome with hsegment | ⟨hstart, hstop, hkind⟩
  . unfold Packet.bounds SegmentTracker.switchKind Packet.codec
    rw [hsegment]
    exact ⟨⟨rfl, rfl⟩, rfl⟩
  . exact ⟨⟨Timestamp.beq_left hstart, Timestamp.beq_left hstop⟩, hkind⟩

theorem readsToEnd_of_home (hqueued : p.segments.queued = none) {x : Packet}
    (hhome : p.startsSegment x = false) (rest : List Packet)
    : p.options.readsToEnd p.codec (x :: rest) = p.options.readsToEnd p.codec rest := by
  rcases proper_of_home hqueued hhome with ⟨hproper, hkind⟩
  rw [DecoderOptions.readsToEnd]
  unfold Packet.canStart Packet.codecFrom
  rw [hkind, decide_eq_true hproper]
  rfl

theorem readsToEnd_of_new {options : DecoderOptions} {active : SharedCodec} {x : Packet}
    (hstart : x.canStart options active) (rest : List Packet)
    : options.readsToEnd (x.codecFrom active) (x :: rest) = options.readsToEnd active (x :: rest) := by
  have hkind := x.switchKind_codecFrom active
  have hagain : x.canStart options (x.codecFrom active) = true := by
    unfold Packet.canStart
    rw [hkind]
  have hsame : x.codecFrom (x.codecFrom active) = x.codecFrom active := by
    rw [Packet.codecFrom, hkind]
  rw [DecoderOptions.readsToEnd, DecoderOptions.readsToEnd, hagain, hstart, hsame]

def cost (p : Pipeline ω RawVideoEngine φ ρ) : List Packet → Nat
  | [] => 0
  | x :: rest => 2 * rest.length + if p.startsSegment x then 2 else 1

theorem cost_le (p : Pipeline ω RawVideoEngine φ ρ) (packets : List Packet)
    : p.cost packets ≤ 2 * packets.length := by
  cases packets with
  | nil => exact Nat.le_refl 0
  | cons x rest =>
    rw [cost, List.length_cons]
    split
    . omega
    . omega

section Coming

variable [PacketFeed φ]

def Coming (p : Pipeline ω RawVideoEngine φ ρ) : List Packet → Prop
  | [] => p.incoming.1 = .ended
  | x :: rest => p.incoming.1 = .item x ∧ PacketFeed.Ends p.incoming.2 rest

theorem coming_of_pending_none (hpending : p.pending = none) (hends : PacketFeed.Ends p.feed packets)
    : p.Coming packets := by
  unfold Coming
  rw [incoming_of_none hpending]
  cases packets with
  | nil => exact hends
  | cons x rest => exact hends

theorem coming_of_pending {x : Packet} (hpending : p.pending = some x)
    (hends : PacketFeed.Ends p.feed packets)
    : p.Coming (x :: packets) := by
  unfold Coming
  rw [incoming_of_some hpending]
  exact ⟨rfl, hends⟩

structure Expects (p : Pipeline ω RawVideoEngine φ ρ) (packets : List Packet) : Prop where
  calm : ∃ e, p.Calm e
  drivers : p.drivers = defaultDrivers
  coming : p.Coming packets

theorem expects_openWith {codec : SharedCodec} {feed : φ} {shared : ω} {options : DecoderOptions}
    {now : UInt64}
    (hopen : openWith codec defaultDrivers feed shared options now = (.ok (), p))
    (hends : PacketFeed.Ends feed packets) (framedrop : Bool) (start : Option Timestamp)
    : ((p.setFramedrop framedrop).setStart start).Expects packets
        ∧ p.options = options ∧ p.codec = codec := by
  let created : Pipeline ω RawVideoEngine φ ρ := create codec defaultDrivers feed shared options now
  have hopened := openDecoder_of_ok (p := created) rfl (congrArg Prod.fst hopen)
  have hp : p = created.opened codec := congrArg Prod.snd (hopen.symm.trans hopened)
  have hcore := core_opened_of_fresh created codec rfl
  rw [← hp] at hcore
  simp only [core, Core.mk.injEq] at hcore
  rcases hcore with ⟨hcodec, hdrivers, hoptions, hfeed, hengine, hready, hpending, hsegments, -, -⟩
  refine ⟨⟨⟨_, hengine, hready, ⟨rfl, rfl, ?_⟩, ?_⟩, hdrivers, ?_⟩, hoptions, hcodec⟩
  . exact congrArg (fun codec : SharedCodec =>
      some (ImageParams.ofSize codec.params.width codec.params.height)) hcodec.symm
  . exact congrArg SegmentTracker.queued hsegments
  . apply coming_of_pending_none hpending
    rw [← show p.feed = feed from hfeed] at hends
    exact hends

structure Advances (p : Pipeline ω RawVideoEngine φ ρ) (packets : List Packet)
    (q : Pipeline ω RawVideoEngine φ ρ) (rest : List Packet) : Prop where
  expects : q.Expects rest
  readsToEnd : q.options.readsToEnd q.codec rest = p.options.readsToEnd p.codec packets
  cost : p.options.readsToEnd p.codec packets = true → q.cost rest < p.cost packets

end Coming

section Rounds

variable [PacketFeed φ] [PacketRecorder ρ] {feed : φ}

theorem doWork_of_used (hcalm : p.Calm e) {x : Packet} (hincoming : p.incoming = (.item x, feed))
    (hhome : p.startsSegment x = false)
    : p.doWork.status = (if p.doWork.ready.isSome then .ready else .again)
        ∧ ∃ e' cache, Idle e' p.codec ∧ p.doWork.getFrame.2.2.core
            = { p.core with engine := some e', feed, pending := none, params := cache } := by
  rcases doWork_of_same hcalm hincoming hhome with ⟨q, hcore, hwork⟩
  have hpending : q.pending = some x := congrArg Core.pending hcore
  rcases sendPending_of_pending hcalm.idle.params hpending hcalm.idle.queue with ⟨hsent, -⟩
  rw [hwork]
  generalize q.sendPending e = r at *
  rw [hcore] at hsent
  have hrunning := hcalm.running.update hsent rfl
  have hqueued : r.segments.queued = none :=
    (congrArg (·.segments.queued) hsent).trans hcalm.queued
  let engine := { e with framedrop := q.pendingFrameDrop, queue := [], draining := false }
  cases hdrop : q.pendingFrameDrop == .hard with
  | true =>
    rw [hdrop] at hsent hrunning
    rcases core_readFrame_of_idle hrunning rfl rfl with ⟨hread, hagain⟩
    have hready : r.readFrame.ready = none := (congrArg Core.ready hread).trans hrunning.ready
    rw [getFrame_of_none hready hagain (by decide), hagain, hready]
    exact ⟨rfl, engine, p.params, ⟨rfl, rfl, hcalm.idle.params⟩, hread.trans hsent⟩
  | false =>
    rw [hdrop] at hsent hrunning
    rw [readFrame_of_frame hrunning rfl]
    rcases offer_of_queued_none (p := r.withEngine engine) rfl hrunning.ready hqueued _
      with ⟨cache, htaken, hstatus⟩
    refine ⟨hstatus, engine, cache, ⟨rfl, rfl, hcalm.idle.params⟩, htaken.trans ?_⟩
    change { r.core with engine := some engine, params := cache } = _
    rw [hsent]

theorem Expects.consume {x : Packet} {rest : List Packet} (hexpects : p.Expects (x :: rest))
    (hhome : p.startsSegment x = false)
    : p.doWork.status = (if p.doWork.ready.isSome then .ready else .again)
        ∧ p.Advances (x :: rest) p.doWork.getFrame.2.2 rest := by
  rcases hexpects.calm with ⟨e, hcalm⟩
  rcases hexpects.coming with ⟨hitem, hends⟩
  have hincoming : p.incoming = (.item x, p.incoming.2) := Prod.ext hitem rfl
  rcases doWork_of_used hcalm hincoming hhome with ⟨hstatus, e', cache, hidle, hcore⟩
  generalize p.doWork.getFrame.2.2 = q at *
  have hcodec : q.codec = p.codec := congrArg Core.codec hcore
  have hoptions : q.options = p.options := congrArg Core.options hcore
  have hready : q.ready = none := (congrArg Core.ready hcore).trans hcalm.ready
  have hqueued : q.segments.queued = none := (congrArg (·.segments.queued) hcore).trans hcalm.queued
  refine ⟨hstatus, ⟨⟨e', congrArg Core.engine hcore, hready, ?_, hqueued⟩, ?_, ?_⟩, ?_, fun _ => ?_⟩
  . rw [hcodec]
    exact hidle
  . exact (congrArg Core.drivers hcore).trans hexpects.drivers
  . apply coming_of_pending_none (congrArg Core.pending hcore)
    rw [show q.feed = p.incoming.2 from congrArg Core.feed hcore]
    exact hends
  . rw [hcodec, hoptions, readsToEnd_of_home hcalm.queued hhome]
  . have hleft := q.cost_le rest
    have hcost : p.cost (x :: rest) = 2 * rest.length + 1 := by
      rw [cost, hhome]
      rfl
    omega

theorem Expects.advance {x : Packet} {rest : List Packet} (hexpects : p.Expects (x :: rest))
    (hnew : p.startsSegment x = true) (hstart : x.canStart p.options p.codec)
    : p.doWork.ready = none ∧ p.doWork.status = .again
        ∧ p.Advances (x :: rest) p.doWork (x :: rest) := by
  rcases hexpects.calm with ⟨e, hcalm⟩
  rcases hexpects.coming with ⟨hitem, hends⟩
  have hincoming : p.incoming = (.item x, p.incoming.2) := Prod.ext hitem rfl
  rcases doWork_of_new hcalm hexpects.drivers hincoming hnew hstart with ⟨hstatus, e', hidle, hcore⟩
  generalize p.doWork = q at *
  have hcodec : q.codec = x.codecFrom p.codec := congrArg Core.codec hcore
  have hoptions : q.options = p.options := congrArg Core.options hcore
  have hready : q.ready = none := congrArg Core.ready hcore
  have hqueued : q.segments.queued = none := congrArg (·.segments.queued) hcore
  have hbounds : q.segments.bounds = x.bounds := congrArg (·.segments.bounds) hcore
  refine ⟨hready, hstatus, ⟨⟨e', congrArg Core.engine hcore, hready, ?_, hqueued⟩, ?_, ?_⟩, ?_,
    fun hreads => ?_⟩
  . rw [hcodec]
    exact hidle
  . exact (congrArg Core.drivers hcore).trans hexpects.drivers
  . apply coming_of_pending (congrArg Core.pending hcore)
    rw [show q.feed = p.incoming.2 from congrArg Core.feed hcore]
    exact hends
  . rw [hcodec, hoptions, readsToEnd_of_new hstart]
  . have hhome : q.startsSegment x = false := by
      unfold DecoderOptions.readsToEnd at hreads
      rw [if_pos hstart, Bool.and_eq_true] at hreads
      apply home_of_proper hqueued hbounds (decide_eq_true_eq.mp hreads.1)
      rw [hcodec]
      exact x.switchKind_codecFrom p.codec
    rw [cost, cost, hhome, hnew]
    exact Nat.lt_succ_self _

theorem Expects.round (hexpects : p.Expects packets)
    : p.doWork.ready = none ∧ p.doWork.status = .ended
          ∧ p.options.readsToEnd p.codec packets = true
        ∨ p.doWork.status = (if p.doWork.ready.isSome then .ready else .again)
          ∧ ∃ rest, p.Advances packets p.doWork.getFrame.2.2 rest := by
  rcases hexpects.calm with ⟨e, hcalm⟩
  cases packets with
  | nil =>
    have hincoming : p.incoming = (.ended, p.incoming.2) := Prod.ext hexpects.coming rfl
    rcases doWork_of_ended hcalm hincoming with ⟨hstatus, e', hcore⟩
    exact Or.inl ⟨(congrArg Core.ready hcore).trans hcalm.ready, hstatus, rfl⟩
  | cons x rest =>
    cases hnew : p.startsSegment x with
    | false =>
      rcases hexpects.consume hnew with ⟨hstatus, hadvances⟩
      exact Or.inr ⟨hstatus, rest, hadvances⟩
    | true =>
      cases hstart : x.canStart p.options p.codec with
      | false =>
        have hincoming : p.incoming = (.item x, p.incoming.2) := Prod.ext hexpects.coming.1 rfl
        rcases doWork_of_failing hcalm hexpects.drivers hincoming hnew hstart
          with ⟨hstatus, hready⟩
        refine Or.inl ⟨hready, hstatus, ?_⟩
        rw [DecoderOptions.readsToEnd, hstart]
        rfl
      | true =>
        rcases hexpects.advance hnew hstart with ⟨hready, hstatus, hadvances⟩
        refine Or.inr ⟨?_, x :: rest, ?_⟩
        . rw [hready]
          exact hstatus
        . rw [getFrame_of_none hready hstatus (by decide)]
          exact hadvances

section Runs

variable {d : Drive ω RawVideoEngine φ ρ}

theorem go_of_ended (hready : d.pipeline.doWork.ready = none)
    (hstatus : d.pipeline.doWork.status = .ended) (rounds : Nat)
    : drive.go (rounds + 1) d
        = { d with pipeline := d.pipeline.doWork, rounds := d.rounds + 1, last := .ended } := by
  rw [drive.go, getFrame_of_none hready hstatus (by decide), hstatus]
  rfl

theorem go_of_going
    (hstatus : d.pipeline.doWork.status
      = if d.pipeline.doWork.ready.isSome then .ready else .again) (rounds : Nat)
    : ∃ d' : Drive ω RawVideoEngine φ ρ,
        d'.pipeline = d.pipeline.doWork.getFrame.2.2 ∧ d'.rounds = d.rounds + 1
          ∧ d'.last ≠ .ended ∧ drive.go (rounds + 1) d = drive.go rounds d' := by
  rw [drive.go]
  cases hready : d.pipeline.doWork.ready with
  | none =>
    have hagain : d.pipeline.doWork.status = .again := by rw [hstatus, hready]; rfl
    rw [getFrame_of_none hready hagain (by decide), hagain]
    exact ⟨_, rfl, rfl, Status.noConfusion, rfl⟩
  | some frame =>
    have hframe : d.pipeline.doWork.status = .ready := by rw [hstatus, hready]; rfl
    unfold getFrame
    rw [hready, hframe]
    exact ⟨_, rfl, rfl, Status.noConfusion, rfl⟩

theorem Expects.go_of_endless (hexpects : d.pipeline.Expects packets) (hlast : d.last ≠ .ended)
    (hreads : d.pipeline.options.readsToEnd d.pipeline.codec packets = false) (rounds : Nat)
    : (drive.go rounds d).last ≠ .ended ∧ (drive.go rounds d).rounds = d.rounds + rounds := by
  induction rounds generalizing d packets with
  | zero => exact ⟨hlast, rfl⟩
  | succ rounds ih =>
    rcases hexpects.round with ⟨-, -, hends⟩ | ⟨hstatus, rest, hadvances⟩
    . rw [hends] at hreads
      cases hreads
    . rcases go_of_going hstatus rounds with ⟨d', hpipeline, hrounds, hlast', hgo⟩
      rw [← hpipeline] at hadvances
      rcases ih hadvances.expects hlast' (hadvances.readsToEnd.trans hreads) with ⟨hleft, hcount⟩
      rw [hgo]
      refine ⟨hleft, hcount.trans ?_⟩
      omega

theorem Expects.go_of_readsToEnd (hexpects : d.pipeline.Expects packets)
    (hreads : d.pipeline.options.readsToEnd d.pipeline.codec packets = true) {rounds : Nat}
    (hrounds : d.pipeline.cost packets < rounds)
    : (drive.go rounds d).last = .ended
        ∧ (drive.go rounds d).rounds ≤ d.rounds + d.pipeline.cost packets + 1 := by
  induction rounds generalizing d packets with
  | zero => omega
  | succ rounds ih =>
    rcases hexpects.round with ⟨hready, hstatus, -⟩ | ⟨hstatus, rest, hadvances⟩
    . rw [go_of_ended hready hstatus]
      exact ⟨rfl, by dsimp only; omega⟩
    . have hcost := hadvances.cost hreads
      rcases go_of_going hstatus rounds with ⟨d', hpipeline, hcount, -, hgo⟩
      rw [← hpipeline] at hadvances hcost
      have hleft : d'.pipeline.cost rest < rounds := by omega
      rcases ih hadvances.expects (hadvances.readsToEnd.trans hreads) hleft with ⟨hended, hbound⟩
      rw [hgo]
      refine ⟨hended, Nat.le_trans hbound ?_⟩
      omega

end Runs

/--
The loop ends within two rounds for each packet and one for the end of the feed if reading the packets
comes to an end, and never otherwise. Bounds that are numbers or missing always let it end.
-/
theorem drive_ends_iff_readsToEnd {codec : SharedCodec} {shared : ω} {options : DecoderOptions}
    {now : UInt64} (hopen : openWith codec defaultDrivers feed shared options now = (.ok (), p))
    (hends : PacketFeed.Ends feed packets) (framedrop : Bool) (start : Option Timestamp)
    : let driven := ((p.setFramedrop framedrop).setStart start).drive
      ((∀ x ∈ packets, x.bounds.Proper) → options.readsToEnd codec packets = true)
        ∧ (options.readsToEnd codec packets = true →
          ∀ rounds, 2 * packets.length < rounds →
            (driven rounds).last = .ended ∧ (driven rounds).rounds ≤ 2 * packets.length + 1)
        ∧ (options.readsToEnd codec packets = false →
          ∀ rounds, (driven rounds).last ≠ .ended ∧ (driven rounds).rounds = rounds) := by
  rcases expects_openWith hopen hends framedrop start with ⟨hexpects, rfl, rfl⟩
  let d : Drive ω RawVideoEngine φ ρ := { pipeline := (p.setFramedrop framedrop).setStart start }
  have hcost := d.pipeline.cost_le packets
  refine ⟨p.options.readsToEnd_of_proper p.codec, ?_, ?_⟩
  . intro hreads rounds hrounds
    rcases Expects.go_of_readsToEnd (d := d) hexpects hreads (Nat.lt_of_le_of_lt hcost hrounds)
      with ⟨hended, hbound⟩
    refine ⟨hended, Nat.le_trans hbound ?_⟩
    dsimp only [d] at hcost ⊢
    omega
  . intro hreads rounds
    rcases Expects.go_of_endless (d := d) hexpects Status.noConfusion hreads rounds
      with ⟨hgoing, hcount⟩
    exact ⟨hgoing, hcount.trans (Nat.zero_add rounds)⟩

end Rounds

def sampleStream (packets : List Packet) : Pipeline Unit RawVideoEngine PacketChannel Collection :=
  (openWith sampleCodec defaultDrivers (sampleFeed packets).release () {} 0).2

theorem openWith_sampleStream (packets : List Packet)
    : openWith sampleCodec defaultDrivers (sampleFeed packets).release () {} 0
        = (.ok (), sampleStream packets) :=
  Prod.ext (congrArg Prod.fst (openDecoder_of_opens rfl (by rfl))) rfl

theorem ends_sampleFeed (packets : List Packet)
    : PacketFeed.Ends (sampleFeed packets).release packets :=
  PacketChannel.ends_of_senders rfl rfl

theorem sample_drive_ends
    : let driven := (((sampleStream [samplePacket]).setFramedrop true).setStart (some ⟨0.25⟩)).drive
      ∀ rounds, 2 < rounds → (driven rounds).last = .ended ∧ (driven rounds).rounds ≤ 3 := by
  have hdrive := drive_ends_iff_readsToEnd (openWith_sampleStream [samplePacket])
    (ends_sampleFeed [samplePacket]) true (some ⟨0.25⟩)
  exact hdrive.2.1 (hdrive.1 (by decide +kernel))

def nanPacket : Packet :=
  { samplePacket with segment := some { bounds := { start := some ⟨0 / 0⟩ } } }

theorem nan_drive_endless
    : ¬∃ rounds, ((sampleStream [nanPacket]).drive rounds).last = .ended := by
  rintro ⟨rounds, hended⟩
  rcases expects_openWith (openWith_sampleStream [nanPacket]) (ends_sampleFeed [nanPacket]) false none
    with ⟨hexpects, hoptions, hcodec⟩
  have hreads : (sampleStream [nanPacket]).options.readsToEnd (sampleStream [nanPacket]).codec [nanPacket]
      = false := by
    rw [hoptions, hcodec]
    decide +kernel
  exact (Expects.go_of_endless (d := { pipeline := sampleStream [nanPacket] }) hexpects
    Status.noConfusion hreads rounds).1 hended

end Pipeline
end DecodePipeline
