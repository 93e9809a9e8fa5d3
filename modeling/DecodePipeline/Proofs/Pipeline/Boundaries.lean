import DecodePipeline.Proofs.Pipeline.Observation
import DecodePipeline.Proofs.Pipeline.Stepping
import DecodePipeline.Proofs.Playback.Stream

/-!
This module contains the agreement of a pipeline with somebody who reads all its packets in order and
notes where segments start. The pipeline notices a start when it looks at the packet, and may start the
segment much later, but it starts each segment once and no other.
-/

namespace DecodePipeline

/-- What is known of the current segment, and for each start so far whether it brought another codec. -/
structure Survey where
  bounds : SegmentBounds := {}
  codec : SharedCodec
  starts : List Bool := []

namespace Survey

def differs (s : Survey) (label : SegmentLabel) : Bool := label.codec.any fun codec => !codec.same s.codec

def isBoundary (s : Survey) (label : SegmentLabel) : Bool :=
  label.bounds.start != s.bounds.start || label.bounds.stop != s.bounds.stop || s.differs label

def enter (s : Survey) (label : SegmentLabel) : Survey where
  bounds := label.bounds
  codec := if s.differs label then label.codec.getD s.codec else s.codec
  starts := s.starts ++ [s.differs label]

def note (s : Survey) (packet : Packet) : Survey :=
  match packet.segment with
  | none => s
  | some label => if s.isBoundary label then s.enter label else s

def of (codec : SharedCodec) (packets : List Packet) : Survey := packets.foldl note { codec }

theorem of_concat (codec : SharedCodec) (packets : List Packet) (packet : Packet)
    : of codec (packets ++ [packet]) = (of codec packets).note packet := by
  unfold of
  rw [List.foldl_concat]

theorem length_of_le (codec : SharedCodec) (packets : List Packet)
    : (of codec packets).starts.length ≤ packets.length := by
  induction packets using List.reverseRecOn with
  | nil => exact Nat.le_refl 0
  | append_singleton packets packet ih =>
    rw [of_concat, List.length_append, List.length_singleton]
    unfold note
    split
    . omega
    . split
      . unfold enter
        rw [List.length_append, List.length_singleton]
        omega
      . omega

structure Counts (s : Survey) (h : Health) : Prop where
  switches : h.segmentSwitches = .ofNat s.starts.length
  reinits : h.decoderReinits = .ofNat (s.starts.count true)

theorem Counts.of_eq {s : Survey} {h h' : Health} (hcounts : s.Counts h)
    (hswitches : h'.segmentSwitches = h.segmentSwitches)
    (hreinits : h'.decoderReinits = h.decoderReinits)
    : s.Counts h' := ⟨hswitches.trans hcounts.switches, hreinits.trans hcounts.reinits⟩

structure Describes (s : Survey) (t : SegmentTracker) (codec : SharedCodec) : Prop where
  bounds : t.bounds = s.bounds
  codec : codec = s.codec

section Describes

variable {s : Survey} {t : SegmentTracker} {codec : SharedCodec} {packet : Packet}

theorem Describes.isNewSegment (hdescribes : s.Describes t codec) (packet : Packet)
    : t.isNewSegment packet codec = packet.segment.any s.isBoundary := by
  unfold SegmentTracker.isNewSegment isBoundary differs SegmentTracker.keepsCodec
  rw [hdescribes.bounds, hdescribes.codec]
  cases packet.segment with
  | none => rfl
  | some label => cases hcodec : label.codec <;> simp [hcodec]

theorem Describes.note_of_same (hdescribes : s.Describes t codec)
    (hsame : t.isNewSegment packet codec = false)
    : s.note packet = s := by
  rw [hdescribes.isNewSegment] at hsame
  unfold note
  cases hlabel : packet.segment with
  | none => rfl
  | some label =>
    have hinside : s.isBoundary label = false := by simpa [hlabel] using hsame
    dsimp only
    rw [hinside]
    rfl

theorem Describes.note_of_new (hdescribes : s.Describes t codec)
    (hnew : t.isNewSegment packet codec = true)
    : ∃ label, packet.segment = some label ∧ s.note packet = s.enter label := by
  rw [hdescribes.isNewSegment] at hnew
  unfold note
  cases hlabel : packet.segment with
  | none => simp [hlabel] at hnew
  | some label =>
    have hboundary : s.isBoundary label = true := by simpa [hlabel] using hnew
    refine ⟨label, rfl, ?_⟩
    dsimp only
    rw [hboundary]
    rfl

theorem Describes.switchKind (hdescribes : s.Describes t codec) {label : SegmentLabel}
    (hlabel : packet.segment = some label)
    : SegmentTracker.switchKind packet codec
        = if s.differs label then .reinit (label.codec.getD s.codec) else .continue := by
  unfold SegmentTracker.switchKind differs Packet.codec
  rw [hlabel, hdescribes.codec]
  cases hcodec : label.codec with
  | none => simp [hcodec]
  | some other => by_cases hsame : other.same s.codec <;> simp [hcodec, hsame]

theorem Describes.note_of_continue (hdescribes : s.Describes t codec)
    (hnew : t.isNewSegment packet codec = true)
    (hkind : SegmentTracker.switchKind packet codec = .continue)
    : s.note packet = ⟨packet.bounds, codec, s.starts ++ [false]⟩ := by
  rcases hdescribes.note_of_new hnew with ⟨label, hlabel, hnote⟩
  rw [hdescribes.switchKind hlabel] at hkind
  split at hkind
  . cases hkind
  . next hsame => simp [hnote, enter, hsame, Packet.bounds, hlabel, hdescribes.codec]

theorem Describes.note_of_reinit (hdescribes : s.Describes t codec)
    (hnew : t.isNewSegment packet codec = true) {other : SharedCodec}
    (hkind : SegmentTracker.switchKind packet codec = .reinit other)
    : s.note packet = ⟨packet.bounds, other, s.starts ++ [true]⟩ := by
  rcases hdescribes.note_of_new hnew with ⟨label, hlabel, hnote⟩
  rw [hdescribes.switchKind hlabel] at hkind
  split at hkind
  . next hdiffers =>
    cases hkind
    simp [hnote, enter, hdiffers, Packet.bounds, hlabel]
  . cases hkind

end Describes

theorem Counts.enter {s : Survey} {h : Health} (hcounts : s.Counts h) (bounds : SegmentBounds)
    (codec : SharedCodec) (reinit : Bool)
    : Counts ⟨bounds, codec, s.starts ++ [reinit]⟩ (h.recordSegmentSwitch reinit) := by
  refine ⟨?_, ?_⟩
  . simp [Health.recordSegmentSwitch, hcounts.switches]
  . cases reinit <;> simp [Health.recordSegmentSwitch, hcounts.reinits]

end Survey

namespace SegmentTracker

variable {packet : Packet} {codec : SharedCodec}

theorem not_isNewSegment_of_entered (hproper : packet.bounds.Proper)
    (hkind : switchKind packet codec = .continue)
    : isNewSegment { bounds := packet.bounds } packet codec = false := by
  -- With bounds that do not equal themselves, a segment would start over and over.
  rcases hproper with ⟨hstart, hstop⟩
  unfold switchKind Packet.codec at hkind
  unfold isNewSegment keepsCodec
  cases hlabel : packet.segment with
  | none => rfl
  | some label =>
    have hbounds : packet.bounds = label.bounds := by simp [Packet.bounds, hlabel]
    rw [hbounds] at hstart hstop
    rw [hlabel] at hkind
    cases hcodec : label.codec <;> simp_all [bne]

theorem switchKind_of_reinit {other : SharedCodec} (hkind : switchKind packet codec = .reinit other)
    : switchKind packet other = .continue := by
  have hentered := packet.switchKind_codecFrom codec
  unfold Packet.codecFrom at hentered
  rw [hkind] at hentered
  exact hentered

end SegmentTracker

namespace Pipeline

variable {ω ε φ ρ : Type}

inductive Surveyed (first : SharedCodec) (p : Pipeline ω ε (ObservedFeed φ) ρ) : Prop where
  | settled (hattached : p.engine.isSome) (hqueued : p.segments.queued = none)
    (hphase : p.segments.phase = .none)
    (hdescribes : (Survey.of first p.feed.read).Describes p.segments p.codec)
    (hcounts : (Survey.of first p.feed.read).Counts p.health)
    (hhome : ∀ packet, p.pending = some packet → p.segments.isNewSegment packet p.codec = false)
  | holding {earlier : List Packet} {packet : Packet} (hattached : p.engine.isSome)
    (hqueued : p.segments.queued = some packet) (hphase : p.segments.phase = .queued)
    (hread : p.feed.read = earlier ++ [packet])
    (hdescribes : (Survey.of first earlier).Describes p.segments p.codec)
    (hcounts : (Survey.of first earlier).Counts p.health)
    (hnew : p.segments.isNewSegment packet p.codec = true) (hpending : p.pending = none)
  | failed {earlier : List Packet} {packet : Packet} (hdetached : p.engine = none)
    (hqueued : p.segments.queued = none) (hphase : p.segments.phase = .switching)
    (hread : p.feed.read = earlier ++ [packet])
    (hcounts : (Survey.of first earlier).Counts p.health)
    (hstarts : (Survey.of first p.feed.read).starts = (Survey.of first earlier).starts ++ [true])

structure SameSurvey (p q : Pipeline ω ε (ObservedFeed φ) ρ) : Prop where
  codec : q.codec = p.codec
  read : q.feed.read = p.feed.read
  attached : q.engine.isSome = p.engine.isSome
  pending : q.pending = p.pending ∨ q.pending = none
  segments : q.segments = p.segments
  switches : q.health.segmentSwitches = p.health.segmentSwitches
  reinits : q.health.decoderReinits = p.health.decoderReinits

variable {first : SharedCodec} {p q : Pipeline ω ε (ObservedFeed φ) ρ}

theorem Surveyed.of_same (hsurveyed : p.Surveyed first) (hsame : p.SameSurvey q)
    : q.Surveyed first := by
  rcases hsame with ⟨codec, read, attached, pending, segments, switches, reinits⟩
  cases hsurveyed with
  | settled hattached hqueued hphase hdescribes hcounts hhome =>
    rw [← read] at hdescribes hcounts
    rw [← segments] at hqueued hphase hhome hdescribes
    rw [← codec] at hdescribes hhome
    refine .settled (attached.trans hattached) hqueued hphase hdescribes
      (hcounts.of_eq switches reinits) ?_
    intro packet hpacket
    rcases pending with hkept | hnone
    . exact hhome packet (hkept.symm.trans hpacket)
    . simp [hnone] at hpacket
  | holding hattached hqueued hphase hread hdescribes hcounts hnew hpending =>
    rw [← segments] at hqueued hphase hnew hdescribes
    rw [← codec] at hdescribes hnew
    refine .holding (attached.trans hattached) hqueued hphase (read.trans hread) hdescribes
      (hcounts.of_eq switches reinits) hnew ?_
    rcases pending with hkept | hnone
    . exact hkept.trans hpending
    . exact hnone
  | failed hdetached hqueued hphase hread hcounts hstarts =>
    rw [← segments] at hqueued hphase
    rw [← read] at hstarts
    refine .failed ?_ hqueued hphase (read.trans hread) (hcounts.of_eq switches reinits) hstarts
    simpa [hdetached] using attached

theorem surveyed_of_entered {packet : Packet} {codec : SharedCodec} {earlier : List Packet}
    {reinit : Bool} {health : Health} (hattached : q.engine.isSome)
    (hsegments : q.segments = { bounds := packet.bounds }) (hcodec : q.codec = codec)
    (hpending : q.pending = some packet)
    (hsurvey : Survey.of first q.feed.read
      = ⟨packet.bounds, codec, (Survey.of first earlier).starts ++ [reinit]⟩)
    (hcounts : (Survey.of first earlier).Counts health)
    (hhealth : q.health = health.recordSegmentSwitch reinit) (hbounds : packet.bounds.Proper)
    (hkind : SegmentTracker.switchKind packet codec = .continue)
    : q.Surveyed first := by
  -- The packet that started the segment comes again, and belongs to it now.
  apply Surveyed.settled hattached
  . rw [hsegments]
  . rw [hsegments]
  . rw [hsurvey, hsegments, hcodec]
    exact ⟨rfl, rfl⟩
  . rw [hsurvey, hhealth]
    exact hcounts.enter _ _ reinit
  . rw [hpending, hsegments, hcodec]
    rintro _ ⟨⟩
    exact SegmentTracker.not_isNewSegment_of_entered hbounds hkind

theorem Surveyed.tally (hsurveyed : p.Surveyed first)
    : ∃ completed waiting, (Survey.of first p.feed.read).starts = completed ++ waiting
        ∧ waiting.length = (if p.segments.hasQueued then 1 else 0) + (if p.hasDecoder then 0 else 1)
        ∧ p.health.segmentSwitches = .ofNat completed.length
        ∧ p.health.decoderReinits = .ofNat (completed.count true) := by
  cases hsurveyed with
  | settled hattached hqueued _ _ hcounts =>
    refine ⟨_, [], (List.append_nil _).symm, ?_, hcounts.switches, hcounts.reinits⟩
    simp [SegmentTracker.hasQueued, hqueued, hasDecoder, hattached]
  | @holding earlier packet hattached hqueued _ hread hdescribes hcounts hnew =>
    rcases hdescribes.note_of_new hnew with ⟨label, -, hnote⟩
    refine ⟨(Survey.of first earlier).starts, [(Survey.of first earlier).differs label], ?_, ?_,
      hcounts.switches, hcounts.reinits⟩
    . rw [hread, Survey.of_concat, hnote]
      rfl
    . simp [SegmentTracker.hasQueued, hqueued, hasDecoder, hattached]
  | failed hdetached hqueued _ _ hcounts hstarts =>
    refine ⟨_, [true], hstarts, ?_, hcounts.switches, hcounts.reinits⟩
    simp [SegmentTracker.hasQueued, hqueued, hasDecoder, hdetached]

theorem Surveyed.failed_iff (hsurveyed : p.Surveyed first)
    : p.hasDecoder = false ↔ p.segments.phase = .switching := by
  unfold hasDecoder
  cases hsurveyed with
  | settled hattached _ hphase => simp [hattached, hphase]
  | holding hattached _ hphase => simp [hattached, hphase]
  | failed hdetached _ hphase => simp [hdetached, hphase]

section Filling

theorem Surveyed.holdNewSegment_of_home (hsurveyed : p.Surveyed first) (hattached : p.engine.isSome)
    : p.holdNewSegment = p := by
  cases hsurveyed with
  | settled _ _ _ _ _ hhome =>
    cases hpending : p.pending with
    | none => exact holdNewSegment_of_pending_none p hpending
    | some packet =>
      apply holdNewSegment_of_same p hpending
      simp [startsSegment, hhome packet hpending]
  | holding _ _ _ _ _ _ _ hpending => exact holdNewSegment_of_pending_none p hpending
  | failed hdetached => simp [hdetached] at hattached

variable [PacketFeed φ]

theorem Surveyed.fills {asked : Option (Poll Packet)} (hsurveyed : p.Surveyed first)
    (hattached : p.engine.isSome) (hfills : p.Fills asked q)
    : q.holdNewSegment.Surveyed first := by
  cases hfills with
  | held =>
    rw [hsurveyed.holdNewSegment_of_home hattached]
    exact hsurveyed
  | @ended feed hidle htry =>
    have hread : feed.read = p.feed.read := by
      rw [ObservedFeed.read_of_tryRead htry]
      exact List.append_nil _
    have hended : Surveyed first { p with feed } :=
      hsurveyed.of_same ⟨rfl, hread, rfl, .inl rfl, rfl, rfl, rfl⟩
    rw [hended.holdNewSegment_of_home hattached]
    exact hended
  | @item packet feed hidle htry =>
    rcases p.held_eq_nil.mp hidle with ⟨hpending, hnone⟩
    have hread : feed.read = p.feed.read ++ [packet] := ObservedFeed.read_of_tryRead htry
    cases hsurveyed with
    | holding _ hqueued => simp [hnone] at hqueued
    | failed hdetached => simp [hdetached] at hattached
    | settled _ hqueued hphase hdescribes hcounts =>
      cases hnew : p.segments.isNewSegment packet p.codec with
      | false =>
        have hstays : startsSegment { p with feed, pending := some packet } packet = false := by
          simp [startsSegment, hnew]
        have hsurvey : Survey.of first feed.read = Survey.of first p.feed.read := by
          rw [hread, Survey.of_concat]
          exact hdescribes.note_of_same hnew
        rw [holdNewSegment_of_same _ rfl hstays]
        refine .settled hattached hqueued hphase ?_ ?_ ?_
        . rw [hsurvey]
          exact hdescribes
        . rw [hsurvey]
          exact hcounts
        . rintro _ ⟨⟩
          exact hnew
      | true =>
        have hstarts : startsSegment { p with feed, pending := some packet } packet = true := by
          simp [startsSegment, SegmentTracker.hasQueued, hqueued, hnew]
        rw [holdNewSegment_of_new _ rfl hstarts]
        exact .holding hattached rfl rfl hread ⟨hdescribes.bounds, hdescribes.codec⟩ hcounts hnew rfl

end Filling

variable [Engine ω ε]

theorem SameSurvey.of_settles {frame settled : Frame} (hsettles : p.Settles q frame settled)
    : p.SameSurvey q := by
  rcases hsettles with ⟨houtline, ⟨synthesized, hhealth⟩, -, -⟩
  refine ⟨congrArg Outline.codec houtline, congrArg (·.feed.read) houtline,
    congrArg Outline.attached houtline, .inl (congrArg Outline.pending houtline),
    congrArg Outline.segments houtline, ?_, ?_⟩
  . rw [hhealth]
    rfl
  . rw [hhealth]
    rfl

theorem Surveyed.switchSegment (hsurveyed : p.Surveyed first)
    (hproper : ∀ packet ∈ p.feed.read, packet.bounds.Proper)
    : p.switchSegment.Surveyed first := by
  cases hsurveyed with
  | settled hattached hqueued hphase hdescribes hcounts hhome =>
    rw [switchSegment_of_queued_none p hqueued]
    exact .settled hattached hqueued hphase hdescribes hcounts hhome
  | failed hdetached hqueued hphase hread hcounts hstarts =>
    rw [switchSegment_of_queued_none p hqueued]
    exact .failed hdetached hqueued hphase hread hcounts hstarts
  | @holding earlier packet hattached hqueued hphase hread hdescribes hcounts hnew hpending =>
    have hbounds : packet.bounds.Proper := by
      apply hproper
      simp [hread]
    cases hkind : SegmentTracker.switchKind packet p.codec with
    | «continue» =>
      have hhealth := switchSegment_health_continue p hqueued hkind
      have houtline := outline_switchSegment_continue (.nothing ω ε) p hqueued hkind
      simp only [outline, Outline.mk.injEq] at houtline
      rcases houtline with ⟨hcodec, -, -, hfeed, hstill, -, -, hsent, hsegments, -⟩
      have hsurvey : Survey.of first p.switchSegment.feed.read
          = ⟨packet.bounds, p.codec, (Survey.of first earlier).starts ++ [false]⟩ := by
        rw [hfeed, hread, Survey.of_concat]
        exact hdescribes.note_of_continue hnew hkind
      exact surveyed_of_entered (hstill.trans hattached) hsegments hcodec hsent hsurvey hcounts hhealth
        hbounds hkind
    | reinit other =>
      have hhealth := switchSegment_health_reinit p hqueued hkind
      have houtline := outline_switchSegment_reinit (.nothing ω ε) p hqueued hkind
      simp only [outline, Outline.mk.injEq] at houtline
      rcases houtline with ⟨hcodec, -, -, hfeed, hstill, -, -, hsent, hsegments, -⟩
      have hsurvey : Survey.of first p.switchSegment.feed.read
          = ⟨packet.bounds, other, (Survey.of first earlier).starts ++ [true]⟩ := by
        rw [hfeed, hread, Survey.of_concat]
        exact hdescribes.note_of_reinit hnew hkind
      cases hok : ((p.switching packet).openDecoder other).1.isOk with
      | true =>
        rw [hok] at hstill hsent hsegments hhealth
        exact surveyed_of_entered hstill hsegments hcodec hsent hsurvey hcounts hhealth hbounds
          (SegmentTracker.switchKind_of_reinit hkind)
      | false =>
        rw [hok] at hstill hsegments hhealth
        have hstuck : p.switchSegment.feed.read = earlier ++ [packet] := by rw [hfeed, hread]
        refine .failed ?_ ?_ ?_ hstuck ?_ ?_
        . simpa using hstill
        . rw [hsegments]
          rfl
        . rw [hsegments]
          rfl
        . rw [hhealth]
          exact hcounts
        . rw [hsurvey]

theorem Reads.surveyed {answer : Received} (hreads : p.Reads answer q) (hsurveyed : p.Surveyed first)
    (hproper : ∀ packet ∈ p.feed.read, packet.bounds.Proper)
    : q.Surveyed first := by
  cases hreads with
  | stored hsettles | discarded hsettles =>
    exact (hsurveyed.of_same (.of_settles hsettles)).of_same ⟨rfl, rfl, rfl, .inl rfl, rfl, rfl, rfl⟩
  | @passed q frame settled hsettles =>
    have hread : q.feed.read = p.feed.read := congrArg (·.feed.read) hsettles.outline
    refine Surveyed.switchSegment ?_ ?_
    . exact (hsurveyed.of_same (.of_settles hsettles)).of_same
        ⟨rfl, rfl, rfl, .inl rfl, rfl, rfl, rfl⟩
    . rw [← hread] at hproper
      exact hproper
  | missed hhealth =>
    refine hsurveyed.of_same ⟨rfl, rfl, rfl, .inl rfl, rfl, ?_, ?_⟩
    . rcases hhealth with rfl | rfl <;> rfl
    . rcases hhealth with rfl | rfl <;> rfl
  | exhausted =>
    refine Surveyed.switchSegment ?_ hproper
    exact hsurveyed.of_same ⟨rfl, rfl, rfl, .inl rfl, rfl, rfl, rfl⟩

theorem Surveyed.receives (hsurveyed : p.Surveyed first)
    (hproper : ∀ packet ∈ p.feed.read, packet.bounds.Proper) (hreceives : p.Receives q)
    : q.Surveyed first := by
  rcases hreceives with ⟨engine, hengine, hready, hreads⟩
  apply hreads.surveyed
  . apply hsurveyed.of_same
    refine ⟨rfl, rfl, ?_, .inl rfl, rfl, rfl, rfl⟩
    rw [hengine]
    rfl
  . exact hproper

theorem surveyed_openObserved (codec : SharedCodec) (drivers : List (Driver ω ε)) (feed : φ)
    (shared : ω) (options : DecoderOptions) (now : UInt64)
    {p : Pipeline (ObservedShared ω) (ObservedEngine ε) (ObservedFeed φ) ρ}
    (hopen : openObserved codec drivers feed shared options now = (.ok (), p))
    : p.Surveyed codec := by
  let created : Pipeline (ObservedShared ω) (ObservedEngine ε) (ObservedFeed φ) ρ :=
    createObserved codec drivers feed shared options now
  have houtline := outline_openDecoder (.nothing _ _) created codec
  have hhealth := created.openDecoder_health codec
  rw [show created.openDecoder codec = (.ok (), p) from hopen] at houtline hhealth
  have hcodec : p.codec = codec := congrArg Outline.codec houtline
  have hread : p.feed.read = [] := congrArg (·.feed.read) houtline
  have hpending : p.pending = none := congrArg Outline.pending houtline
  have hsegments : p.segments = {} := congrArg Outline.segments houtline
  have hstarting : p.health = .starting now := hhealth
  apply Surveyed.settled
  . exact congrArg Outline.attached houtline
  . rw [hsegments]
  . rw [hsegments]
  . rw [hread, hsegments, hcodec]
    exact ⟨rfl, rfl⟩
  . rw [hread, hstarting]
    exact ⟨rfl, rfl⟩
  . intro packet hpacket
    simp [hpending] at hpacket

variable [PacketRecorder ρ]

theorem Surveyed.sends (hsurveyed : p.Surveyed first) (hattached : p.engine.isSome) (engine : ε)
    : (p.sendPending engine).Surveyed first := by
  have houtline := outline_sendPending (.nothing ω ε) p engine
  have hhealth := p.sendPending_health engine
  apply hsurveyed.of_same
  refine ⟨congrArg Outline.codec houtline, congrArg (·.feed.read) houtline,
    (congrArg Outline.attached houtline).trans hattached.symm, ?_,
    congrArg Outline.segments houtline, ?_, ?_⟩
  . have hpending : (p.sendPending engine).pending
        = if (p.sendReply engine p.pendingFrameDrop).answer then none else p.pending :=
      congrArg Outline.pending houtline
    rw [hpending]
    split
    . exact .inr rfl
    . exact .inl rfl
  . rw [hhealth]
    split
    . rfl
    . split <;> rfl
  . rw [hhealth]
    split
    . rfl
    . split <;> rfl

variable [PacketFeed φ]

theorem Works.read {asked : Option (Poll Packet)} (hworks : p.Works asked q)
    : ∃ more, q.feed.read = p.feed.read ++ more := by
  have hasks := hworks.asks
  cases asked with
  | none =>
    rw [show q.feed = p.feed from hasks]
    exact ⟨[], (List.append_nil _).symm⟩
  | some poll => exact ⟨_, ObservedFeed.read_of_tryRead hasks⟩

theorem Surveyed.works {asked : Option (Poll Packet)} (hsurveyed : p.Surveyed first)
    (hworks : p.Works asked q) (hproper : ∀ packet ∈ q.feed.read, packet.bounds.Proper)
    : q.Surveyed first := by
  have hearlier : ∀ packet ∈ p.feed.read, packet.bounds.Proper := by
    rcases hworks.read with ⟨more, hread⟩
    intro packet hpacket
    apply hproper
    rw [hread]
    exact List.mem_append_left more hpacket
  -- Both times that a step reads from the engine it may start the segment that is held back.
  cases hworks with
  | detached => exact hsurveyed.of_same ⟨rfl, rfl, rfl, .inl rfl, rfl, rfl, rfl⟩
  | kept => exact hsurveyed
  | stopped hreceives => exact hsurveyed.receives hearlier hreceives
  | @waited q feed hreceives _ _ htry =>
    have hread : feed.read = q.feed.read := by
      rw [ObservedFeed.read_of_tryRead htry]
      exact List.append_nil _
    exact (hsurveyed.receives hearlier hreceives).of_same ⟨rfl, hread, rfl, .inl rfl, rfl, rfl, rfl⟩
  | @fed asked q filled r engine hreceives hengine _ hfills hagain =>
    have hattached : q.engine.isSome := Option.isSome_of_eq_some hengine
    have hstill : filled.holdNewSegment.engine.isSome := by
      rcases hfills.holdNewSegment_eq with ⟨pending, queued, phase, journal, hhold⟩
      rw [hhold]
      exact hattached
    rw [hagain.sameSetting.feed] at hproper
    apply Surveyed.receives _ hproper hagain
    exact ((hsurveyed.receives hearlier hreceives).fills hattached hfills).sends hstill engine

theorem perform_read (p : Pipeline ω ε (ObservedFeed φ) ρ) (operation : Operation φ ρ)
    : ∃ more, (p.perform (operation.lift ObservedFeed.lift)).feed.read = p.feed.read ++ more := by
  cases operation with
  | work =>
    rcases p.doWork_works with ⟨asked, hworks⟩
    exact hworks.read
  | take =>
    have hread := congrArg (·.feed.read) (outline_getFrame (.nothing ω ε) p)
    exact ⟨[], hread.trans (List.append_nil _).symm⟩
  | reset =>
    have hread := congrArg (·.feed.read) (outline_reset (.nothing ω ε) p)
    exact ⟨[], hread.trans (List.append_nil _).symm⟩
  | openDecoder codec =>
    have hread := congrArg (·.feed.read) (outline_openDecoder (.nothing ω ε) p codec)
    exact ⟨[], hread.trans (List.append_nil _).symm⟩
  | setStart | setFramedrop | resetParams | attachRecorder | detachRecorder | refill | wait =>
    exact ⟨[], (List.append_nil _).symm⟩

theorem Surveyed.perform (hsurveyed : p.Surveyed first) (operation : Operation φ ρ)
    (hkeeps : operation.keepsStream)
    (hproper : ∀ packet ∈ (p.perform (operation.lift ObservedFeed.lift)).feed.read,
      packet.bounds.Proper)
    : (p.perform (operation.lift ObservedFeed.lift)).Surveyed first := by
  cases operation with
  | work =>
    rcases p.doWork_works with ⟨asked, hworks⟩
    exact hsurveyed.works hworks hproper
  | take =>
    have houtline := outline_getFrame (.nothing ω ε) p
    apply hsurveyed.of_same
    refine ⟨congrArg Outline.codec houtline, congrArg (·.feed.read) houtline,
      congrArg Outline.attached houtline, .inl (congrArg Outline.pending houtline),
      congrArg Outline.segments houtline, ?_, ?_⟩
    all_goals
      simp only [Operation.lift, Pipeline.perform]
      unfold Pipeline.getFrame
      cases p.ready <;> rfl
  | reset | openDecoder => exact hkeeps.elim
  | setStart | setFramedrop | resetParams | attachRecorder | detachRecorder | refill | wait =>
    exact hsurveyed.of_same ⟨rfl, rfl, rfl, .inl rfl, rfl, rfl, rfl⟩

theorem Surveyed.after (hsurveyed : p.Surveyed first) (operations : List (Operation φ ρ))
    (hkeeps : ∀ operation ∈ operations, operation.keepsStream)
    (hproper : ∀ packet ∈ (p.after (operations.map (·.lift ObservedFeed.lift))).feed.read,
      packet.bounds.Proper)
    : (p.after (operations.map (·.lift ObservedFeed.lift))).Surveyed first := by
  induction operations using List.reverseRecOn with
  | nil => exact hsurveyed
  | append_singleton operations operation ih =>
    rw [List.map_append, after_append] at hproper ⊢
    rcases perform_read (p.after (operations.map (·.lift ObservedFeed.lift))) operation
      with ⟨more, hread⟩
    refine Surveyed.perform ?_ operation (hkeeps operation (by simp)) hproper
    apply ih
    . intro earlier hearlier
      exact hkeeps earlier (List.mem_append_left _ hearlier)
    . intro packet hpacket
      apply hproper packet
      refine hread ▸ ?_
      exact List.mem_append_left more hpacket

/--
Whatever the engines and the feed do, a pipeline starts the segments that somebody finds who reads its
packets in order: each once, or it is about to, or it has lost its decoder at the last one. Bounds must
be numbers, but codecs may be anything.
-/
theorem one_switch_per_boundary (codec : SharedCodec) (drivers : List (Driver ω ε)) (feed : φ)
    (shared : ω) (options : DecoderOptions) (now : UInt64) {start : Pipeline ω ε φ ρ}
    (hopen : openWith codec drivers feed shared options now = (.ok (), start))
    : ∃ observed, openObserved codec drivers feed shared options now = (.ok (), observed)
        ∧ ∀ operations : List (Operation φ ρ),
          (∀ operation ∈ operations, operation.keepsStream) →
            let p := observed.afterPlain operations
            let starts := (Survey.of codec p.feed.read).starts
            let held := if p.segments.hasQueued then 1 else 0
            let failed := if p.hasDecoder then 0 else 1
            p.plain drivers = start.after operations
              ∧ ((∀ packet ∈ p.feed.read, packet.bounds.Proper) →
                (p.hasDecoder = false ↔ p.segments.phase = .switching)
                  ∧ (∃ completed waiting, starts = completed ++ waiting
                    ∧ waiting.length = held + failed
                    ∧ p.health.segmentSwitches = .ofNat completed.length
                    ∧ p.health.decoderReinits = .ofNat (completed.count true)
                    ∧ (p.feed.read.length < 2 ^ 64 →
                      p.health.segmentSwitches.toNat + held + failed = starts.length
                        ∧ p.health.decoderReinits.toNat = completed.count true))) := by
  rcases exists_openObserved codec drivers feed shared options now hopen
    with ⟨observed, hobserved, hplain⟩
  refine ⟨observed, hobserved, ?_⟩
  intro operations hkeeps p starts held failed
  refine ⟨hplain operations, ?_⟩
  intro hproper
  have hsurveyed : p.Surveyed codec :=
    (surveyed_openObserved codec drivers feed shared options now hobserved).after operations hkeeps
      hproper
  rcases hsurveyed.tally with ⟨completed, waiting, hstarts, hwaiting, hswitches, hreinits⟩
  refine ⟨hsurveyed.failed_iff, completed, waiting, hstarts, hwaiting, hswitches, hreinits, ?_⟩
  intro hfew
  have hlength : starts.length = completed.length + waiting.length := by
    rw [← List.length_append, ← hstarts]
  have hbounded : starts.length ≤ p.feed.read.length := Survey.length_of_le codec p.feed.read
  have hcounted : completed.count true ≤ completed.length := List.count_le_length
  rw [hswitches, hreinits, UInt64.toNat_ofNat_of_lt' (Nat.lt_of_le_of_lt (by omega) hfew),
    UInt64.toNat_ofNat_of_lt' (Nat.lt_of_le_of_lt (by omega) hfew)]
  refine ⟨?_, rfl⟩
  rw [hlength, hwaiting]
  exact Nat.add_assoc _ _ _

theorem sample_one_switch_per_boundary
    : ∃ observed, openObserved sampleCodec defaultDrivers (sampleFeed [samplePacket]) () {} 0
          = (.ok (), observed)
        ∧ let p : Pipeline (ObservedShared Unit) (ObservedEngine RawVideoEngine)
              (ObservedFeed PacketChannel) Collection := observed.afterPlain [.work, .work]
          p.feed.read = [samplePacket]
            ∧ (Survey.of sampleCodec p.feed.read).starts = [false]
            ∧ p.health.segmentSwitches.toNat + (if p.segments.hasQueued then 1 else 0)
              + (if p.hasDecoder then 0 else 1) = 1 := by
  let start : Except OpenError Unit × Pipeline Unit RawVideoEngine PacketChannel Collection :=
    openWith sampleCodec defaultDrivers (sampleFeed [samplePacket]) () {} 0
  have hopen : start = (.ok (), start.2) := by rfl
  rcases one_switch_per_boundary sampleCodec defaultDrivers (sampleFeed [samplePacket]) () {} 0 hopen
    with ⟨observed, hobserved, hcounted⟩
  have hread : ((openObserved sampleCodec (@defaultDrivers Unit) (sampleFeed [samplePacket]) () {}
      0).2.afterPlain [(.work : Operation PacketChannel Collection), .work]).feed.read
      = [samplePacket] := by decide +kernel
  have hstarts : (Survey.of sampleCodec [samplePacket]).starts = [false] := by decide +kernel
  have hproper : samplePacket.bounds.Proper := ⟨by decide +kernel, by decide +kernel⟩
  rw [hobserved] at hread
  have hkept := (hcounted [.work, .work] (by simp [Operation.keepsStream])).2
  dsimp only at hkept hread
  rw [hread] at hkept
  rcases (hkept (by simpa using hproper)).2 with ⟨completed, waiting, -, -, -, -, hsum⟩
  rw [hstarts] at hsum
  refine ⟨observed, hobserved, hread, ?_, (hsum (by decide)).1⟩
  rw [hread]
  exact hstarts

end Pipeline
end DecodePipeline
