import DecodePipeline.Proofs.Pipeline.Logging
import DecodePipeline.Proofs.Pipeline.Proceeding

/-!
This module contains the life of engines: what a pipeline asks of them when a segment starts, and that
it closes every engine that it opened before it opens another one.
-/

namespace DecodePipeline

structure Engine.Lasting {ω ε : Type} [Engine ω ε] (holds : Option ε → ω → Prop) : Prop where
  send : ∀ (engine : ε) (shared : ω) (packet : Option Packet), holds (some engine) shared →
    holds (some (Engine.send engine shared packet).engine) (Engine.send engine shared packet).shared
  receive : ∀ (engine : ε) (shared : ω), holds (some engine) shared →
    holds (some (Engine.receive engine shared).engine) (Engine.receive engine shared).shared

namespace LoggedCall

def attempt (codec : CodecParams) (success : Bool) (entry : DecoderEntry) (number : Nat) :
    List LoggedCall :=
  [⟨number, .created entry.family⟩, ⟨number, .opened codec entry.decoder success⟩]

def failures (codec : CodecParams) : List DecoderEntry → Nat → List LoggedCall
  | [], _ => []
  | entry :: rest, number => attempt codec false entry number ++ failures codec rest (number + 1)

/--
Decoders are tried in the order of the list until one opens. The outcome is that decoder and the number
of its engine, or nothing if all of them fail.
-/
inductive Tries (codec : CodecParams) (entries : List DecoderEntry) (number : Nat) :
    List LoggedCall → Option (DecoderEntry × Nat) → Prop where
  | failed : Tries codec entries number (failures codec entries number) none
  | opened {before after : List DecoderEntry} {entry : DecoderEntry}
    (hentries : entries = before ++ entry :: after) :
    Tries codec entries number
      (failures codec before number ++ attempt codec true entry (number + before.length))
      (some (entry, number + before.length))

theorem Tries.cons {codec : CodecParams} {entries : List DecoderEntry} {number : Nat}
    {calls : List LoggedCall} {outcome : Option (DecoderEntry × Nat)} (entry : DecoderEntry)
    (htries : Tries codec entries (number + 1) calls outcome)
    : Tries codec (entry :: entries) number (attempt codec false entry number ++ calls) outcome := by
  cases htries with
  | failed => exact .failed
  | @opened before after chosen hentries =>
    have hopened := @Tries.opened codec (entry :: entries) number (entry :: before) after chosen
      (congrArg (entry :: ·) hentries)
    rw [List.length_cons, ← Nat.add_assoc, Nat.add_right_comm, failures, List.append_assoc] at hopened
    exact hopened

end LoggedCall

namespace Pipeline

variable {ω ε φ ρ : Type}

section Lasting

variable [Engine ω ε] {p q : Pipeline ω ε φ ρ} {holds : Option ε → ω → Prop}

theorem Upholds.receives (hp : p.Upholds holds) (hlasting : Engine.Lasting holds)
    (hreceives : p.Receives q)
    : q.Upholds holds := by
  rcases hreceives with ⟨engine, hengine, -, hreads⟩
  apply hreads.upholds
  have hstate := hp.state
  rw [hengine] at hstate
  exact ⟨hp.invariant, hlasting.receive engine p.shared hstate⟩

theorem Upholds.sends [PacketRecorder ρ] (hp : p.Upholds holds)
    (hlasting : Engine.Lasting holds) {engine : ε} (hengine : p.engine = some engine)
    : (p.sendPending engine).Upholds holds := by
  rcases p.sendPending_engine engine with ⟨hafter, hshared⟩
  have hdrivers : (p.sendPending engine).drivers = p.drivers :=
    congrArg Outline.drivers (outline_sendPending (.nothing ω ε) p engine)
  have hstate := hp.state
  rw [hengine] at hstate
  refine ⟨?_, ?_⟩
  . rw [hdrivers]
    exact hp.invariant
  . rw [hafter, hshared]
    apply hlasting.send
    exact hp.invariant.control engine p.shared _ hstate

variable [PacketFeed φ] [PacketRecorder ρ]

theorem Upholds.works (hp : p.Upholds holds) (hlasting : Engine.Lasting holds)
    {asked : Option (Poll Packet)} (hworks : p.Works asked q)
    : q.Upholds holds := by
  cases hworks with
  | detached => exact hp.of_eq rfl rfl rfl
  | kept => exact hp
  | stopped hreceives => exact hp.receives hlasting hreceives
  | waited hreceives => exact (hp.receives hlasting hreceives).of_eq rfl rfl rfl
  | @fed asked r filled q engine hreceives hengine _ hfills hagain =>
    have hreceived := hp.receives hlasting hreceives
    have hheld : filled.holdNewSegment.Upholds holds
        ∧ filled.holdNewSegment.engine = some engine := by
      rcases hfills.holdNewSegment_eq with ⟨pending, queued, phase, journal, hheld⟩
      rw [hheld]
      exact ⟨hreceived.of_eq rfl rfl rfl, hengine⟩
    exact (hheld.1.sends hlasting hheld.2).receives hlasting hagain

theorem Upholds.perform (hp : p.Upholds holds) (hlasting : Engine.Lasting holds)
    (operation : Operation φ ρ)
    : (p.perform operation).Upholds holds := by
  cases operation with
  | work =>
    rcases p.doWork_works with ⟨asked, hworks⟩
    exact hp.works hlasting hworks
  | take => exact hp.getFrame
  | reset => exact hp.reset
  | openDecoder codec => exact hp.openDecoder codec
  | setStart | setFramedrop | resetParams | attachRecorder | detachRecorder | refill | wait =>
    exact hp.of_eq rfl rfl rfl

end Lasting

section Forgetting

variable [Engine ω ε]

theorem openDecoder_forgets (p : Pipeline ω ε φ ρ) (codec : SharedCodec)
    : (p.openDecoder codec).2.timeline = {} ∧ (p.openDecoder codec).2.params = {} := by
  rcases p.openDecoder_readied codec with ⟨engine, decoder, shared, status, journal, hopen⟩
  rw [hopen]
  exact ⟨rfl, rfl⟩

end Forgetting

section Described

def Described (p : Pipeline ω ε φ ρ) : Prop := p.engine.isSome = p.decoder.isSome

variable [Engine ω ε] {p q : Pipeline ω ε φ ρ}

theorem Described.proceed (hp : p.Described) (hproceeds : Proceeds (.nothing ω ε) p q)
    : q.Described := by
  have hengine : q.engine.isSome = p.engine.isSome := by
    have hsame := congrArg Option.isSome hproceeds.engine
    simpa using hsame
  unfold Described
  rw [hengine, hproceeds.decoder]
  exact hp

theorem Described.tryDecoders (hp : p.Described) (entries : List DecoderEntry)
    : (p.tryDecoders entries).2.Described := by
  have htried := p.tryDecoders_tried entries
  generalize p.tryDecoders entries = result at htried ⊢
  cases htried with
  | opened => rfl
  | failed => exact hp

theorem described_openDecoder (p : Pipeline ω ε φ ρ) (codec : SharedCodec)
    : (p.openDecoder codec).2.Described := by
  have hreadied : (p.readied codec).Described := by
    unfold Described
    rw [p.readied_engine codec, p.readied_decoder codec]
    rfl
  rcases p.openDecoder_tried codec with ⟨status, journal, hopen⟩
  rw [hopen]
  exact hreadied.tryDecoders (p.readied codec).candidates

theorem Described.resetSegment (hp : p.Described) : p.resetSegment.Described := by
  have hcommand : Described (p.command .reset).2 := hp.proceed (p.proceeds_command .reset)
  exact hcommand

theorem Described.switchSegment (hp : p.Described) : p.switchSegment.Described := by
  cases hqueued : p.segments.queued with
  | none =>
    rw [switchSegment_of_queued_none p hqueued]
    exact hp
  | some packet =>
    have hswitching : (p.switching packet).Described := hp
    cases hkind : SegmentTracker.switchKind packet p.codec with
    | «continue» =>
      rw [switchSegment_of_continue p hqueued hkind]
      exact hswitching.resetSegment
    | reinit codec =>
      have hopened := (p.switching packet).described_openDecoder codec
      rw [switchSegment_of_reinit p hqueued hkind]
      rcases hresult : (p.switching packet).openDecoder codec with ⟨result, q⟩
      rw [hresult] at hopened
      cases result with
      | ok => exact hopened
      | error reason => exact hopened

theorem Described.readFrame (hp : p.Described) : p.readFrame.Described := by
  rcases readFrame_proceeds (.nothing ω ε) p with ⟨q, hproceeds, hread | hread⟩
  . rw [hread]
    exact hp.proceed hproceeds
  . rw [hread]
    exact (hp.proceed hproceeds).switchSegment

variable [PacketFeed φ] [PacketRecorder ρ]

theorem Described.perform (hp : p.Described) (operation : Operation φ ρ)
    : (p.perform operation).Described := by
  cases operation with
  | work =>
    apply doWork_induct (motive := Described)
    . exact hp
    . exact fun q hq => hq
    . exact fun q hq => hq.readFrame
    . exact fun q hq => hq.proceed q.proceeds_feedPacket
  | take =>
    unfold Pipeline.perform getFrame
    dsimp only
    split <;> exact hp
  | reset =>
    have hsaid : (p.say .reset).Described := hp
    exact hsaid.resetSegment
  | openDecoder codec => exact p.described_openDecoder codec
  | setStart | setFramedrop | resetParams | attachRecorder | detachRecorder | refill | wait =>
    exact hp

end Described

section Logs

def Matched (engine : Option (LoggedEngine ε)) (shared : LoggedShared ω) : Prop :=
  shared.openings = shared.closings + if engine.isSome then 1 else 0

theorem Matched.log {engine engine' : LoggedEngine ε} {shared : LoggedShared ω}
    (hmatched : Matched (some engine) shared) (state : ω) (call : LoggedCall)
    (hopening : call.isOpening = false) (hclosing : call.isClosing = false)
    : Matched (some engine') (shared.log state call.engine call.call) := by
  unfold Matched at hmatched ⊢
  rw [LoggedShared.openings_log, LoggedShared.closings_log, hopening, hclosing]
  simpa using hmatched

def HasLogs (p : Pipeline (LoggedShared ω) (LoggedEngine ε) (TracedFeed φ) ρ) : Prop :=
  ∃ drivers : List (Driver ω ε), p.drivers = drivers.map Driver.logged

theorem HasLogs.of_eq {p q : Pipeline (LoggedShared ω) (LoggedEngine ε) (TracedFeed φ) ρ}
    (hlogs : p.HasLogs) (hdrivers : q.drivers = p.drivers)
    : q.HasLogs := by
  unfold HasLogs
  rw [hdrivers]
  exact hlogs

def usable (p : Pipeline ω ε φ ρ) (codec : SharedCodec) : List DecoderEntry :=
  (DecoderEntry.select (Driver.catalogue p.drivers) codec.params.codec p.options.videoDecoders).filter
    fun entry => (Driver.find? p.drivers entry.family).isSome

variable [Engine ω ε] {p q : Pipeline (LoggedShared ω) (LoggedEngine ε) (TracedFeed φ) ρ}

theorem lasting_matched : Engine.Lasting (Matched (ω := ω) (ε := ε)) where
  send engine _ packet hmatched :=
    hmatched.log _ ⟨engine.number, .sent packet engine.framedrop _⟩ rfl rfl
  receive engine _ hmatched := hmatched.log _ ⟨engine.number, .received _⟩ rfl rfl

theorem openings_of_init (driver : Driver ω ε) (shared : LoggedShared ω) (params : CodecParams)
    (decoder : String)
    : let engine := driver.logged.create shared
      let reply := Engine.init engine.1 engine.2 params decoder
      reply.shared.openings = shared.openings + (if reply.answer.isOk then 1 else 0)
        ∧ reply.shared.closings = shared.closings := by
  refine ⟨?_, ?_⟩
  . refine (LoggedShared.openings_log ..).trans ?_
    exact congrArg (· + _) (LoggedShared.openings_log shared (driver.create shared.state).2 ..)
  . refine (LoggedShared.closings_log ..).trans ?_
    exact LoggedShared.closings_log shared (driver.create shared.state).2 ..

theorem HasLogs.matched (hlogs : p.HasLogs) : Engine.Invariant p.drivers (Matched (ω := ω)) := by
  refine ⟨?_, ?_, ?_⟩
  . intro engine shared command hmatched
    exact hmatched.log _ ⟨engine.number, .told command⟩ rfl rfl
  . intro engine shared hmatched
    unfold Matched at hmatched ⊢
    change (shared.log _ engine.number .closed).openings
      = (shared.log _ engine.number .closed).closings + 0
    rw [LoggedShared.openings_log, LoggedShared.closings_log]
    exact hmatched
  . intro driver hdriver shared params decoder hmatched
    rcases hlogs with ⟨drivers, hdrivers⟩
    rw [hdrivers, List.mem_map] at hdriver
    rcases hdriver with ⟨driver, -, rfl⟩
    rcases openings_of_init driver shared params decoder with ⟨hopenings, hclosings⟩
    dsimp only at hopenings hclosings ⊢
    split
    all_goals
      next hanswer =>
        rw [hanswer] at hopenings
        unfold Matched at hmatched ⊢
        rw [hopenings, hclosings, hmatched]
        rfl

theorem openReply_log (hlogs : p.HasLogs) {driver : Driver (LoggedShared ω) (LoggedEngine ε)}
    {entry : DecoderEntry} (hdriver : Driver.find? p.drivers entry.family = some driver)
    : (p.openReply driver entry).shared.calls
          = p.shared.calls ++ LoggedCall.attempt p.codec.params
            (p.openReply driver entry).answer.isOk entry p.shared.created
        ∧ (p.openReply driver entry).shared.created = p.shared.created + 1
        ∧ (p.openReply driver entry).engine.number = p.shared.created := by
  have hname : driver.name = entry.family := by
    unfold Driver.find? at hdriver
    simpa using List.find?_some hdriver
  have hmem := mem_of_find? hdriver
  rcases hlogs with ⟨drivers, hdrivers⟩
  rw [hdrivers, List.mem_map] at hmem
  rcases hmem with ⟨driver, -, rfl⟩
  refine ⟨?_, rfl, rfl⟩
  unfold LoggedCall.attempt
  rw [← hname]
  exact List.append_assoc ..

theorem tryDecoders_log (hlogs : p.HasLogs) (hengine : p.engine = none) (hdecoder : p.decoder = none)
    (entries : List DecoderEntry)
    : ∃ calls outcome,
        LoggedCall.Tries p.codec.params
            (entries.filter fun entry => (Driver.find? p.drivers entry.family).isSome)
            p.shared.created calls outcome
          ∧ (p.tryDecoders entries).1.isNone = outcome.isSome
          ∧ (p.tryDecoders entries).2.shared.calls = p.shared.calls ++ calls
          ∧ (p.tryDecoders entries).2.engine.map (·.number) = outcome.map (·.2)
          ∧ (p.tryDecoders entries).2.decoder = outcome.map (·.1.description) := by
  induction entries generalizing p with
  | nil =>
    refine ⟨[], none, .failed, rfl, (List.append_nil _).symm, ?_, hdecoder⟩
    exact congrArg (Option.map (·.number)) hengine
  | cons entry rest ih =>
    cases hdriver : Driver.find? p.drivers entry.family with
    | none =>
      rw [tryDecoders_of_unknown p hdriver, List.filter_cons_of_neg (by simp [hdriver])]
      exact ih hlogs hengine hdecoder
    | some driver =>
      rcases openReply_log hlogs hdriver with ⟨hcalls, hcreated, hnumber⟩
      rw [List.filter_cons_of_pos (by simp [hdriver])]
      cases hanswer : (p.openReply driver entry).answer with
      | ok =>
        rw [tryDecoders_of_ok p hdriver hanswer]
        refine ⟨_, _, @LoggedCall.Tries.opened _ _ _ [] _ entry rfl, rfl, ?_, ?_, rfl⟩
        . refine hcalls.trans ?_
          rw [hanswer]
          rfl
        . exact congrArg some hnumber
      | error reason =>
        rw [tryDecoders_of_error p hdriver hanswer]
        let failed := (p.attempted driver entry).say (.initFailed entry.decoder reason)
        have hfailed : failed.shared.created = p.shared.created + 1 := hcreated
        rcases ih (p := failed) hlogs hengine hdecoder
          with ⟨calls, outcome, htries, hresult, hmore, hnumbered, hdescribed⟩
        rw [hfailed] at htries
        refine ⟨_, outcome, htries.cons entry, ?_, ?_, hnumbered, hdescribed⟩
        . rw [← hresult]
          exact Option.isNone_map
        . refine hmore.trans ?_
          rw [← List.append_assoc]
          refine congrArg (· ++ calls) (hcalls.trans ?_)
          rw [hanswer]
          rfl

theorem candidates_readied (p : Pipeline (LoggedShared ω) (LoggedEngine ε) (TracedFeed φ) ρ)
    (codec : SharedCodec)
    : (p.readied codec).candidates.filter
          (fun entry => (Driver.find? (p.readied codec).drivers entry.family).isSome)
        = p.usable codec := by
  have houtline := outline_prepareCodec (.nothing _ _) p codec
  have hcodec : (p.readied codec).codec = codec := congrArg Outline.codec houtline
  have hoptions : (p.readied codec).options = p.options := congrArg Outline.options houtline
  unfold usable candidates
  rw [readied_drivers, hcodec, hoptions]

theorem openDecoder_log (hlogs : p.HasLogs) {engine : LoggedEngine ε} (hengine : p.engine = some engine)
    (codec : SharedCodec)
    : ∃ calls outcome,
        LoggedCall.Tries codec.params (p.usable codec) p.shared.created calls outcome
          ∧ (p.openDecoder codec).1.isOk = outcome.isSome
          ∧ (p.openDecoder codec).2.shared.calls
            = p.shared.calls ++ ⟨engine.number, .closed⟩ :: calls
          ∧ (p.openDecoder codec).2.engine.map (·.number) = outcome.map (·.2)
          ∧ (p.openDecoder codec).2.decoder = outcome.map (·.1.description) := by
  have hshared : (p.readied codec).shared
      = p.shared.log (Engine.uninit engine.engine p.shared.state).shared engine.number .closed := by
    rw [readied_shared]
    unfold releaseEngine
    rw [hengine]
    rfl
  have hreadied : (p.readied codec).HasLogs := hlogs.of_eq (p.readied_drivers codec)
  have hcodec : (p.readied codec).codec = codec :=
    congrArg Outline.codec (outline_prepareCodec (.nothing _ _) p codec)
  rcases tryDecoders_log hreadied (p.readied_engine codec) (p.readied_decoder codec)
    (p.readied codec).candidates with ⟨calls, outcome, htries, hresult, hcalls, hnumber, hdecoder⟩
  rw [candidates_readied, hcodec, hshared] at htries
  have hlogged : p.shared.calls ++ ⟨engine.number, .closed⟩ :: calls
      = (p.readied codec).shared.calls ++ calls := by
    rw [hshared]
    exact (List.append_assoc _ [_] _).symm
  refine ⟨calls, outcome, htries, ?_⟩
  rw [hlogged]
  cases hopen : ((p.readied codec).tryDecoders (p.readied codec).candidates).1 with
  | none =>
    rw [openDecoder_of_none p codec hopen]
    rw [hopen] at hresult
    exact ⟨hresult, hcalls, hnumber, hdecoder⟩
  | some tried =>
    rcases openDecoder_of_some p codec hopen with ⟨reason, herror⟩
    rw [herror]
    rw [hopen] at hresult
    exact ⟨hresult, hcalls, hnumber, hdecoder⟩

end Logs

section Switch

theorem switchKind_of_keepsCodec {packet : Packet} {active : SharedCodec}
    (hkeeps : SegmentTracker.keepsCodec packet.codec active)
    : SegmentTracker.switchKind packet active = .continue := by
  unfold SegmentTracker.keepsCodec at hkeeps
  unfold SegmentTracker.switchKind
  cases hcodec : packet.codec with
  | none => rfl
  | some codec =>
    rw [hcodec] at hkeeps
    exact if_pos hkeeps

theorem switchKind_of_not_keepsCodec {packet : Packet} {active : SharedCodec}
    (hchanges : ¬ SegmentTracker.keepsCodec packet.codec active)
    : ∃ codec, packet.codec = some codec
        ∧ SegmentTracker.switchKind packet active = .reinit codec := by
  unfold SegmentTracker.keepsCodec at hchanges
  unfold SegmentTracker.switchKind
  cases hcodec : packet.codec with
  | none =>
    rw [hcodec] at hchanges
    exact absurd rfl hchanges
  | some codec =>
    rw [hcodec] at hchanges
    exact ⟨codec, rfl, if_neg hchanges⟩

structure HasBegun (p : Pipeline ω ε φ ρ) (packet : Packet) : Prop where
  segments : p.segments = { bounds := packet.bounds }
  pending : p.pending = some packet
  startCut : p.startCut = none
  timeline : p.timeline = { trust := p.timeline.trust }
  params : p.params = {}
  status : p.status = .again

variable {p q : Pipeline (LoggedShared ω) (LoggedEngine ε) (TracedFeed φ) ρ}

/-- The engine is only told to start over. -/
structure Continues (p q : Pipeline (LoggedShared ω) (LoggedEngine ε) (TracedFeed φ) ρ)
    (engine : LoggedEngine ε) (packet : Packet) : Prop where
  calls : q.shared.calls = p.shared.calls ++ [⟨engine.number, .told .reset⟩]
  engine : q.engine.map (·.number) = some engine.number
  codec : q.codec = p.codec
  decoder : q.decoder = p.decoder
  trust : q.timeline.trust = p.timeline.trust
  begun : q.HasBegun packet

/-- The engine is closed, and decoders are tried until one opens. -/
structure Replaces (p q : Pipeline (LoggedShared ω) (LoggedEngine ε) (TracedFeed φ) ρ)
    (engine : LoggedEngine ε) (packet : Packet) (codec : SharedCodec)
    (outcome : Option (DecoderEntry × Nat)) : Prop where
  calls : ∃ calls, LoggedCall.Tries codec.params (p.usable codec) p.shared.created calls outcome
    ∧ q.shared.calls = p.shared.calls ++ ⟨engine.number, .closed⟩ :: calls
  engine : q.engine.map (·.number) = outcome.map (·.2)
  codec : q.codec = codec
  decoder : q.decoder = outcome.map (·.1.description)
  trust : q.timeline.trust = .fresh
  begun : outcome.isSome → q.HasBegun packet

variable [Engine ω ε]

theorem switchSegment_continues {engine : LoggedEngine ε} {packet : Packet}
    (hengine : p.engine = some engine) (hqueued : p.segments.queued = some packet)
    (hkind : SegmentTracker.switchKind packet p.codec = .continue)
    : p.Continues p.switchSegment engine packet := by
  have hcommand : ((p.switching packet).command .reset).2
      = (p.switching packet).afterReply (Engine.control engine p.shared .reset) := by
    unfold command
    rw [show (p.switching packet).engine = some engine from hengine]
    rfl
  rw [switchSegment_of_continue p hqueued hkind]
  unfold resetSegment
  rw [hcommand]
  exact ⟨rfl, rfl, rfl, rfl, rfl, rfl, rfl, rfl, rfl, rfl, rfl⟩

theorem switchSegment_replaces (hlogs : p.HasLogs) {engine : LoggedEngine ε} {packet : Packet}
    {codec : SharedCodec} (hengine : p.engine = some engine)
    (hqueued : p.segments.queued = some packet)
    (hkind : SegmentTracker.switchKind packet p.codec = .reinit codec)
    : ∃ outcome, p.Replaces p.switchSegment engine packet codec outcome := by
  rcases openDecoder_log (p := p.switching packet) hlogs hengine codec
    with ⟨calls, outcome, htries, hresult, hcalls, hnumber, hdecoder⟩
  have houtline := outline_switchSegment_reinit (.nothing _ _) p hqueued hkind
  have hforgets := (p.switching packet).openDecoder_forgets codec
  rw [switchSegment_of_reinit p hqueued hkind] at houtline ⊢
  refine ⟨outcome, ?_⟩
  rcases hopen : (p.switching packet).openDecoder codec with ⟨result, q⟩
  rw [hopen] at hresult hcalls hnumber hdecoder hforgets houtline
  cases result with
  | error reason =>
    have hfailed : outcome.isSome = false := hresult.symm
    refine ⟨⟨calls, htries, hcalls⟩, hnumber, ?_, hdecoder, ?_, ?_⟩
    . exact congrArg Outline.codec houtline
    . exact congrArg Reconciler.trust hforgets.1
    . simp [hfailed]
  | ok =>
    refine ⟨⟨calls, htries, hcalls⟩, hnumber, ?_, hdecoder, ?_, fun _ => ⟨?_, rfl, ?_, ?_, ?_, rfl⟩⟩
    . exact congrArg Outline.codec houtline
    . exact congrArg Reconciler.trust hforgets.1
    . exact congrArg Outline.segments houtline
    . exact congrArg Outline.startCut houtline
    . refine hforgets.1.trans ?_
      rw [show (q.entered packet true).timeline = {} from hforgets.1]
    . exact hforgets.2

end Switch

variable [Engine ω ε] [PacketFeed φ] [PacketRecorder ρ]

theorem matched_createLogged (codec : SharedCodec) (drivers : List (Driver ω ε)) (feed : φ)
    (shared : ω) (options : DecoderOptions) (now : UInt64) (operations : List (Operation φ ρ))
    {p : Pipeline (LoggedShared ω) (LoggedEngine ε) (TracedFeed φ) ρ}
    (hp : p = (createLogged codec drivers feed shared options now).afterLogged operations)
    : p.Upholds Matched ∧ p.Described := by
  rw [hp]
  apply afterLogged_induct (motive := fun p => p.Upholds Matched ∧ p.Described)
  . have hlogs : HasLogs (createLogged codec drivers feed shared options now :
        Pipeline (LoggedShared ω) (LoggedEngine ε) (TracedFeed φ) ρ) := ⟨drivers, rfl⟩
    exact ⟨⟨hlogs.matched, rfl⟩, rfl⟩
  . exact fun p operation _ hp => ⟨hp.1.perform lasting_matched _, hp.2.perform _⟩

/--
Whatever the engines and the feed do: engines are opened and closed in turn, and a pipeline tells which
decoder it has as long as it has one. Whenever the segment of a packet that was held back starts, the
engine is told to start over if the codec stays the same, and nothing else is asked of any engine.
Otherwise it is closed, and the decoders for the other codec are tried in the order of the selection until
one opens.
-/
theorem switches_segment_and_matches_openings (codec : SharedCodec) (drivers : List (Driver ω ε))
    (feed : φ) (shared : ω) (options : DecoderOptions) (now : UInt64)
    (operations : List (Operation φ ρ))
    : let p : Pipeline (LoggedShared ω) (LoggedEngine ε) (TracedFeed φ) ρ :=
        (createLogged codec drivers feed shared options now).afterLogged operations
      p.unlogged drivers = (create codec drivers feed shared options now).after operations
        ∧ p.shared.openings = p.shared.closings + (if p.hasDecoder then 1 else 0)
        ∧ (p.hasDecoder ↔ p.decoder.isSome)
        ∧ ∀ (r : Pipeline (LoggedShared ω) (LoggedEngine ε) (TracedFeed φ) ρ) engine packet,
          r.drivers = drivers.map Driver.logged → r.engine = some engine →
            r.segments.queued = some packet →
              r.switchSegment.unlogged drivers = (r.unlogged drivers).switchSegment
                ∧ if SegmentTracker.keepsCodec packet.codec r.codec then
                    r.Continues r.switchSegment engine packet
                  else ∃ other outcome, packet.codec = some other
                    ∧ r.Replaces r.switchSegment engine packet other outcome := by
  intro p
  rcases matched_createLogged (ρ := ρ) codec drivers feed shared options now operations rfl
    with ⟨hmatched, hdescribed⟩
  refine ⟨unlogged_createLogged codec drivers feed shared options now operations, hmatched.state, ?_, ?_⟩
  . exact Bool.eq_iff_iff.mp hdescribed
  . intro r engine packet hdrivers hengine hqueued
    refine ⟨?_, ?_⟩
    . have hdrives : List.Forall₂ (Likeness.logged ω ε φ).Drives r.drivers drivers := by
        rw [hdrivers]
        exact Likeness.logged_drives φ drivers
      exact (image_switchSegment r (.logged ω ε φ) drivers hdrives).symm
    . split
      . next hkeeps => exact switchSegment_continues hengine hqueued (switchKind_of_keepsCodec hkeeps)
      . next hchanges =>
        rcases switchKind_of_not_keepsCodec hchanges with ⟨other, hother, hkind⟩
        rcases switchSegment_replaces ⟨drivers, hdrivers⟩ hengine hqueued hkind
          with ⟨outcome, hreplaces⟩
        exact ⟨other, outcome, hother, hreplaces⟩

-- The held packet has no codec of its own, so the engine goes on.
theorem sample_switches_segment_and_matches_openings
    : let p := sampleLogged.afterLogged [.openDecoder sampleCodec]
      let r := p.readFrame.feedPacket
      p.shared.openings = p.shared.closings + 1
        ∧ ∃ engine, r.engine = some engine ∧ r.segments.queued = some samplePacket
          ∧ r.Continues r.switchSegment engine samplePacket := by
  intro p r
  rcases switches_segment_and_matches_openings sampleCodec defaultDrivers
    (sampleFeed [samplePacket]) () {} 0 [(.openDecoder sampleCodec : Operation _ Collection)]
    with ⟨-, hopenings, -, hswitches⟩
  have hattached : p.hasDecoder := by decide +kernel
  have hengine : r.engine.isSome := by decide +kernel
  have hqueued : r.segments.queued = some samplePacket := by decide +kernel
  have hcodec : SegmentTracker.keepsCodec samplePacket.codec r.codec := by decide +kernel
  have hdrivers : r.drivers = defaultDrivers.map Driver.logged := by rfl
  rcases Option.isSome_iff_exists.mp hengine with ⟨engine, hengine⟩
  have hcontinues := (hswitches r engine samplePacket hdrivers hengine hqueued).2
  rw [if_pos hcodec] at hcontinues
  refine ⟨?_, engine, hengine, hqueued, hcontinues⟩
  refine hopenings.trans ?_
  exact congrArg (p.shared.closings + ·) (if_pos hattached)

end Pipeline
end DecodePipeline
