import DecodePipeline.Player.MemoryFiles
import DecodePipeline.Player.Run
import DecodePipeline.Proofs.Playback.FirstSegment
import DecodePipeline.Proofs.Playback.Script

/-!
This module contains the start at which the player drops frames. It holds until the first segment of the
script starts: to the end of a script without segments, and not even for the first frame of a script that
starts with one.
-/

namespace DecodePipeline

namespace StreamScript

def switchesAtOnce (script : StreamScript) : Bool :=
  match script.packets with
  | .ok (codec, x :: _) => SegmentTracker.isNewSegment {} x codec
  | _ => false

variable {script : StreamScript} {first : SegmentScript} {rest : List SegmentScript}

theorem switchesAtOnce_eq (hsegments : script.segments = first :: rest)
    : script.switchesAtOnce
        = script.expansion.head?.any (SegmentTracker.isNewSegment {} · ⟨0, first.codecParams⟩) := by
  unfold switchesAtOnce
  rw [packets_eq hsegments]
  cases script.expansion <;> rfl

theorem switchesAtOnce_of_isBounded (hsegments : script.segments = first :: rest)
    (hbounded : first.isBounded = true) (hframes : first.frames ≠ 0)
    : script.switchesAtOnce = true := by
  have hsegmented : script.isSegmented = true := by
    unfold isSegmented
    rw [hsegments, List.any_cons, hbounded, Bool.true_or, Bool.or_true]
  have hcount : first.frames.toNat ≠ 0 := fun hzero => hframes (UInt32.toNat_inj.mp hzero)
  rcases Nat.exists_eq_succ_of_ne_zero hcount with ⟨count, hcount⟩
  have hhead : script.expansion.head? = some (first.packet (script.label first 0) 0) := by
    unfold expansion SegmentScript.packets
    rw [hsegments, List.mapIdx_cons, hcount, List.range_succ_eq_map]
    rfl
  rw [switchesAtOnce_eq hsegments, hhead]
  unfold label
  rw [if_pos hsegmented]
  unfold SegmentScript.isBounded at hbounded
  unfold SegmentTracker.isNewSegment SegmentScript.packet SegmentScript.bounds
  cases hstart : first.start with
  | some start => rfl
  | none =>
    cases hstop : first.stop with
    | some stop => rfl
    | none =>
      rw [hstart, hstop] at hbounded
      cases hbounded

theorem segment_of_mem_expansion (hplain : script.isSegmented = false) {x : Packet}
    (hx : x ∈ script.expansion)
    : x.segment = none := by
  rcases mem_expansion hx with ⟨index, segment, i, -, rfl⟩
  unfold SegmentScript.packet label
  rw [hplain]
  rfl

end StreamScript

namespace Player

variable {σ : Type}

def record (pipeline : PlayerPipeline σ) : Option (String × σ) → PlayerPipeline σ
  | none => pipeline
  | some (path, sink) =>
    let (notices, dump) := StreamDump.start path sink
    (pipeline.sayAll notices).attachRecorder dump

def playback? (script : StreamScript) (options : DecoderOptions) (settings : Settings) (now : UInt64)
    (recording : Option (String × σ)) : Option (Playback Unit RawVideoEngine (StreamDump σ)) :=
  match script.packets with
  | .error _ => none
  | .ok (codec, packets) =>
    match openPipeline script codec packets options settings now with
    | (.error _, _) => none
    | (.ok (), pipeline) => (begin (record pipeline recording) packets).toOption

variable {script : StreamScript} {options : DecoderOptions} {settings : Settings} {now : UInt64}
  {recording : Option (String × σ)} {start : Playback Unit RawVideoEngine (StreamDump σ)}

theorem playback?_withStart (cut : Option Float)
    : playback? script options { settings with start := cut } now recording
        = (playback? script options settings now recording).map
            (·.setStart (cut.map Timestamp.mk)) := by
  unfold playback?
  rcases script.packets with error | ⟨codec, packets⟩
  . rfl
  . unfold openPipeline
    dsimp only
    rcases Pipeline.openDecoder _ codec with ⟨result, pipeline⟩
    cases result with
    | error error => rfl
    | ok opened => cases recording <;> rfl

structure Begins (script : StreamScript) (settings : Settings)
    (start : Playback Unit RawVideoEngine (StreamDump σ)) : Prop where
  codec : ∃ first rest, script.segments = first :: rest
    ∧ start.pipeline.codec = ⟨0, first.codecParams⟩
  pipeline : start.pipeline.Unstarted
  startCut : start.pipeline.startCut = settings.start.map Timestamp.mk
  waiting : start.pipeline.feed.packets.queue = []
  producers : start.producers = [{ packets := script.expansion }]
  stage : start.stage = .working
  handed : start.handed = []

theorem core_openPipeline {codec : SharedCodec} {packets : List Packet} {pipeline : PlayerPipeline σ}
    (hopen : openPipeline script codec packets options settings now = (.ok (), pipeline))
    : pipeline.core
        = { codec
            drivers := defaultDrivers
            options
            feed := .ofCapacity channelCapacity
            engine := some { params := some (.ofSize codec.params.width codec.params.height) }
            ready := none
            pending := none
            segments := {}
            params := {}
            startCut := settings.start.map Timestamp.mk } := by
  let playing : PlayerPipeline σ :=
    (Pipeline.create codec defaultDrivers (.ofCapacity channelCapacity) () options now).say
      (.playing packets.length script.segments.length)
  have hopened := Pipeline.openDecoder_of_ok (p := playing) rfl (congrArg Prod.fst hopen)
  have hpipeline : pipeline = ((playing.openDecoder codec).2.setFramedrop settings.framedrop).setStart
      (settings.start.map Timestamp.mk) := (congrArg Prod.snd hopen).symm
  rw [hopened] at hpipeline
  have hcore : pipeline.core
      = { (playing.opened codec).core with startCut := settings.start.map Timestamp.mk } := by
    rw [hpipeline]
    rfl
  rw [hcore, playing.core_opened_of_fresh codec rfl]
  rfl

theorem core_record (pipeline : PlayerPipeline σ) (recording : Option (String × σ))
    : (record pipeline recording).core = pipeline.core := by
  cases recording <;> rfl

theorem begins_of_playback? (hstart : playback? script options settings now recording = some start)
    : Begins script settings start := by
  unfold playback? at hstart
  cases hsegments : script.segments with
  | nil =>
    unfold StreamScript.packets at hstart
    rw [hsegments] at hstart
    cases hstart
  | cons first rest =>
    rw [StreamScript.packets_eq hsegments] at hstart
    dsimp only at hstart
    rcases hopen : openPipeline script ⟨0, first.codecParams⟩ script.expansion options settings now
      with ⟨result, pipeline⟩
    rw [hopen] at hstart
    cases result with
    | error error => cases hstart
    | ok opened =>
      cases hstart
      have hcore := core_openPipeline hopen
      rw [← core_record pipeline recording] at hcore
      generalize record pipeline recording = q at *
      simp only [Pipeline.core, Core.mk.injEq] at hcore
      rcases hcore with ⟨hcodec, -, -, hfeed, hengine, hready, hpending, hsegments', -, hstart⟩
      refine ⟨⟨first, rest, hsegments, hcodec⟩, ⟨⟨_, hengine, hready, ⟨rfl, rfl, ?_⟩, ?_⟩, hpending,
        hsegments'⟩, hstart, ?_, rfl, rfl, rfl⟩
      . exact congrArg (fun codec : SharedCodec =>
          some (ImageParams.ofSize codec.params.width codec.params.height)) hcodec.symm
      . exact congrArg SegmentTracker.queued hsegments'
      . exact congrArg (·.packets.queue) hfeed

theorem Begins.cutting (hbegins : Begins script settings start) {cut : Float}
    (hcut : settings.start = some cut)
    : start.Cutting ⟨cut⟩ := by
  rcases hbegins.pipeline.calm with ⟨e, hcalm⟩
  refine ⟨hcalm.ready, Or.inl ⟨?_, ?_⟩⟩
  . rw [hbegins.startCut, hcut]
    rfl
  . unfold Playback.Respects
    rw [hbegins.handed]
    exact List.forall_mem_nil _

theorem Begins.plain (hbegins : Begins script settings start) (hplain : script.isSegmented = false)
    : start.Plain := by
  rcases hbegins.pipeline.calm with ⟨e, hcalm⟩
  refine ⟨hcalm.queued, ?_⟩
  intro x hx
  unfold Playback.todo at hx
  rw [hbegins.pipeline.pending, hbegins.waiting, hbegins.producers] at hx
  exact StreamScript.segment_of_mem_expansion hplain (by simpa using hx)

theorem Begins.untouched (hbegins : Begins script settings start)
    (hswitches : script.switchesAtOnce = true)
    : start.Untouched := by
  rcases hbegins.codec with ⟨first, rest, hsegments, hcodec⟩
  rw [StreamScript.switchesAtOnce_eq hsegments] at hswitches
  refine ⟨hbegins.pipeline, Or.inl hbegins.stage, _, hbegins.producers, ?_⟩
  intro x hx
  rw [hbegins.waiting, List.nil_append] at hx
  rw [hx] at hswitches
  rw [hcodec]
  exact hswitches

section Playing

variable [ByteSink σ]

theorem perform_of_openPipeline {codec : SharedCodec} {packets : List Packet}
    {pipeline : PlayerPipeline σ} (hpackets : script.packets = .ok (codec, packets))
    (hopen : openPipeline script codec packets options settings now = (.ok (), pipeline))
    (recording : Option (String × σ))
    : ∃ start schedule s, playback? script options settings now recording = some start
        ∧ start.play schedule = some s
        ∧ perform (record pipeline recording) packets = conclude s := by
  have hbegin : ∃ start, begin (record pipeline recording) packets = .ok start := ⟨_, rfl⟩
  rcases hbegin with ⟨start, hbegin⟩
  rcases start.exists_play_run (rounds packets.length) with ⟨schedule, hplay⟩
  refine ⟨start, schedule, _, ?_, hplay, ?_⟩
  . unfold playback?
    rw [hpackets]
    dsimp only
    rw [hopen]
    dsimp only
    rw [hbegin]
    rfl
  . unfold perform
    rw [hbegin]

/--
Frames before the start are dropped until a segment of the script starts. A script without segments
drops them all, and one that starts with a segment gives the same frames as without start.
-/
theorem respects_start_until_switch {cut : Float} (hcut : settings.start = some cut)
    (hstart : playback? script options settings now recording = some start)
    {schedule : List Actor} {s : Playback Unit RawVideoEngine (StreamDump σ)}
    (hplay : start.play schedule = some s)
    : (s.pipeline.startCut = some ⟨cut⟩ ∧ s.Respects ⟨cut⟩
          ∨ s.pipeline.startCut = none ∧ s.pipeline.HasSwitched)
        ∧ (script.isSegmented = false → s.Respects ⟨cut⟩)
        ∧ (script.switchesAtOnce = true →
          ∃ start' s', playback? script options { settings with start := none } now recording
                = some start'
              ∧ start'.play schedule = some s' ∧ s'.handed = s.handed ∧ s'.taken = s.taken) := by
  have hbegins := begins_of_playback? hstart
  have hkept := ((hbegins.cutting hcut).play hplay).kept
  refine ⟨hkept, ?_, ?_⟩
  . intro hplain
    have hsame := ((hbegins.plain hplain).play hplay).2
    rw [hbegins.startCut, hcut] at hsame
    rcases hkept with ⟨-, hrespects⟩ | ⟨hnone, -⟩
    . exact hrespects
    . rw [hnone] at hsame
      cases hsame
  . intro hswitches
    have hagree : Playback.Agree none start (start.setStart none) :=
      .different rfl (Or.inl (hbegins.untouched hswitches))
    rcases hagree.play hplay with ⟨s', hplay', hagree'⟩
    refine ⟨start.setStart none, s', ?_, hplay', hagree'.handed⟩
    rw [playback?_withStart none, hstart]
    rfl

end Playing

def sampleSettings : Settings := { start := some 0.5 }

def sampleSchedule (packets : Nat) : List Actor :=
  -- One packet after the other comes and is worked on at once, and then a frame is taken.
  (List.replicate packets [.producer 0, .producer 0, .stage]).flatten ++ [.stage, .consumer]

def sampleTimes (script : StreamScript) (packets : Nat) : Option (List (Option Timestamp)) := do
  let start ← playback? (σ := MemorySink) script {} sampleSettings 0 none
  let s ← start.play (sampleSchedule packets)
  return s.taken.toList.map (·.pts)

theorem exists_play_of_sampleTimes {script : StreamScript} {packets : Nat}
    {times : List (Option Timestamp)} (htimes : sampleTimes script packets = some times)
    : ∃ start s : Playback Unit RawVideoEngine (StreamDump MemorySink),
        playback? script {} sampleSettings 0 none = some start
          ∧ start.play (sampleSchedule packets) = some s ∧ s.taken.toList.map (·.pts) = times := by
  rcases Option.bind_eq_some_iff.mp htimes with ⟨start, hstart, htimes⟩
  rcases Option.bind_eq_some_iff.mp htimes with ⟨s, hplay, htimes⟩
  exact ⟨start, s, hstart, hplay, Option.some.inj htimes⟩

def unsegmented : StreamScript := { segments := [{ frames := 3, firstPts := 0.45 }] }

theorem sample_respects_start
    : (∃ start s : Playback Unit RawVideoEngine (StreamDump MemorySink),
        playback? unsegmented {} sampleSettings 0 none = some start
          ∧ start.play (sampleSchedule 3) = some s
          ∧ s.taken.toList.map (·.pts) = [some ⟨0.53⟩] ∧ s.Respects ⟨0.5⟩)
        ∧ ∃ start s start' s' : Playback Unit RawVideoEngine (StreamDump MemorySink),
            playback? .demo {} sampleSettings 0 none = some start
              ∧ start.play (sampleSchedule 2) = some s
              ∧ playback? .demo {} { sampleSettings with start := none } 0 none = some start'
              ∧ start'.play (sampleSchedule 2) = some s'
              ∧ s'.handed = s.handed ∧ s'.taken = s.taken := by
  have hplain : sampleTimes unsegmented 3 = some [some ⟨0.53⟩] := by decide +kernel
  have hdemo : sampleTimes .demo 2 = some [some ⟨0⟩] := by decide +kernel
  rcases exists_play_of_sampleTimes hplain with ⟨start, s, hstart, hplay, htimes⟩
  rcases exists_play_of_sampleTimes hdemo with ⟨begun, t, hbegun, hplayed, -⟩
  rcases (respects_start_until_switch rfl hbegun hplayed).2.2 (by decide +kernel)
    with ⟨start', s', hstart', hplay', hsame⟩
  refine ⟨⟨start, s, hstart, hplay, htimes, ?_⟩, begun, t, start', s', hbegun, hplayed, hstart',
    hplay', hsame⟩
  exact (respects_start_until_switch rfl hstart hplay).2.1 rfl

theorem demo_precedes_start
    : ∃ start s : Playback Unit RawVideoEngine (StreamDump MemorySink),
        playback? .demo {} sampleSettings 0 none = some start
          ∧ start.play (sampleSchedule 2) = some s
          ∧ ∃ frame ∈ s.taken.toList, ∃ pts, frame.pts = some pts ∧ pts < ⟨0.5⟩ := by
  have hdemo : sampleTimes .demo 2 = some [some ⟨0⟩] := by decide +kernel
  rcases exists_play_of_sampleTimes hdemo with ⟨start, s, hstart, hplay, htimes⟩
  refine ⟨start, s, hstart, hplay, ?_⟩
  rcases List.map_eq_singleton_iff.mp htimes with ⟨frame, hframes, hpts⟩
  refine ⟨frame, by simp [hframes], ⟨0⟩, hpts, by decide +kernel⟩

end Player
end DecodePipeline
