import DecodePipeline.Proofs.Playback.Completion
import DecodePipeline.Script.Basic

/-!
This module contains the playback of scripts of uncompressed video: under every schedule each packet
that its segment does not exclude gives one frame, in the order of the script, and then the stream
ends.
-/

namespace DecodePipeline

namespace SegmentScript

structure Playable (s : SegmentScript) : Prop where
  codec : s.codec = "rawvideo"
  width : s.width ≠ 0
  height : s.height ≠ 0
  start : ∀ t, s.start = some t → t.isNaN = false
  stop : ∀ t, s.stop = some t → t.isNaN = false

def keeps (s : SegmentScript) (t : Timestamp) : Bool :=
  !(s.start.any fun start => t.seconds < start) && !(s.stop.any fun stop => t.seconds ≥ stop)

def picture (s : SegmentScript) (index : Nat) : Picture where
  payload := ⟨Array.replicate s.payloadSize index.toUInt8⟩
  pts := some (s.time index)
  size := (s.width, s.height)

def pictures (s : SegmentScript) : List Picture :=
  ((List.range s.frames.toNat).filter fun index => s.keeps (s.time index)).map s.picture

variable {s : SegmentScript} {label : Option SegmentLabel} {index : Nat}

theorem keeps_eq (s : SegmentScript) (t : Timestamp)
    : s.keeps t = !(s.bounds.isPastEnd t || s.bounds.isBeforeStart t) := by
  have hstart : s.bounds.isBeforeStart t = s.start.any fun start => t.seconds < start := by
    unfold SegmentBounds.isBeforeStart bounds
    cases s.start <;> rfl
  have hstop : s.bounds.isPastEnd t = s.stop.any fun stop => t.seconds ≥ stop := by
    unfold SegmentBounds.isPastEnd bounds
    cases s.stop <;> rfl
  unfold keeps
  rw [hstart, hstop, Bool.not_or, Bool.and_comm]

theorem anyTime_packet : (s.packet label index).anyTime = some (s.time index) := by
  unfold packet Packet.anyTime
  dsimp only
  split <;> rfl

theorem shown_packet {first : SharedCodec} (hbounds : (s.packet label index).bounds = s.bounds)
    (hcodec : ((s.packet label index).codec.getD first).params = s.codecParams)
    : (s.packet label index).shown first
        = if s.keeps (s.time index) then some (s.picture index) else none := by
  unfold Packet.shown
  rw [anyTime_packet, hbounds, hcodec, keeps_eq, Option.any_some]
  cases s.bounds.isPastEnd (s.time index) || s.bounds.isBeforeStart (s.time index) with
  | true => rfl
  | false => rfl

theorem shown_packets {first : SharedCodec} (hbounds : (label.map (·.bounds)).getD {} = s.bounds)
    (hcodec : ((label.bind (·.codec)).getD first).params = s.codecParams)
    : (s.packets label).filterMap (·.shown first) = s.pictures := by
  unfold packets pictures
  rw [List.filterMap_map, ← List.filterMap_eq_filter, List.map_filterMap]
  congr 1
  funext index
  rw [Function.comp_apply, shown_packet hbounds hcodec]
  cases hkeeps : s.keeps (s.time index) <;> simp [Option.guard, hkeeps]

end SegmentScript

namespace StreamScript

def pictures (script : StreamScript) : List Picture := script.segments.flatMap (·.pictures)

section Expansion

variable {script : StreamScript} {first segment : SegmentScript} {rest : List SegmentScript}
  {index : Nat}

theorem segment_of_unsegmented (hsegments : script.segments = first :: rest)
    (hsegmented : script.isSegmented = false) (hget : script.segments[index]? = some segment)
    : segment = first ∧ segment.bounds = {} := by
  unfold isSegmented SegmentScript.isBounded at hsegmented
  rw [hsegments] at hsegmented hget
  cases rest with
  | nil =>
    have hsame : segment = first := by
      rw [List.getElem?_singleton] at hget
      split at hget
      . exact (Option.some.inj hget).symm
      . cases hget
    subst hsame
    simp at hsegmented
    unfold SegmentScript.bounds
    rw [hsegmented.1, hsegmented.2]
    exact ⟨rfl, rfl⟩
  | cons second rest => simp at hsegmented

theorem label_spec (hsegments : script.segments = first :: rest)
    (hget : script.segments[index]? = some segment)
    : ((script.label segment index).map (·.bounds)).getD {} = segment.bounds
        ∧ (((script.label segment index).bind (·.codec)).getD ⟨0, first.codecParams⟩).params
          = segment.codecParams := by
  unfold label
  cases hsegmented : script.isSegmented with
  | true => exact ⟨rfl, rfl⟩
  | false =>
    rcases segment_of_unsegmented hsegments hsegmented hget with ⟨hsame, hbounds⟩
    rw [hbounds, hsame]
    exact ⟨rfl, rfl⟩

def expansion (script : StreamScript) : List Packet :=
  (script.segments.mapIdx fun index segment =>
    segment.packets (script.label segment index)).flatten

theorem packets_eq (hsegments : script.segments = first :: rest)
    : script.packets = .ok (⟨0, first.codecParams⟩, script.expansion) := by
  unfold packets expansion
  rw [hsegments]

theorem shown_expansion (hsegments : script.segments = first :: rest)
    : script.expansion.filterMap (·.shown ⟨0, first.codecParams⟩) = script.pictures := by
  unfold expansion pictures
  rw [List.filterMap_flatten, List.flatMap_def]
  congr 1
  apply List.ext_getElem?
  intro index
  rw [List.getElem?_map, List.getElem?_mapIdx, List.getElem?_map]
  cases hget : script.segments[index]? with
  | none => rfl
  | some segment =>
    rcases label_spec hsegments hget with ⟨hbounds, hcodec⟩
    rw [Option.map_some, Option.map_some, Option.map_some,
      SegmentScript.shown_packets hbounds hcodec]

theorem mem_expansion {x : Packet} (hx : x ∈ script.expansion)
    : ∃ (index : Nat) (segment : SegmentScript) (i : Nat),
        script.segments[index]? = some segment
          ∧ x = segment.packet (script.label segment index) i := by
  unfold expansion SegmentScript.packets at hx
  rcases List.mem_flatten.mp hx with ⟨packets, hpackets, hx⟩
  rcases List.mem_mapIdx.mp hpackets with ⟨index, hindex, rfl⟩
  rcases List.mem_map.mp hx with ⟨i, -, rfl⟩
  exact ⟨index, script.segments[index], i, List.getElem?_eq_getElem hindex, rfl⟩

theorem codec_packet {label : Option SegmentLabel} {i : Nat}
    : (segment.packet label i).codec = label.bind (·.codec) := rfl

theorem codec_of_label {codec : SharedCodec} {i : Nat}
    (hcodec : (segment.packet (script.label segment index) i).codec = some codec)
    : codec = ⟨index, segment.codecParams⟩ := by
  rw [codec_packet] at hcodec
  unfold label at hcodec
  split at hcodec
  . exact (Option.some.inj hcodec).symm
  . cases hcodec

theorem params_of_mem_codecsOf (hsegments : script.segments = first :: rest) {codec : SharedCodec}
    (hmem : codec ∈ codecsOf ⟨0, first.codecParams⟩ script.expansion)
    : ∃ segment, script.segments[codec.ident]? = some segment
        ∧ codec.params = segment.codecParams := by
  rcases List.mem_cons.mp hmem with rfl | hmem
  . refine ⟨first, ?_, rfl⟩
    rw [hsegments]
    rfl
  . rcases List.mem_filterMap.mp hmem with ⟨x, hx, hcodec⟩
    rcases mem_expansion hx with ⟨index, segment, i, hget, rfl⟩
    have hsame := codec_of_label hcodec
    subst hsame
    exact ⟨segment, hget, rfl⟩

theorem decodable_of_playable (hplayable : segment.Playable)
    : SharedCodec.Decodable ⟨index, segment.codecParams⟩ :=
  ⟨hplayable.codec, hplayable.width, hplayable.height⟩

theorem proper_of_playable (hplayable : segment.Playable) : segment.bounds.Proper := by
  refine ⟨?_, ?_⟩
  . cases hstart : segment.start with
    | none => simp [SegmentScript.bounds, hstart]
    | some t =>
      simp only [SegmentScript.bounds, hstart, Option.map_some]
      exact Timestamp.beq_self (hplayable.start t hstart)
  . cases hstop : segment.stop with
    | none => simp [SegmentScript.bounds, hstop]
    | some t =>
      simp only [SegmentScript.bounds, hstop, Option.map_some]
      exact Timestamp.beq_self (hplayable.stop t hstop)

theorem plainStream (hsegments : script.segments = first :: rest)
    (hplayable : ∀ segment ∈ script.segments, segment.Playable)
    : PlainStream ⟨0, first.codecParams⟩ script.expansion := by
  have hsegment {index : Nat} {segment : SegmentScript}
      (hget : script.segments[index]? = some segment) : segment.Playable :=
    hplayable segment (List.mem_of_getElem? hget)
  refine ⟨⟨?_, ?_⟩, ?_, ?_, ?_, ?_⟩
  . apply decodable_of_playable
    apply hplayable
    rw [hsegments]
    exact List.mem_cons_self
  . intro x hx codec hcodec
    rcases mem_expansion hx with ⟨index, segment, i, hget, rfl⟩
    rw [codec_of_label hcodec]
    exact decodable_of_playable (hsegment hget)
  . intro x hx
    rcases mem_expansion hx with ⟨index, segment, i, hget, rfl⟩
    refine ⟨segment.time i, rfl, ?_⟩
    unfold SegmentScript.packet
    dsimp only
    split
    . exact Or.inl rfl
    . exact Or.inr rfl
  . intro x hx
    rcases mem_expansion hx with ⟨index, segment, i, hget, rfl⟩
    have hbounds : (segment.packet (script.label segment index) i).bounds = segment.bounds :=
      (label_spec hsegments hget).1
    rw [hbounds]
    exact proper_of_playable (hsegment hget)
  . cases hsegmented : script.isSegmented with
    | true =>
      right
      intro x hx
      rcases mem_expansion hx with ⟨index, segment, i, hget, rfl⟩
      rw [codec_packet]
      unfold label
      rw [if_pos hsegmented]
      rfl
    | false =>
      left
      intro x hx
      rcases mem_expansion hx with ⟨index, segment, i, hget, rfl⟩
      unfold SegmentScript.packet label
      dsimp only
      rw [hsegmented]
      rfl
  . intro a ha b hb hident
    rcases params_of_mem_codecsOf hsegments ha with ⟨segment, hget, hparams⟩
    rcases params_of_mem_codecsOf hsegments hb with ⟨segment', hget', hparams'⟩
    rw [hident] at hget
    rw [hget] at hget'
    rw [hparams, hparams', Option.some.inj hget']

end Expansion

section Playing

variable {ω ρ : Type}

def size (script : StreamScript) : Nat := (script.segments.map (·.frames.toNat)).sum

theorem length_expansion (script : StreamScript) : script.expansion.length = script.size := by
  unfold expansion size
  rw [List.length_flatten]
  congr 1
  apply List.ext_getElem?
  intro index
  rw [List.getElem?_map, List.getElem?_mapIdx, List.getElem?_map]
  cases script.segments[index]? with
  | none => rfl
  | some segment => simp [SegmentScript.packets]

def playback? (script : StreamScript) (shared : ω) (now : UInt64) (framedrop : Bool)
    (feedRoom outputRoom : Nat) : Option (Playback ω RawVideoEngine ρ) :=
  match script.packets with
  | .error _ => none
  | .ok (codec, packets) =>
    match Pipeline.openWith codec defaultDrivers (PacketChannel.ofCapacity feedRoom) shared {} now with
    | (.error _, _) => none
    | (.ok (), pipeline) =>
      (Playback.start (pipeline.setFramedrop framedrop) packets
        (some (.ofCapacity outputRoom))).toOption

theorem sound_playback {script : StreamScript} {first : SegmentScript} {rest : List SegmentScript}
    (hsegments : script.segments = first :: rest)
    (hplayable : ∀ segment ∈ script.segments, segment.Playable) (shared : ω) (now : UInt64)
    (framedrop : Bool) (feedRoom outputRoom : Nat)
    : ∃ start : Playback ω RawVideoEngine ρ,
        script.playback? shared now framedrop feedRoom outputRoom = some start
          ∧ start.Sound { packets := script.expansion } ⟨0, first.codecParams⟩ script.expansion
          ∧ start.weight = 8 * script.size + 9 := by
  have hopened : ∃ pipeline : Pipeline ω RawVideoEngine PacketChannel ρ, _ :=
    Pipeline.follows_openWith (plainStream hsegments hplayable) (.ofCapacity feedRoom) shared now
  rcases hopened with ⟨pipeline, hopen, hfollows, hfeed, hpending⟩
  have hfollows' : (pipeline.setFramedrop framedrop).Follows ⟨0, first.codecParams⟩ script.expansion :=
    hfollows.of_core rfl
  have hstarted : ∃ start, Playback.start (pipeline.setFramedrop framedrop) script.expansion
      (some (.ofCapacity outputRoom)) = .ok start := ⟨_, rfl⟩
  rcases hstarted with ⟨start, hstart⟩
  rcases Playback.sound_start hfollows' hfeed hpending hstart with ⟨hsound, hweight⟩
  rw [length_expansion] at hweight
  refine ⟨start, ?_, hsound, hweight⟩
  unfold playback?
  rw [packets_eq hsegments]
  dsimp only
  rw [hopen]
  dsimp only
  rw [hstart]
  rfl

variable [PacketRecorder ρ]

/--
Under every schedule the pictures of a script arrive in order, within a number of steps that the
script determines, and then the stream ends.
-/
theorem plays_pictures (script : StreamScript) (hsegments : script.segments ≠ [])
    (hplayable : ∀ segment ∈ script.segments, segment.Playable) (shared : ω) (now : UInt64)
    (framedrop : Bool) (feedRoom outputRoom : Nat)
    : ∃ start : Playback ω RawVideoEngine ρ,
        script.playback? shared now framedrop feedRoom outputRoom = some start
          ∧ ∀ schedule s, start.play schedule = some s →
              s.Delivers script.pictures ∧ schedule.length ≤ 8 * script.size + 9 := by
  rcases List.exists_cons_of_ne_nil hsegments with ⟨first, rest, hcases⟩
  have hplain := plainStream hcases hplayable
  rcases sound_playback hcases hplayable shared now framedrop feedRoom outputRoom
    with ⟨start, hstart, hsound, hweight⟩
  refine ⟨start, hstart, ?_⟩
  intro schedule s hplay
  rw [← shown_expansion hcases, ← hweight]
  exact hsound.delivers hplain hplay

theorem demo_plays_pictures
    : demo.segments ≠ [] ∧ (∀ segment ∈ demo.segments, segment.Playable) ∧ demo.pictures.length = 50
        ∧ ∃ start : Playback Unit RawVideoEngine Collection,
            demo.playback? () 0 true 8 8 = some start
              ∧ ∀ schedule s, start.play schedule = some s →
                  s.Delivers demo.pictures ∧ schedule.length ≤ 8 * demo.size + 9 := by
  have hplayable : ∀ segment ∈ demo.segments, segment.Playable := by
    unfold demo
    rw [List.forall_mem_cons, List.forall_mem_singleton]
    refine ⟨⟨rfl, by decide, by decide, ?_, ?_⟩, ⟨rfl, by decide, by decide, ?_, ?_⟩⟩
    all_goals
      intro t ht
      cases ht
      decide +kernel
  refine ⟨by decide, hplayable, by decide +kernel, ?_⟩
  exact plays_pictures demo (by decide) hplayable () 0 true 8 8

theorem run_plays_pictures (script : StreamScript) (hsegments : script.segments ≠ [])
    (hplayable : ∀ segment ∈ script.segments, segment.Playable) (shared : ω) (now : UInt64)
    (framedrop : Bool) (feedRoom outputRoom : Nat)
    : ∃ start : Playback ω RawVideoEngine ρ,
        script.playback? shared now framedrop feedRoom outputRoom = some start
          ∧ ∀ rounds, 8 * script.size + 9 < rounds →
              (start.run rounds).isOver = true
                ∧ (start.run rounds).taken.toList.map Frame.picture = script.pictures := by
  rcases List.exists_cons_of_ne_nil hsegments with ⟨first, rest, hcases⟩
  rcases sound_playback hcases hplayable shared now framedrop feedRoom outputRoom
    with ⟨start, hstart, hsound, hweight⟩
  refine ⟨start, hstart, ?_⟩
  intro rounds hrounds
  rw [← hweight] at hrounds
  rcases hsound.run (plainStream hcases hplayable) hrounds with ⟨hover, producer, hsound'⟩
  have hgone : (start.run rounds).consumerGone = true := by
    unfold Playback.isOver at hover
    exact (Bool.and_eq_true _ _ ▸ hover).2
  rw [← shown_expansion hcases]
  exact ⟨hover, (hsound'.ended hgone).2⟩

end Playing

end StreamScript

end DecodePipeline
