import DecodePipeline.Decoder.RawVideo
import DecodePipeline.Proofs.Decoder.Selection
import DecodePipeline.Proofs.Pipeline.Opening

/-!
This module contains which decoder a pipeline with the program's own drivers opens. There is only one,
so a codec opens if the user's selection leaves that decoder and the codec tells the size of its
pictures.
-/

namespace DecodePipeline

def RawVideoEngine.entry : DecoderEntry :=
  ⟨name, name, name, "uncompressed video passthrough"⟩

namespace DecoderOptions

def entriesFor (options : DecoderOptions) (codec : CodecParams) : List DecoderEntry :=
  DecoderEntry.select [RawVideoEngine.entry] codec.codec options.videoDecoders

def opens (options : DecoderOptions) (codec : CodecParams) : Bool :=
  !(options.entriesFor codec).isEmpty && codec.width != 0 && codec.height != 0

theorem mem_entriesFor {options : DecoderOptions} {codec : CodecParams} {entry : DecoderEntry}
    (hmem : entry ∈ options.entriesFor codec)
    : entry = RawVideoEngine.entry ∧ codec.codec = RawVideoEngine.name := by
  rcases DecoderEntry.mem_catalogue_of_mem_select hmem with ⟨hcatalogue, hcodec⟩
  have hentry := List.mem_singleton.mp hcatalogue
  refine ⟨hentry, ?_⟩
  rw [← hcodec, hentry]
  rfl

end DecoderOptions

namespace Pipeline

variable {ω φ ρ : Type}

def opened (p : Pipeline ω RawVideoEngine φ ρ) (codec : SharedCodec) :
    Pipeline ω RawVideoEngine φ ρ :=
  { ((p.readied codec).say (.opening RawVideoEngine.name)).say
      (.selected RawVideoEngine.entry.description) with
    engine := some { params := some (.ofSize codec.params.width codec.params.height) }
    decoder := some RawVideoEngine.entry.description }

variable {p : Pipeline ω RawVideoEngine φ ρ}

theorem candidates_of_default (hdrivers : p.drivers = defaultDrivers)
    : p.candidates = p.options.entriesFor p.codec.params := by
  unfold candidates
  rw [hdrivers]
  rfl

theorem openReply_of_default (p : Pipeline ω RawVideoEngine φ ρ)
    : p.openReply RawVideoEngine.driver RawVideoEngine.entry
        = ⟨(RawVideoEngine.init {} p.codec.params RawVideoEngine.name).1,
            (RawVideoEngine.init {} p.codec.params RawVideoEngine.name).2, p.shared⟩ := rfl

theorem find?_of_default (hdrivers : p.drivers = defaultDrivers)
    : Driver.find? p.drivers RawVideoEngine.entry.family = some RawVideoEngine.driver := by
  rw [hdrivers]
  rfl

theorem tryDecoders_of_failing (p : Pipeline ω RawVideoEngine φ ρ)
    (hdrivers : p.drivers = defaultDrivers) {reason : String} {entries : List DecoderEntry}
    (hentries : ∀ entry ∈ entries, entry = RawVideoEngine.entry)
    (hinit : (RawVideoEngine.init {} p.codec.params RawVideoEngine.name).1 = .error reason)
    : (p.tryDecoders entries).1 = some entries := by
  induction entries generalizing p with
  | nil => rfl
  | cons entry rest ih =>
    rcases List.forall_mem_cons.mp hentries with ⟨rfl, hrest⟩
    have hanswer := (congrArg Reply.answer (openReply_of_default p)).trans hinit
    rw [tryDecoders_of_error p (find?_of_default hdrivers) hanswer]
    have htried := ih ((p.attempted RawVideoEngine.driver RawVideoEngine.entry).say
      (.initFailed RawVideoEngine.entry.decoder reason)) hdrivers hrest hinit
    exact congrArg (Option.map (RawVideoEngine.entry :: ·)) htried

theorem readied_settings (p : Pipeline ω RawVideoEngine φ ρ) (codec : SharedCodec)
    : (p.readied codec).drivers = p.drivers ∧ (p.readied codec).options = p.options
        ∧ (p.readied codec).codec = codec ∧ (p.readied codec).engine = none := by
  have houtline := outline_prepareCodec (.nothing ω RawVideoEngine) p codec
  have hengine : (p.prepareCodec codec).engine = none := by
    simpa [outline] using congrArg Outline.attached houtline
  exact ⟨congrArg Outline.drivers houtline, congrArg Outline.options houtline,
    congrArg Outline.codec houtline, hengine⟩

theorem openDecoder_of_opens (hdrivers : p.drivers = defaultDrivers) {codec : SharedCodec}
    (hopens : p.options.opens codec.params = true)
    : p.openDecoder codec = (.ok (), p.opened codec) := by
  rcases p.readied_settings codec with ⟨hsame, hoptions, hcodec, -⟩
  rw [hdrivers] at hsame
  unfold DecoderOptions.opens at hopens
  simp only [Bool.and_eq_true, Bool.not_eq_true', bne_iff_ne] at hopens
  rcases hopens with ⟨⟨hsome, hwidth⟩, hheight⟩
  rcases List.exists_cons_of_ne_nil (List.isEmpty_eq_false_iff.mp hsome) with ⟨entry, rest, hentries⟩
  rcases DecoderOptions.mem_entriesFor (hentries ▸ List.mem_cons_self) with ⟨rfl, hname⟩
  have hcandidates : (p.readied codec).candidates = RawVideoEngine.entry :: rest := by
    rw [candidates_of_default hsame, hoptions, hcodec, hentries]
  have hinit : RawVideoEngine.init {} (p.readied codec).codec.params RawVideoEngine.name
      = (.ok (), { params := some (.ofSize codec.params.width codec.params.height) }) := by
    unfold RawVideoEngine.init
    rw [hcodec, if_neg (by simp [hname]), if_neg (by simp [hwidth, hheight])]
  have hreply := openReply_of_default (p.readied codec)
  rw [hinit] at hreply
  have htried := tryDecoders_of_ok (p.readied codec) (find?_of_default hsame)
    (congrArg Reply.answer hreply) rest
  rw [← hcandidates] at htried
  rw [openDecoder_of_none p codec (congrArg Prod.fst htried), htried]
  unfold attempted
  rw [hreply]
  rfl

theorem openDecoder_of_not_opens (hdrivers : p.drivers = defaultDrivers) {codec : SharedCodec}
    (hopens : p.options.opens codec.params = false)
    : ∃ reason, (p.openDecoder codec).1 = .error reason ∧ (p.openDecoder codec).2.engine = none
        ∧ (p.openDecoder codec).2.status = .ended := by
  rcases p.readied_settings codec with ⟨hsame, hoptions, hcodec, hengine⟩
  rw [hdrivers] at hsame
  have hcandidates : (p.readied codec).candidates = p.options.entriesFor codec.params := by
    rw [candidates_of_default hsame, hoptions, hcodec]
  have htried : ((p.readied codec).tryDecoders (p.readied codec).candidates).1
      = some (p.readied codec).candidates := by
    rw [hcandidates]
    cases hentries : p.options.entriesFor codec.params with
    | nil => rfl
    | cons entry rest =>
      have hfailing : ∃ reason,
          (RawVideoEngine.init {} (p.readied codec).codec.params RawVideoEngine.name).1
            = .error reason := by
        unfold DecoderOptions.opens at hopens
        rw [hentries] at hopens
        unfold RawVideoEngine.init
        rw [hcodec]
        split
        . exact ⟨_, rfl⟩
        . refine ⟨_, congrArg Prod.fst (if_pos ?_)⟩
          simp only [List.isEmpty_cons, Bool.not_false, Bool.true_and] at hopens
          rw [Bool.and_eq_false_iff] at hopens
          simpa [bne] using hopens
      rcases hfailing with ⟨reason, hinit⟩
      apply tryDecoders_of_failing (p.readied codec) hsame _ hinit
      rw [← hentries]
      exact fun entry hmem => (DecoderOptions.mem_entriesFor hmem).1
  have hleft : ((p.readied codec).tryDecoders (p.readied codec).candidates).2.engine = none := by
    have houtline := outline_tryDecoders (.nothing ω RawVideoEngine) (p.readied codec)
      (p.readied codec).candidates hengine
    have hattached := congrArg Outline.attached houtline
    rw [htried] at hattached
    simpa [outline] using hattached
  rcases openDecoder_of_some p codec htried with ⟨reason, hopen⟩
  rw [hopen]
  exact ⟨reason, rfl, hleft, rfl⟩

end Pipeline
end DecodePipeline
