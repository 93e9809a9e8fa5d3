import DecodePipeline.Proofs.Pipeline.Outline

/-!
This module contains what the opening of a decoder does to engines and to what they share.
-/

namespace DecodePipeline.Pipeline

variable {ω ε φ ρ : Type} [Engine ω ε]

theorem tryDecoders_shared {motive : ω → Prop} (p : Pipeline ω ε φ ρ) (entries : List DecoderEntry)
    (create : ∀ driver ∈ p.drivers, ∀ shared, motive shared → motive (driver.create shared).2)
    (init : ∀ (engine : ε) shared codec decoder, motive shared →
      motive (Engine.init engine shared codec decoder).shared)
    (start : motive p.shared)
    : motive (p.tryDecoders entries).2.shared := by
  have hstep (attempt : Attempt ω ε) (hmem : attempt ∈ Attempt.list p.drivers entries) (shared : ω)
      (hshared : motive shared)
      : motive (attempt.reply shared p.codec.params).shared :=
    init _ _ _ _ (create attempt.driver (Attempt.driver_mem_of_mem_list hmem) shared hshared)
  have htried := p.tryDecoders_tried entries
  generalize p.tryDecoders entries = result at htried ⊢
  cases htried with
  | opened hattempts hbefore hanswer =>
    rw [hattempts] at hstep
    apply hstep _ (List.mem_append_right _ List.mem_cons_self)
    exact hbefore.keeps (fun attempt hmem shared _ _ => hstep attempt (List.mem_append_left _ hmem) shared)
      start
  | failed hattempts => exact hattempts.keeps (fun attempt hmem shared _ _ => hstep attempt hmem shared) start

theorem tryDecoders_engine (p : Pipeline ω ε φ ρ) (entries : List DecoderEntry)
    (hopen : (p.tryDecoders entries).1 = none)
    : ∃ driver ∈ p.drivers, ∃ shared decoder,
        let engine := driver.create shared
        let reply := Engine.init engine.1 engine.2 p.codec.params decoder
        reply.answer = .ok () ∧ (p.tryDecoders entries).2.engine = some reply.engine := by
  have htried := p.tryDecoders_tried entries
  generalize p.tryDecoders entries = result at htried hopen ⊢
  cases htried with
  | @opened before after attempt shared journal hattempts hbefore hanswer =>
    have hmem : attempt ∈ Attempt.list p.drivers entries := by
      rw [hattempts]
      exact List.mem_append_right _ List.mem_cons_self
    exact ⟨attempt.driver, Attempt.driver_mem_of_mem_list hmem, shared, attempt.entry.decoder, hanswer,
      rfl⟩
  | failed => cases hopen

def readied (p : Pipeline ω ε φ ρ) (codec : SharedCodec) : Pipeline ω ε φ ρ :=
  (p.prepareCodec codec).sayAll
    (.candidates codec.params.codec :: (p.prepareCodec codec).candidates.map .candidate)

theorem readied_drivers (p : Pipeline ω ε φ ρ) (codec : SharedCodec)
    : (p.readied codec).drivers = p.drivers :=
  congrArg Outline.drivers (outline_prepareCodec (.nothing ω ε) p codec)

theorem readied_shared (p : Pipeline ω ε φ ρ) (codec : SharedCodec)
    : (p.readied codec).shared = p.releaseEngine.shared := by
  simp [readied, sayAll, prepareCodec, resetSegment, command]

theorem readied_engine (p : Pipeline ω ε φ ρ) (codec : SharedCodec)
    : (p.readied codec).engine = none := by
  have hattached := congrArg Outline.attached (outline_prepareCodec (.nothing ω ε) p codec)
  have hengine : (p.prepareCodec codec).engine = none := by simpa [outline] using hattached
  exact hengine

theorem readied_decoder (p : Pipeline ω ε φ ρ) (codec : SharedCodec)
    : (p.readied codec).decoder = none := by
  simp [readied, sayAll, prepareCodec, resetSegment, command]

theorem openDecoder_eq (p : Pipeline ω ε φ ρ) (codec : SharedCodec)
    : p.openDecoder codec
        = match (p.readied codec).tryDecoders (p.readied codec).candidates with
          | (none, q) => (.ok (), q)
          | (some tried, q) =>
            (.error (if tried.isEmpty then .noDecoder codec.params.codec
                else .allFailed codec.params.codec tried),
              { q.say (.noDecoder codec.params.codec) with status := .ended }) := rfl

theorem openDecoder_of_none (p : Pipeline ω ε φ ρ) (codec : SharedCodec)
    (htried : ((p.readied codec).tryDecoders (p.readied codec).candidates).1 = none)
    : p.openDecoder codec
        = (.ok (), ((p.readied codec).tryDecoders (p.readied codec).candidates).2) := by
  rw [openDecoder_eq]
  generalize (p.readied codec).tryDecoders (p.readied codec).candidates = result at *
  rcases result with ⟨tried, q⟩
  cases htried
  rfl

theorem openDecoder_of_some (p : Pipeline ω ε φ ρ) (codec : SharedCodec) {tried : List DecoderEntry}
    (htried : ((p.readied codec).tryDecoders (p.readied codec).candidates).1 = some tried)
    : ∃ reason, p.openDecoder codec
        = (.error reason,
            { ((p.readied codec).tryDecoders (p.readied codec).candidates).2.say
                (.noDecoder codec.params.codec) with status := .ended }) := by
  rw [openDecoder_eq]
  generalize (p.readied codec).tryDecoders (p.readied codec).candidates = result at *
  rcases result with ⟨tried, q⟩
  cases htried
  exact ⟨_, rfl⟩

theorem openDecoder_tried (p : Pipeline ω ε φ ρ) (codec : SharedCodec)
    : ∃ status journal, (p.openDecoder codec).2
        = { ((p.readied codec).tryDecoders (p.readied codec).candidates).2 with status, journal } := by
  cases htried : ((p.readied codec).tryDecoders (p.readied codec).candidates).1 with
  | none =>
    rw [openDecoder_of_none p codec htried]
    exact ⟨_, _, rfl⟩
  | some tried =>
    rcases openDecoder_of_some p codec htried with ⟨reason, hopen⟩
    rw [hopen]
    exact ⟨_, _, rfl⟩

theorem tryDecoders_eq (p : Pipeline ω ε φ ρ) (entries : List DecoderEntry)
    : ∃ engine decoder shared journal,
        (p.tryDecoders entries).2 = { p with engine, decoder, shared, journal } := by
  have htried := p.tryDecoders_tried entries
  generalize p.tryDecoders entries = result at htried ⊢
  cases htried <;> exact ⟨_, _, _, _, rfl⟩

theorem openDecoder_readied (p : Pipeline ω ε φ ρ) (codec : SharedCodec)
    : ∃ engine decoder shared status journal,
        (p.openDecoder codec).2 = { p.readied codec with engine, decoder, shared, status, journal } := by
  rcases p.openDecoder_tried codec with ⟨status, journal, hopen⟩
  rcases (p.readied codec).tryDecoders_eq (p.readied codec).candidates
    with ⟨engine, decoder, shared, said, htried⟩
  rw [hopen, htried]
  exact ⟨engine, decoder, shared, status, journal, rfl⟩

theorem openDecoder_shared {motive : ω → Prop} (p : Pipeline ω ε φ ρ) (codec : SharedCodec)
    (create : ∀ driver ∈ p.drivers, ∀ shared, motive shared → motive (driver.create shared).2)
    (init : ∀ (engine : ε) shared params decoder, motive shared →
      motive (Engine.init engine shared params decoder).shared)
    (uninit : ∀ (engine : ε) shared, motive shared → motive (Engine.uninit engine shared).shared)
    (start : motive p.shared)
    : motive (p.openDecoder codec).2.shared := by
  have hreleased : motive p.releaseEngine.shared := by
    unfold releaseEngine
    split
    . exact start
    . exact uninit _ _ start
  rw [← readied_shared p codec] at hreleased
  rw [← readied_drivers p codec] at create
  rcases p.openDecoder_tried codec with ⟨status, journal, hopen⟩
  rw [hopen]
  exact tryDecoders_shared (p.readied codec) (p.readied codec).candidates create init hreleased

theorem openDecoder_engine (p : Pipeline ω ε φ ρ) (codec : SharedCodec)
    (hopen : (p.openDecoder codec).1 = .ok ())
    : ∃ driver ∈ p.drivers, ∃ shared decoder,
        let engine := driver.create shared
        let reply := Engine.init engine.1 engine.2 codec.params decoder
        reply.answer = .ok () ∧ (p.openDecoder codec).2.engine = some reply.engine := by
  have hcodec : (p.readied codec).codec = codec :=
    congrArg Outline.codec (outline_prepareCodec (.nothing ω ε) p codec)
  cases hresult : ((p.readied codec).tryDecoders (p.readied codec).candidates).1 with
  | none =>
    have hengine := tryDecoders_engine (p.readied codec) (p.readied codec).candidates hresult
    rw [readied_drivers, hcodec] at hengine
    rw [openDecoder_of_none p codec hresult]
    exact hengine
  | some tried =>
    rcases openDecoder_of_some p codec hresult with ⟨reason, herror⟩
    rw [herror] at hopen
    cases hopen

def released (p : Pipeline ω ε φ ρ) : ω :=
  match p.engine with
  | none => p.shared
  | some engine => (Engine.uninit engine p.shared).shared

theorem readied_shared_eq_released (p : Pipeline ω ε φ ρ) (codec : SharedCodec)
    : (p.readied codec).shared = p.released := by
  rw [readied_shared]
  unfold releaseEngine released
  cases p.engine <;> rfl

def attempts (p : Pipeline ω ε φ ρ) (codec : SharedCodec) : List (Attempt ω ε) :=
  Attempt.list p.drivers
    (DecoderEntry.select (Driver.catalogue p.drivers) codec.params.codec p.options.videoDecoders)

theorem attempts_readied (p : Pipeline ω ε φ ρ) (codec : SharedCodec)
    : Attempt.list (p.readied codec).drivers (p.readied codec).candidates = p.attempts codec := by
  have houtline := outline_prepareCodec (.nothing ω ε) p codec
  have hcodec : (p.readied codec).codec = codec := congrArg Outline.codec houtline
  have hoptions : (p.readied codec).options = p.options := congrArg Outline.options houtline
  unfold attempts candidates
  rw [readied_drivers, hcodec, hoptions]

/--
The attached engine is closed, and then decoders are tried in order, each with an engine of its own. The
first that opens is attached, and the engines share what it has left, so nothing is tried after it. If none
opens, the error names what was tried. In any case nothing is left of the stream before.
-/
theorem openDecoder_first_success_wins (p : Pipeline ω ε φ ρ) (codec : SharedCodec)
    : let attempts := p.attempts codec
      let name := codec.params.codec
      let tried := ", ".intercalate
        (attempts.map fun attempt => attempt.entry.family ++ ":" ++ attempt.entry.decoder)
      let new : Pipeline ω ε φ ρ := create codec p.drivers p.feed p.shared p.options p.now
      let (result, q) := p.openDecoder codec
      ((∃ before attempt after shared,
          attempts = before ++ attempt :: after
            ∧ Attempt.Fail codec.params p.released before shared
            ∧ let reply := attempt.reply shared codec.params
              reply.answer = .ok () ∧ result = .ok () ∧ q.engine = some reply.engine
                ∧ q.shared = reply.shared
                ∧ q.decoder = some s!"{attempt.entry.decoder} ({attempt.entry.summary})"
                ∧ q.status = .again)
          ∨ (Attempt.Fail codec.params p.released attempts q.shared
            ∧ result = .error (.ofAttempts name attempts)
            ∧ (OpenError.ofAttempts name attempts).message
              = (if attempts.isEmpty then s!"no video decoder available for codec '{name}'"
                else s!"failed to initialize a video decoder for codec '{name}' (tried {tried})")
            ∧ q.engine = none ∧ q.decoder = none ∧ q.status = .ended))
        ∧ q.codec = codec ∧ q.pending = new.pending ∧ q.ready = new.ready
        ∧ q.startCut = new.startCut ∧ q.params = new.params ∧ q.timeline = new.timeline := by
  have hcodec : (p.readied codec).codec = codec :=
    congrArg Outline.codec (outline_prepareCodec (.nothing ω ε) p codec)
  have htried := (p.readied codec).tryDecoders_tried (p.readied codec).candidates
  rw [attempts_readied] at htried
  rw [openDecoder_eq]
  generalize (p.readied codec).tryDecoders (p.readied codec).candidates = result at htried
  cases htried with
  | @opened before after attempt shared journal hattempts hbefore hanswer =>
    rw [hcodec, readied_shared_eq_released] at hbefore
    rw [hcodec] at hanswer
    refine ⟨.inl ⟨before, attempt, after, shared, hattempts, hbefore, hanswer, rfl, ?_, ?_, rfl, rfl⟩,
      hcodec, rfl, rfl, rfl, rfl, rfl⟩
    . dsimp only
      rw [hcodec]
    . dsimp only
      rw [hcodec]
  | @failed shared journal hattempts =>
    rw [hcodec, readied_shared_eq_released] at hattempts
    refine ⟨.inr ⟨hattempts, ?_, OpenError.message_ofAttempts .., p.readied_engine codec,
      p.readied_decoder codec, rfl⟩, hcodec, rfl, rfl, rfl, rfl, rfl⟩
    unfold OpenError.ofAttempts
    rw [List.isEmpty_map]

end DecodePipeline.Pipeline
