import DecodePipeline.Pipeline.Opening

/-!
This module contains the search for a decoder that opens: the attempts that are made, in which order, and
with which one they end.
-/

namespace DecodePipeline

variable {ω ε φ ρ : Type}

structure Attempt (ω ε : Type) where
  entry : DecoderEntry
  driver : Driver ω ε

namespace Attempt

def list (drivers : List (Driver ω ε)) (entries : List DecoderEntry) : List (Attempt ω ε) :=
  entries.filterMap fun entry =>
    (drivers.find? (·.name == entry.family)).map fun driver => ⟨entry, driver⟩

theorem list_cons_of_unknown {drivers : List (Driver ω ε)} {entry : DecoderEntry}
    (hdriver : Driver.find? drivers entry.family = none) (rest : List DecoderEntry)
    : list drivers (entry :: rest) = list drivers rest := by
  unfold Driver.find? at hdriver
  unfold list
  rw [List.filterMap_cons, hdriver]
  rfl

theorem list_cons_of_known {drivers : List (Driver ω ε)} {entry : DecoderEntry}
    {driver : Driver ω ε} (hdriver : Driver.find? drivers entry.family = some driver)
    (rest : List DecoderEntry)
    : list drivers (entry :: rest) = ⟨entry, driver⟩ :: list drivers rest := by
  unfold Driver.find? at hdriver
  unfold list
  rw [List.filterMap_cons, hdriver]
  rfl

theorem driver_mem_of_mem_list {drivers : List (Driver ω ε)} {entries : List DecoderEntry}
    {attempt : Attempt ω ε} (hmem : attempt ∈ list drivers entries)
    : attempt.driver ∈ drivers := by
  rcases List.mem_filterMap.mp hmem with ⟨entry, -, hdriver⟩
  rcases Option.map_eq_some_iff.mp hdriver with ⟨driver, hfind, rfl⟩
  exact List.mem_of_find?_eq_some hfind

variable [Engine ω ε]

def reply (attempt : Attempt ω ε) (shared : ω) (codec : CodecParams) :
    Reply ω ε (Except String Unit) :=
  let (engine, shared) := attempt.driver.create shared
  Engine.init engine shared codec attempt.entry.decoder

/-- Attempts one after the other, each with an engine of its own, that all fail. -/
inductive Fail (codec : CodecParams) : ω → List (Attempt ω ε) → ω → Prop where
  | nil {shared : ω} : Fail codec shared [] shared
  | cons {attempt : Attempt ω ε} {rest : List (Attempt ω ε)} {shared after : ω} {reason : String}
    (hanswer : (attempt.reply shared codec).answer = .error reason)
    (hrest : Fail codec (attempt.reply shared codec).shared rest after) :
    Fail codec shared (attempt :: rest) after

theorem Fail.keeps {motive : ω → Prop} {codec : CodecParams} {before after : ω}
    {attempts : List (Attempt ω ε)} (hfail : Fail codec before attempts after)
    (step : ∀ attempt ∈ attempts, ∀ shared reason,
      (attempt.reply shared codec).answer = .error reason → motive shared →
        motive (attempt.reply shared codec).shared)
    (start : motive before)
    : motive after := by
  induction hfail with
  | nil => exact start
  | cons hanswer _ ih =>
    rcases List.forall_mem_cons.mp step with ⟨hfirst, hrest⟩
    exact ih hrest (hfirst _ _ hanswer start)

end Attempt

def OpenError.ofAttempts (codec : String) (attempts : List (Attempt ω ε)) : OpenError :=
  if attempts.isEmpty then .noDecoder codec else .allFailed codec (attempts.map (·.entry))

theorem OpenError.message_ofAttempts (codec : String) (attempts : List (Attempt ω ε))
    : (ofAttempts codec attempts).message
        = let names := ", ".intercalate
            (attempts.map fun attempt => attempt.entry.family ++ ":" ++ attempt.entry.decoder)
          if attempts.isEmpty then s!"no video decoder available for codec '{codec}'"
          else s!"failed to initialize a video decoder for codec '{codec}' (tried {names})" := by
  unfold ofAttempts
  dsimp only
  split
  . rfl
  . unfold message
    dsimp only
    rw [List.map_map]
    rfl

namespace Pipeline

theorem mem_of_find? {drivers : List (Driver ω ε)} {family : String} {driver : Driver ω ε}
    (hfind : Driver.find? drivers family = some driver)
    : driver ∈ drivers := by
  unfold Driver.find? at hfind
  exact List.mem_of_find?_eq_some hfind

variable [Engine ω ε]

def openReply (p : Pipeline ω ε φ ρ) (driver : Driver ω ε) (entry : DecoderEntry) :
    Reply ω ε (Except String Unit) :=
  Engine.init (driver.create p.shared).1 (driver.create p.shared).2 p.codec.params entry.decoder

def attempted (p : Pipeline ω ε φ ρ) (driver : Driver ω ε) (entry : DecoderEntry) :
    Pipeline ω ε φ ρ :=
  { p.say (.opening entry.decoder) with shared := (p.openReply driver entry).shared }

theorem tryDecoders_of_unknown (p : Pipeline ω ε φ ρ) {entry : DecoderEntry}
    (hdriver : Driver.find? p.drivers entry.family = none) (rest : List DecoderEntry)
    : p.tryDecoders (entry :: rest) = p.tryDecoders rest := by
  rw [tryDecoders, hdriver]

theorem tryDecoders_of_ok (p : Pipeline ω ε φ ρ) {entry : DecoderEntry} {driver : Driver ω ε}
    (hdriver : Driver.find? p.drivers entry.family = some driver)
    (hanswer : (p.openReply driver entry).answer = .ok ()) (rest : List DecoderEntry)
    : p.tryDecoders (entry :: rest)
        = (none,
            { (p.attempted driver entry).say (.selected entry.description) with
              engine := some (p.openReply driver entry).engine
              decoder := some entry.description }) := by
  unfold openReply at hanswer
  rw [tryDecoders, hdriver]
  dsimp only
  rw [hanswer]
  rfl

theorem tryDecoders_of_error (p : Pipeline ω ε φ ρ) {entry : DecoderEntry} {driver : Driver ω ε}
    (hdriver : Driver.find? p.drivers entry.family = some driver) {reason : String}
    (hanswer : (p.openReply driver entry).answer = .error reason) (rest : List DecoderEntry)
    : p.tryDecoders (entry :: rest)
        = ((((p.attempted driver entry).say (.initFailed entry.decoder reason)).tryDecoders
              rest).1.map (entry :: ·),
            (((p.attempted driver entry).say (.initFailed entry.decoder reason)).tryDecoders
              rest).2) := by
  unfold openReply at hanswer
  rw [tryDecoders, hdriver]
  dsimp only
  rw [hanswer]
  rfl

inductive Tried (p : Pipeline ω ε φ ρ) (attempts : List (Attempt ω ε)) :
    Option (List DecoderEntry) × Pipeline ω ε φ ρ → Prop where
  | opened {before after : List (Attempt ω ε)} {attempt : Attempt ω ε} {shared : ω}
    {journal : Array Notice} (hattempts : attempts = before ++ attempt :: after)
    (hbefore : Attempt.Fail p.codec.params p.shared before shared)
    (hanswer : (attempt.reply shared p.codec.params).answer = .ok ()) :
    Tried p attempts
      (none,
        { p with
          engine := some (attempt.reply shared p.codec.params).engine
          decoder := some attempt.entry.description
          shared := (attempt.reply shared p.codec.params).shared
          journal })
  | failed {shared : ω} {journal : Array Notice}
    (hattempts : Attempt.Fail p.codec.params p.shared attempts shared) :
    Tried p attempts (some (attempts.map (·.entry)), { p with shared, journal })

theorem tryDecoders_tried (p : Pipeline ω ε φ ρ) (entries : List DecoderEntry)
    : p.Tried (Attempt.list p.drivers entries) (p.tryDecoders entries) := by
  induction entries generalizing p with
  | nil => exact .failed .nil
  | cons entry rest ih =>
    cases hdriver : Driver.find? p.drivers entry.family with
    | none =>
      rw [tryDecoders_of_unknown p hdriver, Attempt.list_cons_of_unknown hdriver]
      exact ih p
    | some driver =>
      rw [Attempt.list_cons_of_known hdriver]
      cases hanswer : (p.openReply driver entry).answer with
      | ok =>
        rw [tryDecoders_of_ok p hdriver hanswer]
        exact @Tried.opened _ _ _ _ _ p _ [] _ ⟨entry, driver⟩ _ _ rfl .nil hanswer
      | error reason =>
        rw [tryDecoders_of_error p hdriver hanswer]
        have hrest := ih ((p.attempted driver entry).say (.initFailed entry.decoder reason))
        generalize ((p.attempted driver entry).say (.initFailed entry.decoder reason)).tryDecoders rest
          = result at hrest
        cases hrest with
        | @opened before after attempt shared journal hattempts hbefore hopened =>
          exact @Tried.opened _ _ _ _ _ p _ (⟨entry, driver⟩ :: before) after attempt shared journal
            (congrArg (⟨entry, driver⟩ :: ·) hattempts) (.cons hanswer hbefore) hopened
        | failed hattempts => exact Tried.failed (.cons hanswer hattempts)

end Pipeline
end DecodePipeline
