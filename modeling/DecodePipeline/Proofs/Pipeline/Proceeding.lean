import DecodePipeline.Proofs.Pipeline.Feeding

/-!
This module contains what a pipeline keeps as long as it starts no segment and opens no decoder: its
codec, its decoder and what is fixed about the engine, its start, and what it has said so far.
-/

namespace DecodePipeline

structure Engine.Trait (ω ε α : Type) [Engine ω ε] where
  of : ε → α
  receive : ∀ (engine : ε) (shared : ω), of (Engine.receive engine shared).engine = of engine
  control : ∀ (engine : ε) (shared : ω) (command : EngineCommand),
    of (Engine.control engine shared command).engine = of engine
  send : ∀ (engine : ε) (shared : ω) (packet : Option Packet),
    of (Engine.send engine shared packet).engine = of engine

def Engine.Trait.nothing (ω ε : Type) [Engine ω ε] : Engine.Trait ω ε Unit where
  of _ := ()
  receive _ _ := rfl
  control _ _ _ := rfl
  send _ _ _ := rfl

def RawVideoEngine.size (ω : Type) : Engine.Trait ω RawVideoEngine (Option ImageParams) where
  of e := e.params
  receive e shared := by
    cases e with | mk params queue framedrop draining => cases queue <;> rfl
  control e shared command := by cases command <;> rfl
  send e shared packet := by
    change (e.send packet).2.params = e.params
    unfold RawVideoEngine.send sendPacket
    repeat' split
    all_goals rfl

namespace Pipeline

variable {ω ε φ ρ α : Type} [Engine ω ε]

structure Proceeds (trait : Engine.Trait ω ε α) (p q : Pipeline ω ε φ ρ) : Prop where
  codec : q.codec = p.codec
  drivers : q.drivers = p.drivers
  options : q.options = p.options
  decoder : q.decoder = p.decoder
  engine : q.engine.map trait.of = p.engine.map trait.of
  startCut : q.startCut = p.startCut
  journal : ∀ notice ∈ p.journal, notice ∈ q.journal

variable {trait : Engine.Trait ω ε α} {p q r : Pipeline ω ε φ ρ}

theorem Proceeds.refl (p : Pipeline ω ε φ ρ) : Proceeds trait p p :=
  ⟨rfl, rfl, rfl, rfl, rfl, rfl, fun _ hmem => hmem⟩

theorem Proceeds.trans (hpq : Proceeds trait p q) (hqr : Proceeds trait q r)
    : Proceeds trait p r where
  codec := hqr.codec.trans hpq.codec
  drivers := hqr.drivers.trans hpq.drivers
  options := hqr.options.trans hpq.options
  decoder := hqr.decoder.trans hpq.decoder
  engine := hqr.engine.trans hpq.engine
  startCut := hqr.startCut.trans hpq.startCut
  journal notice hmem := hqr.journal notice (hpq.journal notice hmem)

theorem proceeds_sayAll (p : Pipeline ω ε φ ρ) (notices : List Notice)
    : Proceeds trait p (p.sayAll notices) :=
  { Proceeds.refl p with journal := fun _ hmem => Array.mem_append_left _ hmem }

theorem proceeds_say (p : Pipeline ω ε φ ρ) (notice : Notice)
    : Proceeds trait p (p.say notice) :=
  { Proceeds.refl p with journal := fun _ hmem => Array.mem_push_of_mem _ hmem }

section Output

theorem proceeds_settleTime (p : Pipeline ω ε φ ρ) (frame : Frame)
    : Proceeds trait p (p.settleTime frame).2 := { p.proceeds_sayAll _ with }

theorem proceeds_settleParams (p : Pipeline ω ε φ ρ) (frame : Frame)
    : Proceeds trait p (p.settleParams frame).2 := { p.proceeds_sayAll _ with }

theorem proceeds_command (p : Pipeline ω ε φ ρ) (request : EngineCommand)
    : Proceeds trait p (p.command request).2 := by
  unfold command
  cases hengine : p.engine with
  | none => exact .refl p
  | some engine =>
    have hself : Proceeds trait p p := .refl p
    refine { hself with engine := ?_ }
    rw [hengine]
    exact congrArg some (trait.control engine p.shared request)

theorem proceeds_compensate (p : Pipeline ω ε φ ρ) (pts : Timestamp)
    : Proceeds trait p (p.compensate pts).2 := by
  rcases p.compensate_cases pts with hkept | hasked
  . rw [hkept]
    exact .refl p
  . rw [hasked]
    exact p.proceeds_command .getFrameDelay

theorem proceeds_finishFrame (p : Pipeline ω ε φ ρ) (frame : Frame)
    : Proceeds trait p (p.finishFrame frame).2.2 :=
  ((p.proceeds_settleTime frame).trans (proceeds_settleParams _ frame)).trans
    (proceeds_compensate _ _)

theorem proceeds_noteMissing (p : Pipeline ω ε φ ρ) : Proceeds trait p p.noteMissing := by
  unfold noteMissing
  split
  . exact { Proceeds.refl p with }
  . exact .refl p

theorem readFrame_proceeds (trait : Engine.Trait ω ε α) (p : Pipeline ω ε φ ρ)
    : ∃ q, Proceeds trait p q ∧ (p.readFrame = q ∨ p.readFrame = q.switchSegment) := by
  have hend (q : Pipeline ω ε φ ρ) : q.endSegment = q ∨ q.endSegment = q.switchSegment := by
    unfold endSegment
    split
    . exact Or.inr rfl
    . exact Or.inl rfl
  cases hengine : p.engine with
  | none => exact ⟨p, .refl p, Or.inl (readFrame_of_detached p hengine)⟩
  | some engine =>
    cases hready : p.ready with
    | some frame => exact ⟨p, .refl p, Or.inl (readFrame_of_ready p (by rw [hready]; rfl))⟩
    | none =>
      have hself : Proceeds trait p p := .refl p
      have hreceived : Proceeds trait p (p.afterReply (Engine.receive engine p.shared)) := by
        refine { hself with engine := ?_ }
        rw [hengine]
        exact congrArg some (trait.receive engine p.shared)
      unfold readFrame
      rw [hengine, hready]
      dsimp only
      generalize p.afterReply (Engine.receive engine p.shared) = received at hreceived ⊢
      split
      . next frame _ =>
        have hfinished := hreceived.trans (proceeds_finishFrame received frame)
        unfold offer
        rcases hfinish : received.finishFrame frame with ⟨pts, kept, finished⟩
        rw [hfinish] at hfinished
        dsimp only at hfinished ⊢
        split
        . split
          . refine ⟨_, ?_, hend _⟩
            exact { hfinished with }
          . refine ⟨_, ?_, Or.inl rfl⟩
            exact { hfinished with }
        . refine ⟨_, ?_, Or.inl rfl⟩
          exact { hfinished with }
      . have hmissing := hreceived.trans (proceeds_noteMissing received)
        refine ⟨_, ?_, Or.inl rfl⟩
        exact { hmissing with }
      . refine ⟨_, ?_, hend _⟩
        exact { hreceived with }

end Output

section Input

theorem proceeds_fillPending [PacketFeed φ] (p : Pipeline ω ε φ ρ)
    : Proceeds trait p p.fillPending.2 := by
  unfold fillPending readFeed
  split
  . exact .refl p
  . rcases PacketFeed.tryRead p.feed with ⟨poll, feed⟩
    cases poll <;> exact { Proceeds.refl p with }

theorem proceeds_holdNewSegment (p : Pipeline ω ε φ ρ)
    : Proceeds trait p p.holdNewSegment := by
  rcases p.holdNewSegment_cases with ⟨hhold, -⟩ | ⟨packet, -, -, hhold⟩
  . rw [hhold]
    exact .refl p
  . rw [hhold]
    exact { p.proceeds_say (.newSegment packet.anyTime) with }

theorem proceeds_sendTo (p : Pipeline ω ε φ ρ) {engine : ε} (hengine : p.engine = some engine)
    (framedrop : FrameDrop)
    : Proceeds trait p (p.sendTo engine framedrop).2 := by
  have hself : Proceeds trait p p := .refl p
  refine { hself with engine := ?_ }
  rw [hengine]
  exact congrArg some ((trait.send ..).trans (trait.control ..))

variable [PacketRecorder ρ]

theorem proceeds_acceptPending (p : Pipeline ω ε φ ρ)
    : Proceeds trait p p.acceptPending := by
  unfold acceptPending
  split
  . exact .refl p
  . unfold record
    split
    . exact { Proceeds.refl p with }
    . exact { Proceeds.refl p with journal := fun _ hmem => Array.mem_append_left _ hmem }

theorem proceeds_sendPending (p : Pipeline ω ε φ ρ) {engine : ε} (hengine : p.engine = some engine)
    : Proceeds trait p (p.sendPending engine) := by
  have hsent : Proceeds trait p (p.sendTo engine p.pendingFrameDrop).2 :=
    p.proceeds_sendTo hengine p.pendingFrameDrop
  unfold sendPending
  dsimp only
  rcases hsend : p.sendTo engine p.pendingFrameDrop with ⟨accepted, q⟩
  rw [hsend] at hsent
  cases accepted with
  | true =>
    have haccepted := hsent.trans (proceeds_acceptPending q)
    exact { haccepted with }
  | false =>
    dsimp only at hsent ⊢
    unfold retryPending
    split
    . exact { hsent with }
    . exact { hsent with }

theorem proceeds_feedPacket [PacketFeed φ] (p : Pipeline ω ε φ ρ)
    : Proceeds trait p p.feedPacket := by
  cases hsending : p.sending with
  | none =>
    rcases p.feedPacket_of_not_sending hsending with hfeed | ⟨-, -, -, hfeed⟩
    . rw [hfeed]
      exact .refl p
    . rw [hfeed]
      exact { Proceeds.refl p with }
  | some sent =>
    rcases sent with ⟨engine, q⟩
    rcases outline_sending (.nothing ω ε) p hsending with ⟨-, -, hengine, -⟩
    rw [feedPacket_of_sending p hsending]
    rcases sending_eq hsending with ⟨-, -, -, rfl⟩
    exact (p.proceeds_fillPending.trans (proceeds_holdNewSegment _)).trans
      (proceeds_sendPending _ hengine)

end Input

end Pipeline
end DecodePipeline
