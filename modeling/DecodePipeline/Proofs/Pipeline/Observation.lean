import DecodePipeline.Proofs.Pipeline.Image

/-!
This module contains observers. An observed feed remembers what was read from it, an observed engine for
which codecs it is open, and the state that engines share what was sent to them. Pipelines cannot look
into any of them, so a pipeline does the same with observed parts as without.
-/

namespace DecodePipeline

def Poll.items {α : Type} : Poll α → List α
  | .item read => [read]
  | _ => []

structure ObservedFeed (φ : Type) where
  feed : φ
  read : List Packet := []

namespace ObservedFeed

variable {φ : Type}

instance [PacketFeed φ] : PacketFeed (ObservedFeed φ) where
  tryRead f :=
    let (poll, feed) := PacketFeed.tryRead f.feed
    (poll, ⟨feed, f.read ++ poll.items⟩)

theorem read_of_tryRead [PacketFeed φ] {f g : ObservedFeed φ} {poll : Poll Packet}
    (htry : PacketFeed.tryRead f = (poll, g))
    : g.read = f.read ++ poll.items := by
  cases htry
  rfl

def lift (change : φ → φ) (f : ObservedFeed φ) : ObservedFeed φ := { f with feed := change f.feed }

end ObservedFeed

structure Sending where
  packet : Option Packet
  accepted : Bool
  -- The codecs for which the receiver was opened successfully since it was created or
  -- closed.
  opened : List CodecParams

structure ObservedEngine (ε : Type) where
  engine : ε
  opened : List CodecParams := []

structure ObservedShared (ω : Type) where
  state : ω
  sendings : List Sending := []

namespace ObservedShared

def accepted {ω : Type} (s : ObservedShared ω) : List Packet :=
  s.sendings.filterMap fun sending => if sending.accepted then sending.packet else none

end ObservedShared

namespace ObservedEngine

variable {ω ε : Type}

instance [Engine ω ε] : Engine (ObservedShared ω) (ObservedEngine ε) where
  init e s codec decoder :=
    let reply := Engine.init e.engine s.state codec decoder
    ⟨reply.answer, ⟨reply.engine, if reply.answer.isOk then e.opened ++ [codec] else e.opened⟩,
      { s with state := reply.shared }⟩
  send e s packet :=
    let reply := Engine.send e.engine s.state packet
    ⟨reply.answer, { e with engine := reply.engine },
      ⟨reply.shared, s.sendings ++ [⟨packet, reply.answer, e.opened⟩]⟩⟩
  receive e s :=
    let reply := Engine.receive e.engine s.state
    ⟨reply.answer, { e with engine := reply.engine }, { s with state := reply.shared }⟩
  control e s command :=
    let reply := Engine.control e.engine s.state command
    ⟨reply.answer, { e with engine := reply.engine }, { s with state := reply.shared }⟩
  uninit e s :=
    let reply := Engine.uninit e.engine s.state
    ⟨reply.answer, { engine := reply.engine }, { s with state := reply.shared }⟩

def view [Engine ω ε] :
    Engine.View (ObservedShared ω) (ObservedEngine ε) (Option (List CodecParams) × List Sending) where
  see engine shared := (engine.map (·.opened), shared.sendings)
  receive _ _ := rfl
  control _ _ _ := rfl

end ObservedEngine

def Driver.observed {ω ε : Type} (d : Driver ω ε) :
    Driver (ObservedShared ω) (ObservedEngine ε) where
  name := d.name
  decoders := d.decoders
  create s :=
    let (engine, state) := d.create s.state
    ({ engine }, { s with state })

def Likeness.observed (ω ε φ : Type) [Engine ω ε] [PacketFeed φ] :
    Likeness (ObservedShared ω) (ObservedEngine ε) (ObservedFeed φ) ω ε φ where
  engine := (·.engine)
  shared := (·.state)
  feed := (·.feed)
  init _ _ _ _ := rfl
  send _ _ _ := rfl
  receive _ _ := rfl
  control _ _ _ := rfl
  uninit _ _ := rfl
  tryRead _ := rfl

theorem Likeness.observed_drives {ω ε : Type} (φ : Type) [Engine ω ε] [PacketFeed φ]
    (drivers : List (Driver ω ε))
    : List.Forall₂ (Likeness.observed ω ε φ).Drives (drivers.map Driver.observed) drivers := by
  induction drivers with
  | nil => exact .nil
  | cons driver drivers ih => exact .cons ⟨rfl, rfl, fun _ => rfl⟩ ih

namespace Pipeline

variable {ω ε φ ρ : Type}

def HasObservers (p : Pipeline (ObservedShared ω) (ObservedEngine ε) (ObservedFeed φ) ρ) : Prop :=
  ∃ drivers : List (Driver ω ε), p.drivers = drivers.map Driver.observed

theorem HasObservers.of_eq
    {p q : Pipeline (ObservedShared ω) (ObservedEngine ε) (ObservedFeed φ) ρ}
    (hobservers : p.HasObservers) (hdrivers : q.drivers = p.drivers)
    : q.HasObservers := by
  unfold HasObservers
  rw [hdrivers]
  exact hobservers

variable [Engine ω ε]

theorem openDecoder_sendings
    (p : Pipeline (ObservedShared ω) (ObservedEngine ε) (ObservedFeed φ) ρ)
    (hobservers : p.HasObservers) (codec : SharedCodec)
    : (p.openDecoder codec).2.shared.sendings = p.shared.sendings := by
  rcases hobservers with ⟨drivers, hdrivers⟩
  apply openDecoder_shared (motive := fun s : ObservedShared ω => s.sendings = p.shared.sendings) p
  . intro driver hdriver shared hshared
    rw [hdrivers, List.mem_map] at hdriver
    rcases hdriver with ⟨driver, -, rfl⟩
    exact hshared
  . exact fun _ _ _ _ hshared => hshared
  . exact fun _ _ hshared => hshared
  . rfl

theorem openDecoder_opened
    (p : Pipeline (ObservedShared ω) (ObservedEngine ε) (ObservedFeed φ) ρ)
    (hobservers : p.HasObservers) (codec : SharedCodec)
    (hopen : (p.openDecoder codec).1 = .ok ())
    : (p.openDecoder codec).2.engine.map (·.opened) = some [codec.params] := by
  rcases hobservers with ⟨drivers, hdrivers⟩
  rcases openDecoder_engine p codec hopen with ⟨driver, hdriver, shared, decoder, hanswer, hengine⟩
  rw [hdrivers, List.mem_map] at hdriver
  rcases hdriver with ⟨driver, -, rfl⟩
  rw [hengine]
  dsimp only [Engine.init, Driver.observed] at hanswer ⊢
  simp [hanswer, Except.isOk, Except.toBool]

theorem switchSegment_sendings
    (p : Pipeline (ObservedShared ω) (ObservedEngine ε) (ObservedFeed φ) ρ)
    (hobservers : p.HasObservers)
    : p.switchSegment.shared.sendings = p.shared.sendings := by
  cases hqueued : p.segments.queued with
  | none => rw [switchSegment_of_queued_none p hqueued]
  | some packet =>
    cases hkind : SegmentTracker.switchKind packet p.codec with
    | «continue» =>
      exact congrArg (·.engines.2)
        (outline_switchSegment_continue ObservedEngine.view p hqueued hkind)
    | reinit codec =>
      refine (congrArg (·.engines.2)
        (outline_switchSegment_reinit ObservedEngine.view p hqueued hkind)).trans ?_
      exact openDecoder_sendings (p.switching packet) hobservers codec

theorem readFrame_sendings
    (p : Pipeline (ObservedShared ω) (ObservedEngine ε) (ObservedFeed φ) ρ)
    (hobservers : p.HasObservers)
    : p.readFrame.shared.sendings = p.shared.sendings := by
  rcases readFrame_cases ObservedEngine.view p with ⟨q, houtline, hcases⟩
  have hq : q.shared.sendings = p.shared.sendings := congrArg (·.engines.2) houtline
  have hdrivers : q.drivers = p.drivers := congrArg Outline.drivers houtline
  rcases hcases with hread | ⟨-, -, frame, pts, -, -, hread⟩ | ⟨-, -, hread⟩
  . rw [hread]
    exact hq
  . rw [hread]
    exact hq
  . rw [hread, switchSegment_sendings q (hobservers.of_eq hdrivers)]
    exact hq

def createObserved (codec : SharedCodec) (drivers : List (Driver ω ε)) (feed : φ) (shared : ω)
    (options : DecoderOptions) (now : UInt64) :
    Pipeline (ObservedShared ω) (ObservedEngine ε) (ObservedFeed φ) ρ :=
  create codec (drivers.map Driver.observed) { feed } { state := shared } options now

def openObserved (codec : SharedCodec) (drivers : List (Driver ω ε)) (feed : φ) (shared : ω)
    (options : DecoderOptions) (now : UInt64) :
    Except OpenError Unit × Pipeline (ObservedShared ω) (ObservedEngine ε) (ObservedFeed φ) ρ :=
  (createObserved codec drivers feed shared options now).openDecoder codec

theorem openObserved_drivers (codec : SharedCodec) (drivers : List (Driver ω ε)) (feed : φ)
    (shared : ω) (options : DecoderOptions) (now : UInt64)
    {opened : Except OpenError Unit
      × Pipeline (ObservedShared ω) (ObservedEngine ε) (ObservedFeed φ) ρ}
    (hopened : openObserved codec drivers feed shared options now = opened)
    : opened.2.drivers = drivers.map Driver.observed := by
  rw [← hopened]
  exact congrArg Outline.drivers (outline_openDecoder ObservedEngine.view
    (createObserved codec drivers feed shared options now) codec)

variable [PacketFeed φ]

def plain (p : Pipeline (ObservedShared ω) (ObservedEngine ε) (ObservedFeed φ) ρ)
    (drivers : List (Driver ω ε)) : Pipeline ω ε φ ρ :=
  p.image (.observed ω ε φ) drivers

theorem plain_openObserved (codec : SharedCodec) (drivers : List (Driver ω ε)) (feed : φ)
    (shared : ω) (options : DecoderOptions) (now : UInt64)
    : (openWith codec drivers feed shared options now : _ × Pipeline ω ε φ ρ)
        = (openObserved codec drivers feed shared options now).map id (·.plain drivers) :=
  image_openDecoder (createObserved codec drivers feed shared options now) (.observed ω ε φ) drivers
    (Likeness.observed_drives φ drivers) codec

variable [PacketRecorder ρ]

def afterPlain (p : Pipeline (ObservedShared ω) (ObservedEngine ε) (ObservedFeed φ) ρ)
    (operations : List (Operation φ ρ)) :
    Pipeline (ObservedShared ω) (ObservedEngine ε) (ObservedFeed φ) ρ :=
  p.after (operations.map (·.lift ObservedFeed.lift))

theorem afterPlain_concat
    (p : Pipeline (ObservedShared ω) (ObservedEngine ε) (ObservedFeed φ) ρ)
    (operations : List (Operation φ ρ)) (operation : Operation φ ρ)
    : p.afterPlain (operations ++ [operation])
        = (p.afterPlain operations).perform (operation.lift ObservedFeed.lift) := by
  unfold afterPlain
  rw [List.map_append, after_append]
  rfl

theorem plain_afterPlain
    (p : Pipeline (ObservedShared ω) (ObservedEngine ε) (ObservedFeed φ) ρ)
    {drivers : List (Driver ω ε)} (hdrivers : p.drivers = drivers.map Driver.observed)
    (operations : List (Operation φ ρ))
    : (p.afterPlain operations).plain drivers = (p.plain drivers).after operations := by
  have hdrives : List.Forall₂ (Likeness.observed ω ε φ).Drives p.drivers drivers := by
    rw [hdrivers]
    exact Likeness.observed_drives φ drivers
  exact (image_after p (.observed ω ε φ) drivers hdrives (fun _ _ => rfl) operations).symm

theorem exists_openObserved (codec : SharedCodec) (drivers : List (Driver ω ε)) (feed : φ)
    (shared : ω) (options : DecoderOptions) (now : UInt64) {start : Pipeline ω ε φ ρ}
    (hopen : openWith codec drivers feed shared options now = (.ok (), start))
    : ∃ observed, openObserved codec drivers feed shared options now = (.ok (), observed)
        ∧ ∀ operations : List (Operation φ ρ),
          (observed.afterPlain operations).plain drivers = start.after operations := by
  rw [plain_openObserved] at hopen
  rcases hobserved : openObserved codec drivers feed shared options now with ⟨result, observed⟩
  rw [hobserved] at hopen
  simp only [Prod.map, id_eq, Prod.mk.injEq] at hopen
  rcases hopen with ⟨rfl, hplain⟩
  refine ⟨observed, rfl, ?_⟩
  intro operations
  rw [← hplain]
  exact plain_afterPlain observed
    (openObserved_drivers codec drivers feed shared options now hobserved) operations

end Pipeline
end DecodePipeline
