import DecodePipeline.Proofs.Pipeline.Tracing

/-!
This module contains logs of everything that a pipeline asks of its drivers and engines. Engines are
numbered in the order in which they are created, so that a log tells which engine was asked. A pipeline
cannot look into the log, so it does the same with logged engines as without.
-/

namespace DecodePipeline

inductive EngineCall where
  | created (family : String)
  | opened (codec : CodecParams) (decoder : String) (success : Bool)
  | told (command : EngineCommand)
  -- The directive is the one that the engine was told last.
  | sent (packet : Option Packet) (framedrop : FrameDrop) (accepted : Bool)
  | received (answer : Received)
  | closed
  deriving DecidableEq

structure LoggedCall where
  engine : Nat
  call : EngineCall
  deriving DecidableEq

structure LoggedEngine (ε : Type) where
  engine : ε
  number : Nat
  framedrop : FrameDrop := .none

structure LoggedShared (ω : Type) where
  state : ω
  created : Nat := 0
  calls : List LoggedCall := []

namespace LoggedCall

def isOpening (c : LoggedCall) : Bool :=
  match c.call with
  | .opened _ _ success => success
  | _ => false

def isClosing (c : LoggedCall) : Bool := c.call matches .closed

end LoggedCall

namespace LoggedShared

variable {ω : Type}

def log (s : LoggedShared ω) (state : ω) (engine : Nat) (call : EngineCall) : LoggedShared ω :=
  { s with state, calls := s.calls ++ [⟨engine, call⟩] }

def openings (s : LoggedShared ω) : Nat := s.calls.countP (·.isOpening)

def closings (s : LoggedShared ω) : Nat := s.calls.countP (·.isClosing)

theorem openings_log (s : LoggedShared ω) (state : ω) (engine : Nat) (call : EngineCall)
    : (s.log state engine call).openings
        = s.openings + if (⟨engine, call⟩ : LoggedCall).isOpening then 1 else 0 := by
  unfold openings log
  rw [List.countP_append, List.countP_singleton]

theorem closings_log (s : LoggedShared ω) (state : ω) (engine : Nat) (call : EngineCall)
    : (s.log state engine call).closings
        = s.closings + if (⟨engine, call⟩ : LoggedCall).isClosing then 1 else 0 := by
  unfold closings log
  rw [List.countP_append, List.countP_singleton]

end LoggedShared

namespace LoggedEngine

variable {ω ε : Type}

def framedropAfter (e : LoggedEngine ε) : EngineCommand → FrameDrop
  | .setFrameDrop directive => directive
  | _ => e.framedrop

instance [Engine ω ε] : Engine (LoggedShared ω) (LoggedEngine ε) where
  init e s codec decoder :=
    let reply := Engine.init e.engine s.state codec decoder
    ⟨reply.answer, { e with engine := reply.engine },
      s.log reply.shared e.number (.opened codec decoder reply.answer.isOk)⟩
  send e s packet :=
    let reply := Engine.send e.engine s.state packet
    ⟨reply.answer, { e with engine := reply.engine },
      s.log reply.shared e.number (.sent packet e.framedrop reply.answer)⟩
  receive e s :=
    let reply := Engine.receive e.engine s.state
    ⟨reply.answer, { e with engine := reply.engine },
      s.log reply.shared e.number (.received reply.answer)⟩
  control e s command :=
    let reply := Engine.control e.engine s.state command
    ⟨reply.answer, { e with engine := reply.engine, framedrop := e.framedropAfter command },
      s.log reply.shared e.number (.told command)⟩
  uninit e s :=
    let reply := Engine.uninit e.engine s.state
    ⟨(), { e with engine := reply.engine }, s.log reply.shared e.number .closed⟩

end LoggedEngine

def Driver.logged {ω ε : Type} (d : Driver ω ε) : Driver (LoggedShared ω) (LoggedEngine ε) where
  name := d.name
  decoders := d.decoders
  create s :=
    let (engine, state) := d.create s.state
    ({ engine, number := s.created },
      { s.log state s.created (.created d.name) with created := s.created + 1 })

def Likeness.logged (ω ε φ : Type) [Engine ω ε] [PacketFeed φ] :
    Likeness (LoggedShared ω) (LoggedEngine ε) (TracedFeed φ) ω ε φ where
  engine := (·.engine)
  shared := (·.state)
  feed := (·.feed)
  init _ _ _ _ := rfl
  send _ _ _ := rfl
  receive _ _ := rfl
  control _ _ _ := rfl
  uninit _ _ := rfl
  tryRead := TracedFeed.tryRead_feed

theorem Likeness.logged_drives {ω ε : Type} (φ : Type) [Engine ω ε] [PacketFeed φ]
    (drivers : List (Driver ω ε))
    : List.Forall₂ (Likeness.logged ω ε φ).Drives (drivers.map Driver.logged) drivers := by
  induction drivers with
  | nil => exact .nil
  | cons driver drivers ih => exact .cons ⟨rfl, rfl, fun _ => rfl⟩ ih

namespace Pipeline

variable {ω ε φ ρ : Type}

def createLogged (codec : SharedCodec) (drivers : List (Driver ω ε)) (feed : φ) (shared : ω)
    (options : DecoderOptions) (now : UInt64) :
    Pipeline (LoggedShared ω) (LoggedEngine ε) (TracedFeed φ) ρ :=
  create codec (drivers.map Driver.logged) { feed } { state := shared } options now

variable [Engine ω ε] [PacketFeed φ]

def unlogged (p : Pipeline (LoggedShared ω) (LoggedEngine ε) (TracedFeed φ) ρ)
    (drivers : List (Driver ω ε)) : Pipeline ω ε φ ρ :=
  p.image (.logged ω ε φ) drivers

variable [PacketRecorder ρ]

def afterLogged (p : Pipeline (LoggedShared ω) (LoggedEngine ε) (TracedFeed φ) ρ)
    (operations : List (Operation φ ρ)) :
    Pipeline (LoggedShared ω) (LoggedEngine ε) (TracedFeed φ) ρ :=
  p.after (operations.map (·.lift TracedFeed.lift))

theorem afterLogged_concat (p : Pipeline (LoggedShared ω) (LoggedEngine ε) (TracedFeed φ) ρ)
    (operations : List (Operation φ ρ)) (operation : Operation φ ρ)
    : p.afterLogged (operations ++ [operation])
        = (p.afterLogged operations).perform (operation.lift TracedFeed.lift) := by
  unfold afterLogged
  rw [List.map_append, after_append]
  rfl

theorem afterLogged_induct
    {motive : Pipeline (LoggedShared ω) (LoggedEngine ε) (TracedFeed φ) ρ → Prop}
    (p : Pipeline (LoggedShared ω) (LoggedEngine ε) (TracedFeed φ) ρ)
    (operations : List (Operation φ ρ)) (start : motive p)
    (step : ∀ q (operation : Operation φ ρ), operation ∈ operations → motive q →
      motive (q.perform (operation.lift TracedFeed.lift)))
    : motive (p.afterLogged operations) := by
  apply after_induct
  . exact start
  . intro q operation hmem hq
    rcases List.mem_map.mp hmem with ⟨plain, hplain, rfl⟩
    exact step q plain hplain hq

theorem unlogged_afterLogged (p : Pipeline (LoggedShared ω) (LoggedEngine ε) (TracedFeed φ) ρ)
    {drivers : List (Driver ω ε)} (hdrivers : p.drivers = drivers.map Driver.logged)
    (operations : List (Operation φ ρ))
    : (p.afterLogged operations).unlogged drivers = (p.unlogged drivers).after operations := by
  have hdrives : List.Forall₂ (Likeness.logged ω ε φ).Drives p.drivers drivers := by
    rw [hdrivers]
    exact Likeness.logged_drives φ drivers
  exact (image_after p (.logged ω ε φ) drivers hdrives (fun _ _ => rfl) operations).symm

theorem unlogged_createLogged (codec : SharedCodec) (drivers : List (Driver ω ε)) (feed : φ)
    (shared : ω) (options : DecoderOptions) (now : UInt64) (operations : List (Operation φ ρ))
    : ((createLogged codec drivers feed shared options now).afterLogged operations).unlogged drivers
        = (create codec drivers feed shared options now).after operations :=
  unlogged_afterLogged _ rfl operations

def sampleLogged :
    Pipeline (LoggedShared Unit) (LoggedEngine RawVideoEngine) (TracedFeed PacketChannel)
      Collection :=
  createLogged sampleCodec defaultDrivers (sampleFeed [samplePacket]) () {} 0

end Pipeline
end DecodePipeline
