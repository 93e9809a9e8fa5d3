import DecodePipeline.Proofs.Pipeline.Image
import DecodePipeline.Proofs.Pipeline.Stepping

/-!
This module contains traces of runs. A traced feed remembers each of its answers, and the state that
engines share remembers what every engine was sent and what it gave. Pipelines cannot look into either,
so a traced pipeline does the same as one without traces.
-/

namespace DecodePipeline

structure TracedFeed (φ : Type) where
  feed : φ
  polls : List (Poll Packet) := []

namespace TracedFeed

variable {φ : Type}

instance [PacketFeed φ] : PacketFeed (TracedFeed φ) where
  tryRead f :=
    let (poll, feed) := PacketFeed.tryRead f.feed
    (poll, ⟨feed, f.polls ++ [poll]⟩)

theorem polls_of_tryRead [PacketFeed φ] {f g : TracedFeed φ} {poll : Poll Packet}
    (htry : PacketFeed.tryRead f = (poll, g))
    : g.polls = f.polls ++ [poll] := by
  cases htry
  rfl

theorem tryRead_feed [PacketFeed φ] (f : TracedFeed φ)
    : PacketFeed.tryRead f.feed = ((PacketFeed.tryRead f).1, (PacketFeed.tryRead f).2.feed) := rfl

def lift (change : φ → φ) (f : TracedFeed φ) : TracedFeed φ := { f with feed := change f.feed }

end TracedFeed

inductive Exchange where
  | sent (packet : Option Packet) (accepted : Bool)
  | received (answer : Received)
  deriving DecidableEq

namespace Exchange

def frame? : Exchange → Option Frame
  | received (.frame frame) => some frame
  | _ => none

def accepted? : Exchange → Option Packet
  | sent packet true => packet
  | _ => none

def refused? : Exchange → Option Packet
  | sent packet false => packet
  | _ => none

def isSending : Exchange → Bool
  | sent _ _ => true
  | received _ => false

end Exchange

structure TracedEngine (ε : Type) where
  engine : ε

structure TracedShared (ω : Type) where
  state : ω
  exchanges : List Exchange := []

namespace TracedShared

variable {ω : Type}

def frames (s : TracedShared ω) : List Frame := s.exchanges.filterMap Exchange.frame?

def accepted (s : TracedShared ω) : List Packet := s.exchanges.filterMap Exchange.accepted?

def refused (s : TracedShared ω) : List Packet := s.exchanges.filterMap Exchange.refused?

def sendings (s : TracedShared ω) : List Exchange := s.exchanges.filter Exchange.isSending

end TracedShared

namespace TracedEngine

variable {ω ε : Type}

instance [Engine ω ε] : Engine (TracedShared ω) (TracedEngine ε) where
  init e s codec decoder :=
    let reply := Engine.init e.engine s.state codec decoder
    ⟨reply.answer, ⟨reply.engine⟩, { s with state := reply.shared }⟩
  send e s packet :=
    let reply := Engine.send e.engine s.state packet
    ⟨reply.answer, ⟨reply.engine⟩, ⟨reply.shared, s.exchanges ++ [.sent packet reply.answer]⟩⟩
  receive e s :=
    let reply := Engine.receive e.engine s.state
    ⟨reply.answer, ⟨reply.engine⟩, ⟨reply.shared, s.exchanges ++ [.received reply.answer]⟩⟩
  control e s command :=
    let reply := Engine.control e.engine s.state command
    ⟨reply.answer, ⟨reply.engine⟩, { s with state := reply.shared }⟩
  uninit e s :=
    let reply := Engine.uninit e.engine s.state
    ⟨(), ⟨reply.engine⟩, { s with state := reply.shared }⟩

theorem receive_exchanges [Engine ω ε] (engine : TracedEngine ε) (shared : TracedShared ω)
    : (Engine.receive engine shared).shared.exchanges
        = shared.exchanges ++ [.received (Engine.receive engine shared).answer] := rfl

end TracedEngine

def Driver.traced {ω ε : Type} (d : Driver ω ε) : Driver (TracedShared ω) (TracedEngine ε) where
  name := d.name
  decoders := d.decoders
  create s :=
    let (engine, state) := d.create s.state
    (⟨engine⟩, { s with state })

def Likeness.traced (ω ε φ : Type) [Engine ω ε] [PacketFeed φ] :
    Likeness (TracedShared ω) (TracedEngine ε) (TracedFeed φ) ω ε φ where
  engine := (·.engine)
  shared := (·.state)
  feed := (·.feed)
  init _ _ _ _ := rfl
  send _ _ _ := rfl
  receive _ _ := rfl
  control _ _ _ := rfl
  uninit _ _ := rfl
  tryRead _ := rfl

theorem Likeness.traced_drives {ω ε : Type} (φ : Type) [Engine ω ε] [PacketFeed φ]
    (drivers : List (Driver ω ε))
    : List.Forall₂ (Likeness.traced ω ε φ).Drives (drivers.map Driver.traced) drivers := by
  induction drivers with
  | nil => exact .nil
  | cons driver drivers ih => exact .cons ⟨rfl, rfl, fun _ => rfl⟩ ih

namespace Pipeline

variable {ω ε φ ρ : Type}

def HasTraces (p : Pipeline (TracedShared ω) (TracedEngine ε) (TracedFeed φ) ρ) : Prop :=
  ∃ drivers : List (Driver ω ε), p.drivers = drivers.map Driver.traced

theorem HasTraces.of_eq {p q : Pipeline (TracedShared ω) (TracedEngine ε) (TracedFeed φ) ρ}
    (htraces : p.HasTraces) (hdrivers : q.drivers = p.drivers)
    : q.HasTraces := by
  unfold HasTraces
  rw [hdrivers]
  exact htraces

def createTraced (codec : SharedCodec) (drivers : List (Driver ω ε)) (feed : φ) (shared : ω)
    (options : DecoderOptions) (now : UInt64) :
    Pipeline (TracedShared ω) (TracedEngine ε) (TracedFeed φ) ρ :=
  create codec (drivers.map Driver.traced) { feed } { state := shared } options now

variable [Engine ω ε]

theorem HasTraces.upholds {p : Pipeline (TracedShared ω) (TracedEngine ε) (TracedFeed φ) ρ}
    (htraces : p.HasTraces)
    : p.Upholds fun _ shared => shared.exchanges = p.shared.exchanges := by
  rcases htraces with ⟨drivers, hdrivers⟩
  refine ⟨⟨?_, ?_, ?_⟩, rfl⟩
  . exact fun _ _ _ hsame => hsame
  . exact fun _ _ hsame => hsame
  . intro driver hdriver shared params decoder hsame
    rw [hdrivers, List.mem_map] at hdriver
    rcases hdriver with ⟨driver, -, rfl⟩
    dsimp only
    split <;> exact hsame

section Steps

variable {p q : Pipeline (TracedShared ω) (TracedEngine ε) (TracedFeed φ) ρ}

theorem Reads.exchanges {answer : Received} (hreads : p.Reads answer q) (htraces : p.HasTraces)
    : q.shared.exchanges = p.shared.exchanges :=
  (hreads.upholds htraces.upholds).state

theorem Receives.exchanges (hreceives : p.Receives q) (htraces : p.HasTraces)
    : ∃ answer, q.shared.exchanges = p.shared.exchanges ++ [.received answer] := by
  rcases hreceives with ⟨engine, hengine, hready, hreads⟩
  exact ⟨_, hreads.exchanges htraces⟩

theorem Receives.sendings (hreceives : p.Receives q) (htraces : p.HasTraces)
    : q.shared.sendings = p.shared.sendings := by
  rcases hreceives.exchanges htraces with ⟨answer, hexchanges⟩
  unfold TracedShared.sendings
  rw [hexchanges, List.filter_append]
  exact List.append_nil _

theorem Works.polls [PacketFeed φ] [PacketRecorder ρ] {asked : Option (Poll Packet)}
    (hworks : p.Works asked q)
    : q.feed.polls = p.feed.polls ++ asked.toList := by
  have hasks := hworks.asks
  cases asked with
  | none =>
    rw [show q.feed = p.feed from hasks]
    exact (List.append_nil _).symm
  | some poll => exact TracedFeed.polls_of_tryRead hasks

end Steps

variable [PacketFeed φ]

def untraced (p : Pipeline (TracedShared ω) (TracedEngine ε) (TracedFeed φ) ρ)
    (drivers : List (Driver ω ε)) : Pipeline ω ε φ ρ :=
  p.image (.traced ω ε φ) drivers

variable [PacketRecorder ρ]

def afterTraced (p : Pipeline (TracedShared ω) (TracedEngine ε) (TracedFeed φ) ρ)
    (operations : List (Operation φ ρ)) :
    Pipeline (TracedShared ω) (TracedEngine ε) (TracedFeed φ) ρ :=
  p.after (operations.map (·.lift TracedFeed.lift))

theorem afterTraced_concat (p : Pipeline (TracedShared ω) (TracedEngine ε) (TracedFeed φ) ρ)
    (operations : List (Operation φ ρ)) (operation : Operation φ ρ)
    : p.afterTraced (operations ++ [operation])
        = (p.afterTraced operations).perform (operation.lift TracedFeed.lift) := by
  unfold afterTraced
  rw [List.map_append, after_append]
  rfl

theorem afterTraced_drivers (p : Pipeline (TracedShared ω) (TracedEngine ε) (TracedFeed φ) ρ)
    (operations : List (Operation φ ρ))
    : (p.afterTraced operations).drivers = p.drivers := by
  apply after_induct (motive := fun q => q.drivers = p.drivers)
  . rfl
  . exact fun q operation _ hq => (q.perform_drivers operation).trans hq

theorem afterTraced_induct
    {motive : Pipeline (TracedShared ω) (TracedEngine ε) (TracedFeed φ) ρ → Prop}
    (p : Pipeline (TracedShared ω) (TracedEngine ε) (TracedFeed φ) ρ)
    (operations : List (Operation φ ρ)) (start : motive p)
    (step : ∀ q (operation : Operation φ ρ), motive q →
      motive (q.perform (operation.lift TracedFeed.lift)))
    : motive (p.afterTraced operations) := by
  apply after_induct
  . exact start
  . intro q operation hmem hq
    rcases List.mem_map.mp hmem with ⟨plain, -, rfl⟩
    exact step q plain hq

theorem untraced_afterTraced (p : Pipeline (TracedShared ω) (TracedEngine ε) (TracedFeed φ) ρ)
    {drivers : List (Driver ω ε)} (hdrivers : p.drivers = drivers.map Driver.traced)
    (operations : List (Operation φ ρ))
    : (p.afterTraced operations).untraced drivers = (p.untraced drivers).after operations := by
  have hdrives : List.Forall₂ (Likeness.traced ω ε φ).Drives p.drivers drivers := by
    rw [hdrivers]
    exact Likeness.traced_drives φ drivers
  exact (image_after p (.traced ω ε φ) drivers hdrives (fun _ _ => rfl) operations).symm

theorem untraced_doWork (p : Pipeline (TracedShared ω) (TracedEngine ε) (TracedFeed φ) ρ)
    {drivers : List (Driver ω ε)} (hdrivers : p.drivers = drivers.map Driver.traced)
    : p.doWork.untraced drivers = (p.untraced drivers).doWork :=
  untraced_afterTraced p hdrivers [.work]

theorem untraced_createTraced (codec : SharedCodec) (drivers : List (Driver ω ε)) (feed : φ)
    (shared : ω) (options : DecoderOptions) (now : UInt64) (operations : List (Operation φ ρ))
    : ((createTraced codec drivers feed shared options now).afterTraced operations).untraced drivers
        = (create codec drivers feed shared options now).after operations :=
  untraced_afterTraced _ rfl operations

def sampleTraced :
    Pipeline (TracedShared Unit) (TracedEngine RawVideoEngine) (TracedFeed PacketChannel)
      Collection :=
  createTraced sampleCodec defaultDrivers (sampleFeed [samplePacket]) () {} 0

end Pipeline
end DecodePipeline
