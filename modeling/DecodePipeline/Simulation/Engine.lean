import DecodePipeline.Decoder.Engine

/-!
This module contains decoders that decode nothing but behave as they are told: they turn packets
into frames with the same payload, and can be slow, full, forgetful or out of order on purpose.
Everything that is asked of them is written down.
-/

namespace DecodePipeline.Simulation

structure Behavior where
  failing : List String := []
  stripPts : Bool := false
  stripDts : Bool := false
  dropSoft : Bool := false
  keepHard : Bool := false
  reorder : Bool := false
  -- The number of frames that stay inside until the engine is drained.
  delay : Nat := 0
  capacity : Option Nat := none
  frameDelay : Option Int := none
  params : List ImageParams := []

inductive Output where
  | frame
  | pending
  | exhausted
  deriving DecidableEq

inductive Event where
  | created (family : String)
  | opened (codec decoder : String) (success : Bool)
  | sent (pts dts : Option Timestamp) (accepted : Bool)
  | drained
  | received (output : Output)
  | reset
  | framedrop (directive : FrameDrop)
  | frameDelay
  | closed
  deriving DecidableEq

structure Progress where
  -- The number of packets that are still refused without a reason.
  refusals : Nat := 0
  made : Nat := 0
  deriving DecidableEq, Inhabited

structure State where
  events : Array Event := #[]
  drivers : Array Progress := #[]
  deriving DecidableEq, Inhabited

namespace State

def note (s : State) (event : Event) : State := { s with events := s.events.push event }

def progress (s : State) (driver : Nat) : Progress := s.drivers.getD driver {}

def update (s : State) (driver : Nat) (change : Progress → Progress) : State :=
  { s with drivers := s.drivers.modify driver change }

end State

structure SimulatedEngine where
  driver : Nat
  behavior : Behavior
  isOpen : Bool := false
  queue : List Frame := []
  framedrop : FrameDrop := .none
  draining : Bool := false

namespace SimulatedEngine

def plainParams : ImageParams := .ofSize 16 16

def opens (e : SimulatedEngine) (decoder : String) : Bool := !e.behavior.failing.contains decoder

def init (e : SimulatedEngine) (s : State) (codec : CodecParams) (decoder : String) :
    Reply State SimulatedEngine (Except String Unit) :=
  let s := s.note (.opened codec.codec decoder (e.opens decoder))
  if e.opens decoder then ⟨.ok (), { e with isOpen := true }, s⟩
  else ⟨.error s!"{decoder} refuses to open", e, s⟩

def refuses (e : SimulatedEngine) (s : State) : Bool :=
  0 < (s.progress e.driver).refusals || e.behavior.capacity.any (· ≤ e.queue.length)

def skips (e : SimulatedEngine) : Bool :=
  match e.framedrop with
  | .none => false
  | .soft => e.behavior.dropSoft
  | .hard => !e.behavior.keepHard

def frameOf (e : SimulatedEngine) (packet : Packet) (made : Nat) : Frame where
  payload := packet.payload
  pts := if e.behavior.stripPts then none else packet.pts
  dts := if e.behavior.stripDts then none else packet.dts
  params := (e.behavior.params[made % e.behavior.params.length]?).getD plainParams

def send (e : SimulatedEngine) (s : State) : Option Packet → Reply State SimulatedEngine Bool
  | none => ⟨true, { e with draining := true }, s.note .drained⟩
  | some packet =>
    let refused := e.refuses s
    let s := s.note (.sent packet.pts packet.dts !refused)
    if refused then
      ⟨false, e, s.update e.driver fun p => { p with refusals := p.refusals - 1 }⟩
    else if e.skips then ⟨true, { e with draining := false }, s⟩
    else
      let frame := e.frameOf packet (s.progress e.driver).made
      ⟨true, { e with draining := false, queue := e.queue ++ [frame] },
        s.update e.driver fun p => { p with made := p.made + 1 }⟩

def isBefore (a b : Frame) : Bool :=
  match a.pts, b.pts with
  | some a, some b => a < b
  | _, _ => false

def firstShown (best : Frame) (index : Nat) : List Frame → Nat → Nat
  | [], _ => index
  | frame :: rest, position =>
    if isBefore frame best then firstShown frame position rest (position + 1)
    else firstShown best index rest (position + 1)

def nextIndex (e : SimulatedEngine) : Nat :=
  match e.queue with
  | first :: rest => if e.behavior.reorder then firstShown first 0 rest 1 else 0
  | [] => 0

def isReady (e : SimulatedEngine) : Bool :=
  if e.draining then !e.queue.isEmpty else e.behavior.delay < e.queue.length

def receive (e : SimulatedEngine) (s : State) : Reply State SimulatedEngine Received :=
  match e.queue[e.nextIndex]?.filter fun _ => e.isReady with
  | some frame =>
    ⟨.frame frame, { e with queue := e.queue.eraseIdx e.nextIndex }, s.note (.received .frame)⟩
  | none =>
    if e.draining || !e.isOpen then ⟨.exhausted, e, s.note (.received .exhausted)⟩
    else ⟨.pending, e, s.note (.received .pending)⟩

def control (e : SimulatedEngine) (s : State) :
    EngineCommand → Reply State SimulatedEngine EngineResponse
  | .reset => ⟨.done, { e with queue := [], draining := false }, s.note .reset⟩
  | .setFrameDrop framedrop => ⟨.done, { e with framedrop }, s.note (.framedrop framedrop)⟩
  | .getFrameDelay =>
    ⟨match e.behavior.frameDelay with
      | some frames => .frameDelay frames
      | none => .unsupported, e, s.note .frameDelay⟩

def uninit (e : SimulatedEngine) (s : State) : Reply State SimulatedEngine Unit :=
  ⟨(), { e with isOpen := false, queue := [] }, s.note .closed⟩

instance : Engine State SimulatedEngine where
  init := init
  send := send
  receive := receive
  control := control
  uninit := uninit

end SimulatedEngine

def driver (index : Nat) (name : String) (decoders : List DecoderEntry) (behavior : Behavior) :
    Driver State SimulatedEngine where
  name := name
  decoders := decoders
  create s := ({ driver := index, behavior }, s.note (.created name))

structure Summary where
  inits : List (String × String)
  failedInits : List String
  uninits : Nat
  controls : Nat
  resets : Nat
  framedrops : List FrameDrop
  sent : List (Option (Option Timestamp × Option Timestamp))
  refused : Nat

namespace State

def summary (s : State) : Summary :=
  let events := s.events.toList
  { inits := events.filterMap fun
      | .opened codec decoder true => some (codec, decoder)
      | _ => none
    failedInits := events.filterMap fun
      | .opened _ decoder false => some decoder
      | _ => none
    uninits := events.count .closed
    controls := events.countP fun
      | .reset | .framedrop _ | .frameDelay => true
      | _ => false
    resets := events.count .reset
    framedrops := events.filterMap fun
      | .framedrop directive => some directive
      | _ => none
    sent := events.filterMap fun
      | .sent pts dts true => some (some (pts, dts))
      | .drained => some none
      | _ => none
    refused := events.countP fun
      | .sent _ _ false => true
      | _ => false }

end State
end DecodePipeline.Simulation
