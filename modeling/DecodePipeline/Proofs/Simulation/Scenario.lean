import DecodePipeline.Proofs.Pipeline.Operation
import DecodePipeline.Proofs.Simulation.Refusing

/-!
This module contains whole runs with a simulated driver, from the opening of the decoder to the end.
The refusals of the driver make no difference to them, apart from the retries that are counted.
-/

namespace DecodePipeline

open Simulation

/-- A run with one simulated driver, whose engines have room for everything. -/
structure Simulation.Scenario where
  codec : SharedCodec
  name : String
  decoders : List DecoderEntry
  behavior : Behavior
  -- the packets and the gaps between them
  items : List (Option Packet)
  options : DecoderOptions
  now : UInt64
  startCut : Option Timestamp
  framedrop : Bool

namespace Simulation.Scenario

open Pipeline

variable {ρ : Type} (c : Scenario)

def driver : Driver State SimulatedEngine :=
  Simulation.driver 0 c.name c.decoders { c.behavior with capacity := none }

def created (refusals : Nat) : SimulatedPipeline (TracedFeed PreparedFeed) ρ :=
  createLogged c.codec [c.driver] { items := c.items } { drivers := #[{ refusals }] } c.options c.now

def plain (refusals : Nat) : Pipeline State SimulatedEngine PreparedFeed ρ :=
  let p : Pipeline State SimulatedEngine PreparedFeed ρ :=
    create c.codec [c.driver] { items := c.items } { drivers := #[{ refusals }] } c.options c.now
  ((p.openDecoder c.codec).2.setStart c.startCut).setFramedrop c.framedrop

def opened (refusals : Nat) : SimulatedPipeline (TracedFeed PreparedFeed) ρ :=
  (((c.created refusals).openDecoder c.codec).2.setStart c.startCut).setFramedrop c.framedrop

theorem opened_eq (refusals : Nat)
    : (c.opened refusals : SimulatedPipeline (TracedFeed PreparedFeed) ρ)
        = { ((c.created refusals).openDecoder c.codec).2 with
            startCut := c.startCut, framedrop := c.framedrop } := rfl

variable {refusals : Nat} {p : SimulatedPipeline (TracedFeed PreparedFeed) ρ}

theorem drivers_opened (hp : p = c.opened refusals) : p.drivers = [c.driver.logged] := by
  rw [hp, opened_eq]
  exact congrArg Outline.drivers (outline_openDecoder (.nothing _ _) (c.created refusals) c.codec)

theorem health_opened (hp : p = c.opened refusals) : p.health = .starting c.now := by
  rw [hp, opened_eq]
  exact (c.created refusals).openDecoder_health c.codec

theorem hasLogs_opened (hp : p = c.opened refusals) : p.HasLogs := ⟨[c.driver], c.drivers_opened hp⟩

theorem ready_opened (hp : p = c.opened refusals) : p.ready = none := by
  rw [hp, opened_eq]
  exact congrArg Outline.ready (outline_openDecoder (.nothing _ _) (c.created refusals) c.codec)

theorem upholds_opened (hp : p = c.opened refusals)
    {holds : Option (LoggedEngine SimulatedEngine) → LoggedShared State → Prop}
    (hinvariant : Engine.Invariant [c.driver.logged] holds)
    (hstart : holds none { state := { drivers := #[{ refusals }] } })
    : p.Upholds holds := by
  have hcreated : (c.created refusals : SimulatedPipeline (TracedFeed PreparedFeed) ρ).Upholds holds :=
    ⟨hinvariant, hstart⟩
  rw [hp, opened_eq]
  exact (hcreated.openDecoder c.codec).of_eq rfl rfl rfl

theorem unlogged_opened (refusals : Nat)
    : (c.opened refusals).unlogged [c.driver]
        = (c.plain refusals : Pipeline State SimulatedEngine PreparedFeed ρ) := by
  have hdrives := Likeness.logged_drives PreparedFeed [c.driver]
  have hopened := image_openDecoder (c.created refusals : SimulatedPipeline (TracedFeed PreparedFeed) ρ)
    (.logged State SimulatedEngine PreparedFeed) [c.driver] hdrives c.codec
  have hcreated : (c.created refusals : SimulatedPipeline (TracedFeed PreparedFeed) ρ).image
      (.logged State SimulatedEngine PreparedFeed) [c.driver]
        = create c.codec [c.driver] { items := c.items } { drivers := #[{ refusals }] } c.options
            c.now := rfl
  rw [hcreated] at hopened
  unfold plain
  dsimp only
  rw [hopened, opened_eq]
  rfl

theorem playOut_unlogged [PacketRecorder ρ] (hp : p = c.opened refusals) (rounds : Nat)
    : (c.plain refusals).playOut rounds
        = (p.playOut rounds).map fun (frames, last) => (frames, last.unlogged [c.driver]) := by
  have hdrives := Likeness.logged_drives PreparedFeed [c.driver]
  rw [← unlogged_opened, ← hp]
  apply image_playOut
  rw [c.drivers_opened hp]
  exact hdrives

theorem untouched_opened (hp : p = c.opened refusals) : p.Untouched := by
  refine ⟨c.upholds_opened hp ?_ (by simp), c.ready_opened hp⟩
  apply invariant_of_opened
  . intro engine shared command hfresh
    rintro _ ⟨⟩
    have hsame := hfresh engine rfl
    cases command with
    | reset => exact ⟨hsame.isOpen, rfl, rfl⟩
    | setFrameDrop | getFrameDelay => exact ⟨hsame.isOpen, hsame.queue, hsame.draining⟩
  . simp
  . rintro shared codec decoder - _ ⟨⟩
    exact ⟨rfl, rfl, rfl⟩
  . simp

theorem unoffered_opened (hp : p = c.opened refusals) : p.shared.offered = false := by
  have hcreated : (c.created refusals : SimulatedPipeline (TracedFeed PreparedFeed) ρ).HasLogs :=
    ⟨[c.driver], rfl⟩
  have hsame := (hcreated.upholds_sendings.openDecoder c.codec).state
  rw [hp, opened_eq]
  unfold LoggedShared.offered
  dsimp only
  rw [hsame]
  rfl

theorem finishing_opened (hproper : ∀ packet, some packet ∈ c.items → packet.bounds.Proper)
    (hp : p = c.opened 0)
    : p.Finishing supply := by
  have houtline := outline_openDecoder (.nothing _ _)
    (c.created 0 : SimulatedPipeline (TracedFeed PreparedFeed) ρ) c.codec
  have hpending : p.pending = none := by
    rw [hp, opened_eq]
    exact congrArg Outline.pending houtline
  have hqueued : p.segments.queued = none := by
    rw [hp, opened_eq]
    exact congrArg (·.segments.queued) houtline
  have hfeed : p.feed = { feed := { items := c.items } } := by
    rw [hp, opened_eq]
    exact congrArg Outline.feed houtline
  have hsupplied : p.Upholds supply.holds :=
    c.upholds_opened hp (invariant_supply _ _ rfl) ⟨by simp, 0, rfl⟩
  refine ⟨?_, hsupplied.state, .inl hpending, ?_, ?_, ?_⟩
  . rw [c.drivers_opened hp]
    exact finite_supply _ _ rfl
  . rw [hpending]
    rintro _ ⟨⟩
  . rw [p.held_eq_nil.mpr ⟨hpending, hqueued⟩]
    simp
  . rw [hfeed]
    exact hproper

theorem hidden_opened (hp : p = c.opened refusals) (left count : Nat)
    : (Difference.refusing left count).Hidden p.drivers := by
  rw [c.drivers_opened hp]
  exact Difference.hidden_refusing c.name c.decoders rfl

theorem lockstep_opened (refusals : Nat)
    : Lockstep (.refusing refusals 0) (c.opened refusals)
        (c.opened 0 : SimulatedPipeline (TracedFeed PreparedFeed) ρ) := by
  have hcreated : Lockstep (.refusing refusals 0) (c.created refusals)
      (c.created 0 : SimulatedPipeline (TracedFeed PreparedFeed) ρ) := by
    have hhidden : (Difference.refusing refusals 0).Hidden [c.driver.logged] :=
      Difference.hidden_refusing c.name c.decoders rfl
    have hhealth : Health.starting c.now
        = (Health.starting c.now).add { sendRetries := (0 : Nat).toUInt64 } := by
      simp [Health.add]
    have hengines : (Difference.refusing refusals 0).engines none
        { state := { drivers := #[{ refusals }] } } none { state := { drivers := #[{}] } } :=
      ⟨rfl, by simp, ⟨rfl, rfl, 0, rfl, rfl⟩⟩
    exact ⟨hhidden, rfl, rfl, rfl, rfl, hengines, hhealth, rfl, rfl, rfl, rfl, rfl, rfl, rfl, rfl, rfl,
      rfl, rfl, rfl⟩
  have hset (p q : SimulatedPipeline (TracedFeed PreparedFeed) ρ)
      (hopened : Lockstep (.refusing refusals 0) p q)
      : Lockstep (.refusing refusals 0)
          { p with startCut := c.startCut, framedrop := c.framedrop }
          { q with startCut := c.startCut, framedrop := c.framedrop } :=
    { hopened with startCut := rfl, framedrop := rfl }
  rw [opened_eq, opened_eq]
  exact hset _ _ (hcreated.openDecoder c.codec).2

/--
Whatever the codec, the packets and the gaps between them, the options, the start and the behaviour of
the engines are, if the bounds of segments are numbers. A run whose driver refuses packets at first and
a run whose driver refuses none both come to their end. They give the same frames, their engines take
the same packets and drain requests, and they are left the same, except that the first one has counted
its retries: one for each refusal, if there was a packet to refuse.
-/
theorem refusals_make_no_difference [PacketRecorder ρ]
    (hproper : ∀ packet, some packet ∈ c.items → packet.bounds.Proper) (refusals : Nat)
    : ∃ (rounds : Nat) (frames : List Frame) (p q : SimulatedPipeline (TracedFeed PreparedFeed) ρ),
        (c.opened refusals).playOut rounds = some (frames, p)
          ∧ (c.opened 0).playOut rounds = some (frames, q)
          ∧ (c.plain refusals).playOut rounds = some (frames, p.unlogged [c.driver])
          ∧ (c.plain 0).playOut rounds = some (frames, q.unlogged [c.driver])
          ∧ p.shared.taken = q.shared.taken
          ∧ p.timeline = q.timeline ∧ p.segments.bounds = q.segments.bounds ∧ p.dropped = q.dropped
          ∧ (∀ counter, counter ≠ .sendRetries → p.health.get counter = q.health.get counter)
          ∧ p.health.sendRetries = (if p.shared.offered then refusals.toUInt64 else 0)
          ∧ q.health.sendRetries = 0 := by
  generalize hp : (c.opened refusals : SimulatedPipeline (TracedFeed PreparedFeed) ρ) = p
  generalize hq : (c.opened 0 : SimulatedPipeline (TracedFeed PreparedFeed) ρ) = q
  have hlockstep : Lockstep (.refusing refusals 0) p q := by
    rw [← hp, ← hq]
    exact c.lockstep_opened refusals
  rcases (c.finishing_opened hproper hq.symm).playOut_ends (c.ready_opened hq.symm) with
    ⟨rounds, frames, last, hplay, hretries⟩
  rcases playOut_refusing hlockstep (c.hidden_opened hp.symm) (c.hasLogs_opened hp.symm)
    (c.untouched_opened hp.symm) (c.unoffered_opened hp.symm) hplay with
    ⟨rounds', last', left, hplay', hlast⟩
  have hnone : last.health.sendRetries = 0 := by
    rw [hretries, c.health_opened hq.symm]
    rfl
  have hhealth : last'.health = last.health.add _ := hlast.health
  have hends : p.playOut (rounds + rounds') = some (frames, last') := by
    rw [Nat.add_comm]
    exact playOut_add hplay' rounds
  have hends' : q.playOut (rounds + rounds') = some (frames, last) := playOut_add hplay rounds'
  refine ⟨rounds + rounds', frames, last', last, hends, hends', ?_, ?_, hlast.engines.2.2.taken,
    hlast.timeline, congrArg (·.bounds) hlast.segments, hlast.dropped, ?_, ?_, hnone⟩
  . rw [c.playOut_unlogged hp.symm, hends]
    rfl
  . rw [c.playOut_unlogged hq.symm, hends']
    rfl
  . intro counter hcounter
    rw [hhealth]
    exact Health.get_add_sendRetries _ _ hcounter
  . rw [hhealth]
    unfold Health.add
    dsimp only
    rw [hnone, UInt64.zero_add]
    split <;> rfl

end Simulation.Scenario

-- The packet starts a segment, so the engine drains before it is offered the packet.
def Simulation.sampleScenario : Scenario where
  codec := Pipeline.sampleCodec
  name := "reluctant"
  decoders := [⟨"reluctant", "rawvideo", "rawvideo", "refuses at first"⟩]
  behavior := {}
  items := [none, some Pipeline.samplePacket]
  options := {}
  now := 0
  startCut := none
  framedrop := true

theorem Simulation.sample_refusals_make_no_difference
    : ∃ (rounds : Nat) (frames : List Frame)
        (p q : SimulatedPipeline (TracedFeed PreparedFeed) Collection),
        (sampleScenario.opened 2).playOut rounds = some (frames, p)
          ∧ (sampleScenario.opened 0).playOut rounds = some (frames, q)
          ∧ frames.map (·.payload) = [Pipeline.samplePacket.payload]
          ∧ p.health.sendRetries = 2 ∧ q.health.sendRetries = 0 := by
  have hproper : ∀ packet, some packet ∈ sampleScenario.items → packet.bounds.Proper := by
    intro packet hpacket
    have hsame : packet = Pipeline.samplePacket := by simpa [sampleScenario] using hpacket
    rw [hsame]
    exact ⟨by decide +kernel, by decide +kernel⟩
  have hplayed : ((sampleScenario.opened 2 :
      SimulatedPipeline (TracedFeed PreparedFeed) Collection).playOut 9).map
        (fun played => (played.1.map (·.payload), played.2.shared.offered))
      = some ([Pipeline.samplePacket.payload], true) := by decide +kernel
  rcases @Scenario.refusals_make_no_difference Collection sampleScenario _ hproper 2 with
    ⟨rounds, frames, p, q, hplay, hplay', -, -, -, -, -, -, -, hretries, hnone⟩
  rcases Option.map_eq_some_iff.mp hplayed with ⟨played, hlast, hshown⟩
  have hsame : (frames, p) = played := by
    have hmore := Pipeline.playOut_add hplay 9
    rw [Nat.add_comm, Pipeline.playOut_add hlast rounds] at hmore
    exact (Option.some.inj hmore).symm
  subst hsame
  rcases Prod.mk.inj hshown with ⟨hframes, hoffered⟩
  dsimp only at hoffered
  rw [hoffered] at hretries
  exact ⟨rounds, frames, p, q, hplay, hplay', hframes, hretries, hnone⟩

end DecodePipeline
