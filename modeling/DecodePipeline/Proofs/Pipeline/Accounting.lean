import Mathlib.Algebra.Ring.Nat
import DecodePipeline.Proofs.Pipeline.Likeness
import DecodePipeline.Proofs.Pipeline.Reporting

/-!
This module contains the accounts of a pipeline: every frame that an engine gave is handed out, discarded,
lost because the user interrupted the pipeline, or ready, and the counters count exactly these frames and
the packets that engines accepted.
-/

namespace DecodePipeline

inductive Fate where
  | delivered (frame : Frame)
  | discarded
  -- The user started over while the frame was ready.
  | lost (frame : Frame)
  deriving DecidableEq

namespace Fate

def Meets (frame : Frame) : Fate → Prop
  | delivered settled | lost settled => frame.SettledAs settled
  | discarded => True

@[simp]
def delivered? : Fate → Option Frame
  | delivered frame => some frame
  | _ => none

@[simp]
def lost? : Fate → Option Frame
  | lost frame => some frame
  | _ => none

def counts : Fate → Health
  | delivered _ => { framesDelivered := 1 }
  | discarded => { framesDiscarded := 1 }
  | lost _ => {}

theorem length_eq (fates : List Fate)
    : fates.length
        = (fates.filterMap delivered?).length + fates.count discarded
          + (fates.filterMap lost?).length := by
  induction fates with
  | nil => rfl
  | cons fate fates ih =>
    cases fate <;> simp [List.filterMap_cons, ih] <;> omega

theorem meets_lost {frames : List Frame} {fates : List Fate} {settled : Frame}
    (hmeets : List.Forall₂ Meets frames (fates ++ [delivered settled]))
    : List.Forall₂ Meets frames (fates ++ [lost settled]) := by
  induction fates generalizing frames with
  | nil =>
    cases hmeets with
    | cons hframe hrest =>
      cases hrest
      exact .cons hframe .nil
  | cons fate fates ih =>
    cases hmeets with
    | cons hframe hrest => exact .cons hframe (ih hrest)

end Fate

def Exchange.counts : Exchange → Health
  | received (.frame _) => { framesDecoded := 1 }
  | sent (some packet) true => { packetsSent := 1, bytesSent := .ofNat packet.size }
  | sent (some _) false => { sendRetries := 1 }
  | _ => {}

namespace Health

def traffic (h : Health) : Health where
  -- what is counted of frames and packets alone
  framesDecoded := h.framesDecoded
  framesDelivered := h.framesDelivered
  framesDiscarded := h.framesDiscarded
  packetsSent := h.packetsSent
  sendRetries := h.sendRetries
  bytesSent := h.bytesSent

@[simp]
theorem traffic_recordDecoded (h : Health) (synthesized : Bool)
    : (h.recordDecoded synthesized).traffic = h.traffic.add { framesDecoded := 1 } := by
  simp [traffic, recordDecoded, add]

@[simp]
theorem traffic_recordDelivered (h : Health) (now : UInt64)
    : (h.recordDelivered now).traffic = h.traffic.add { framesDelivered := 1 } := by
  simp [traffic, recordDelivered, add]

@[simp]
theorem traffic_recordDiscarded (h : Health)
    : h.recordDiscarded.traffic = h.traffic.add { framesDiscarded := 1 } := by
  simp [traffic, recordDiscarded, add]

@[simp]
theorem traffic_recordDecoderDrop (h : Health) : h.recordDecoderDrop.traffic = h.traffic := rfl

@[simp]
theorem traffic_recordPacket (h : Health) (size : Nat)
    : (h.recordPacket size).traffic
        = h.traffic.add { packetsSent := 1, bytesSent := .ofNat size } := by
  simp [traffic, recordPacket, add]

@[simp]
theorem traffic_recordSendRetry (h : Health)
    : h.recordSendRetry.traffic = h.traffic.add { sendRetries := 1 } := by
  simp [traffic, recordSendRetry, add]

@[simp]
theorem traffic_recordSegmentSwitch (h : Health) (reinit : Bool)
    : (h.recordSegmentSwitch reinit).traffic = h.traffic := rfl

@[simp]
theorem add_empty (h : Health) : h.add {} = h := by simp [add]

def due {ω : Type} (shared : TracedShared ω) (fates : List Fate) : Health where
  framesDecoded := .ofNat shared.frames.length
  framesDelivered := .ofNat (fates.filterMap Fate.delivered?).length
  framesDiscarded := .ofNat (fates.count .discarded)
  packetsSent := .ofNat shared.accepted.length
  sendRetries := .ofNat shared.refused.length
  bytesSent := .ofNat (shared.accepted.map (·.size)).sum

theorem due_of_same {ω : Type} {shared shared' : TracedShared ω}
    (hsame : shared'.exchanges = shared.exchanges) (fates : List Fate)
    : due shared' fates = due shared fates := by
  unfold due TracedShared.frames TracedShared.accepted TracedShared.refused
  rw [hsame]

theorem due_exchange {ω : Type} {shared shared' : TracedShared ω} {exchange : Exchange}
    (hmore : shared'.exchanges = shared.exchanges ++ [exchange]) (fates : List Fate)
    : due shared' fates = (due shared fates).add exchange.counts := by
  unfold due TracedShared.frames TracedShared.accepted TracedShared.refused
  rw [hmore]
  rcases exchange with ⟨packet, accepted⟩ | answer
  . cases packet <;> cases accepted <;>
      simp [add, Exchange.counts, Exchange.frame?, Exchange.accepted?, Exchange.refused?,
        List.filterMap_cons]
  . cases answer <;>
      simp [add, Exchange.counts, Exchange.frame?, Exchange.accepted?, Exchange.refused?,
        List.filterMap_cons]

theorem due_fate {ω : Type} (shared : TracedShared ω) (fates : List Fate) (fate : Fate)
    : due shared (fates ++ [fate]) = (due shared fates).add fate.counts := by
  unfold due
  cases fate <;> simp [add, Fate.counts, List.filterMap_cons]

end Health

theorem TracedShared.frames_of_append {ω : Type} {shared shared' : TracedShared ω}
    {exchange : Exchange} (hmore : shared'.exchanges = shared.exchanges ++ [exchange])
    : shared'.frames = shared.frames ++ exchange.frame?.toList := by
  unfold frames
  rw [hmore, List.filterMap_append]
  cases hframe : exchange.frame? <;> simp [hframe]

namespace Pipeline

variable {ω ε φ ρ : Type}

structure Accounts (p : Pipeline (TracedShared ω) (TracedEngine ε) (TracedFeed φ) ρ)
    (fates : List Fate) : Prop where
  traces : p.HasTraces
  frames : List.Forall₂ Fate.Meets p.shared.frames (fates ++ p.ready.toList.map .delivered)
  counted : p.health.traffic = .due p.shared fates

section Events

variable {p q : Pipeline (TracedShared ω) (TracedEngine ε) (TracedFeed φ) ρ} {fates : List Fate}

theorem Accounts.of_same (haccounts : p.Accounts fates) (hdrivers : q.drivers = p.drivers)
    (hready : q.ready = p.ready) (hexchanges : q.shared.exchanges = p.shared.exchanges)
    (hhealth : q.health.traffic = p.health.traffic)
    : q.Accounts fates := by
  rcases haccounts with ⟨traces, frames, counted⟩
  refine ⟨traces.of_eq hdrivers, ?_, ?_⟩
  . unfold TracedShared.frames
    rw [hexchanges, hready]
    exact frames
  . rw [hhealth, Health.due_of_same hexchanges]
    exact counted

theorem Accounts.frames_of_none (haccounts : p.Accounts fates) (hready : p.ready = none)
    : List.Forall₂ Fate.Meets p.shared.frames fates := by
  have hframes := haccounts.frames
  rw [hready] at hframes
  simpa using hframes

theorem Accounts.exchanged (haccounts : p.Accounts fates) {exchange : Exchange}
    (hframe : exchange.frame? = none) (hdrivers : q.drivers = p.drivers) (hready : q.ready = p.ready)
    (hmore : q.shared.exchanges = p.shared.exchanges ++ [exchange])
    (hhealth : q.health.traffic = p.health.traffic.add exchange.counts)
    : q.Accounts fates := by
  refine ⟨haccounts.traces.of_eq hdrivers, ?_, ?_⟩
  . rw [TracedShared.frames_of_append hmore, hframe, hready]
    simpa using haccounts.frames
  . rw [hhealth, haccounts.counted, Health.due_exchange hmore]

theorem Accounts.stored (haccounts : p.Accounts fates) {frame settled : Frame}
    (hsettled : frame.SettledAs settled) (hidle : p.ready = none) (hdrivers : q.drivers = p.drivers)
    (hready : q.ready = some settled)
    (hmore : q.shared.exchanges = p.shared.exchanges ++ [.received (.frame frame)])
    (hhealth : q.health.traffic = p.health.traffic.add { framesDecoded := 1 })
    : q.Accounts fates := by
  refine ⟨haccounts.traces.of_eq hdrivers, ?_, ?_⟩
  . rw [TracedShared.frames_of_append hmore, hready]
    exact List.rel_append (haccounts.frames_of_none hidle) (.cons hsettled .nil)
  . rw [hhealth, haccounts.counted, Health.due_exchange hmore]
    rfl

theorem Accounts.discarded (haccounts : p.Accounts fates) {frame : Frame} (hidle : p.ready = none)
    (hdrivers : q.drivers = p.drivers) (hready : q.ready = none)
    (hmore : q.shared.exchanges = p.shared.exchanges ++ [.received (.frame frame)])
    (hhealth : q.health.traffic
      = (p.health.traffic.add { framesDecoded := 1 }).add { framesDiscarded := 1 })
    : q.Accounts (fates ++ [.discarded]) := by
  have hmeets : Fate.Meets frame .discarded := trivial
  refine ⟨haccounts.traces.of_eq hdrivers, ?_, ?_⟩
  . rw [TracedShared.frames_of_append hmore, hready, Option.toList_none, List.map_nil,
      List.append_nil]
    exact List.rel_append (haccounts.frames_of_none hidle) (.cons hmeets .nil)
  . rw [hhealth, haccounts.counted, Health.due_fate, Health.due_exchange hmore]
    rfl

theorem Accounts.delivered (haccounts : p.Accounts fates) {frame : Frame}
    (hframe : p.ready = some frame) (hdrivers : q.drivers = p.drivers) (hready : q.ready = none)
    (hsame : q.shared = p.shared)
    (hhealth : q.health.traffic = p.health.traffic.add { framesDelivered := 1 })
    : q.Accounts (fates ++ [.delivered frame]) := by
  have hframes := haccounts.frames
  rw [hframe] at hframes
  refine ⟨haccounts.traces.of_eq hdrivers, ?_, ?_⟩
  . rw [hready, hsame]
    simpa using hframes
  . rw [hhealth, haccounts.counted, Health.due_fate, hsame]
    rfl

theorem Accounts.lost (haccounts : p.Accounts fates) {frame : Frame} (hframe : p.ready = some frame)
    (hdrivers : q.drivers = p.drivers) (hready : q.ready = none)
    (hexchanges : q.shared.exchanges = p.shared.exchanges) (hhealth : q.health = p.health)
    : q.Accounts (fates ++ [.lost frame]) := by
  have hframes := haccounts.frames
  rw [hframe] at hframes
  have hkept : q.shared.frames = p.shared.frames := by
    unfold TracedShared.frames
    rw [hexchanges]
  refine ⟨haccounts.traces.of_eq hdrivers, ?_, ?_⟩
  . rw [hready, hkept, Option.toList_none, List.map_nil, List.append_nil]
    exact Fate.meets_lost hframes
  . rw [hhealth, haccounts.counted, Health.due_fate, Health.due_of_same hexchanges]
    exact (Health.add_empty _).symm

end Events

section Steps

variable [Engine ω ε] {p q r : Pipeline (TracedShared ω) (TracedEngine ε) (TracedFeed φ) ρ}
  {fates : List Fate}

theorem Accounts.switchSegment (haccounts : p.Accounts fates) (hready : p.ready = none)
    : p.switchSegment.Accounts fates := by
  apply haccounts.of_same
  . exact p.switchSegment_drivers
  . rw [p.switchSegment_ready hready, hready]
  . exact haccounts.traces.upholds.switchSegment.state
  . exact p.switchSegment_counted Health.traffic Health.traffic_recordSegmentSwitch

theorem Accounts.reads (haccounts : p.Accounts fates) (hidle : p.ready = none)
    (hdrivers : r.drivers = p.drivers) (hready : r.ready = none) (hhealth : r.health = p.health)
    {answer : Received}
    (hmore : r.shared.exchanges = p.shared.exchanges ++ [.received answer])
    (hreads : r.Reads answer q)
    : q.Accounts fates ∨ q.Accounts (fates ++ [.discarded]) := by
  have htraces : r.HasTraces := haccounts.traces.of_eq hdrivers
  -- A frame may be discarded and end its segment at once, but the switch finds no frame to lose.
  cases hreads with
  | @stored q frame settled hsettles =>
    left
    rcases hsettles.health with ⟨synthesized, hdecoded⟩
    have hexchanges := (hsettles.upholds _ htraces.upholds).state
    refine haccounts.stored hsettles.frame hidle ?_ rfl (hexchanges.trans hmore) ?_
    . exact (congrArg Outline.drivers hsettles.outline).trans hdrivers
    . simp [hdecoded, hhealth]
  | @discarded q frame settled hsettles =>
    right
    rcases hsettles.health with ⟨synthesized, hdecoded⟩
    have hexchanges := (hsettles.upholds _ htraces.upholds).state
    refine haccounts.discarded hidle ?_ ?_ (hexchanges.trans hmore) ?_
    . exact (congrArg Outline.drivers hsettles.outline).trans hdrivers
    . exact (congrArg Outline.ready hsettles.outline).trans hready
    . simp [hdecoded, hhealth]
  | @passed q frame settled hsettles =>
    right
    rcases hsettles.health with ⟨synthesized, hdecoded⟩
    have hexchanges := (hsettles.upholds _ htraces.upholds).state
    have hnone : q.ready = none := (congrArg Outline.ready hsettles.outline).trans hready
    refine Accounts.switchSegment ?_ hnone
    refine haccounts.discarded hidle ?_ hnone (hexchanges.trans hmore) ?_
    . exact (congrArg Outline.drivers hsettles.outline).trans hdrivers
    . simp [hdecoded, hhealth]
  | missed hdrops =>
    left
    refine haccounts.exchanged rfl hdrivers (hready.trans hidle.symm) hmore ?_
    rcases hdrops with rfl | rfl <;> simp [hhealth, Exchange.counts]
  | exhausted =>
    left
    refine Accounts.switchSegment ?_ hready
    refine haccounts.exchanged rfl hdrivers (hready.trans hidle.symm) hmore ?_
    simp [hhealth, Exchange.counts]

theorem Accounts.receives (haccounts : p.Accounts fates) (hreceives : p.Receives q)
    : q.Accounts fates ∨ q.Accounts (fates ++ [.discarded]) := by
  rcases hreceives with ⟨engine, hengine, hidle, hreads⟩
  refine haccounts.reads hidle ?_ ?_ ?_ ?_ hreads
  . rfl
  . exact hidle
  . rfl
  . rfl

theorem Accounts.sent [PacketRecorder ρ] (haccounts : p.Accounts fates) (engine : TracedEngine ε)
    : (p.sendPending engine).Accounts fates := by
  have hhealth := p.sendPending_health engine
  rcases p.sendPending_engine engine with ⟨-, hshared⟩
  have hdrivers : (p.sendPending engine).drivers = p.drivers :=
    congrArg Outline.drivers (outline_sendPending (.nothing _ _) p engine)
  have hmore : (p.sendPending engine).shared.exchanges = p.shared.exchanges
      ++ [.sent (p.pending.map p.forEngine) (p.sendReply engine p.pendingFrameDrop).answer] := by
    rw [hshared]
    rfl
  refine haccounts.exchanged rfl hdrivers (p.sendPending_ready engine) hmore ?_
  rw [hhealth]
  cases p.pending with
  | none => simp [Exchange.counts]
  | some packet =>
    have hsize : (p.forEngine packet).size = packet.size := by
      unfold forEngine
      split <;> rfl
    cases (p.sendReply engine p.pendingFrameDrop).answer <;> simp [Exchange.counts, hsize]

end Steps

def Accounted (p : Pipeline (TracedShared ω) (TracedEngine ε) (TracedFeed φ) ρ)
    (delivered lost : List Frame) : Prop :=
  ∃ fates, p.Accounts fates ∧ fates.filterMap Fate.delivered? = delivered
    ∧ fates.filterMap Fate.lost? = lost

section Runs

variable {p q : Pipeline (TracedShared ω) (TracedEngine ε) (TracedFeed φ) ρ}
  {delivered lost : List Frame}

theorem Accounted.of_same (hp : p.Accounted delivered lost) (hdrivers : q.drivers = p.drivers)
    (hready : q.ready = p.ready) (hshared : q.shared = p.shared) (hhealth : q.health = p.health)
    : q.Accounted delivered lost := by
  rcases hp with ⟨fates, haccounts, hgiven⟩
  refine ⟨fates, ?_, hgiven⟩
  apply haccounts.of_same hdrivers hready
  . rw [hshared]
  . rw [hhealth]

theorem Accounted.receives [Engine ω ε] (hp : p.Accounted delivered lost) (hreceives : p.Receives q)
    : q.Accounted delivered lost := by
  rcases hp with ⟨fates, haccounts, rfl, rfl⟩
  rcases haccounts.receives hreceives with hkept | hdiscarded
  . exact ⟨fates, hkept, rfl, rfl⟩
  . refine ⟨fates ++ [.discarded], hdiscarded, ?_, ?_⟩
    . simp
    . simp

theorem Accounted.works [Engine ω ε] [PacketFeed φ] [PacketRecorder ρ]
    (hp : p.Accounted delivered lost) {asked : Option (Poll Packet)} (hworks : p.Works asked q)
    : q.Accounted delivered lost := by
  cases hworks with
  | detached => exact hp.of_same rfl rfl rfl rfl
  | kept => exact hp
  | stopped hreceives => exact hp.receives hreceives
  | waited hreceives => exact (hp.receives hreceives).of_same rfl rfl rfl rfl
  | @fed asked r filled q engine hreceives hengine hready hfills hagain =>
    apply Accounted.receives _ hagain
    have hsending : filled.holdNewSegment.Accounted delivered lost := by
      rcases hfills.holdNewSegment_eq with ⟨pending, queued, phase, journal, hheld⟩
      rw [hheld]
      exact (hp.receives hreceives).of_same rfl rfl rfl rfl
    rcases hsending with ⟨fates, haccounts, hgiven⟩
    exact ⟨fates, haccounts.sent engine, hgiven⟩

theorem Accounted.taken (hp : p.Accounted delivered lost)
    : p.getFrame.2.2.Accounted (delivered ++ p.ready.toList) lost := by
  rcases hp with ⟨fates, haccounts, rfl, rfl⟩
  unfold getFrame
  cases hready : p.ready with
  | none =>
    refine ⟨fates, haccounts, ?_, rfl⟩
    simp
  | some frame =>
    refine ⟨fates ++ [.delivered frame], ?_, ?_, ?_⟩
    . apply haccounts.delivered hready
      . rfl
      . rfl
      . rfl
      . simp
    . simp
    . simp

theorem Accounted.interrupted (hp : p.Accounted delivered lost) (hdrivers : q.drivers = p.drivers)
    (hready : q.ready = none) (hexchanges : q.shared.exchanges = p.shared.exchanges)
    (hhealth : q.health = p.health)
    : q.Accounted delivered (lost ++ p.ready.toList) := by
  rcases hp with ⟨fates, haccounts, rfl, rfl⟩
  cases hframe : p.ready with
  | none =>
    refine ⟨fates, ?_, rfl, ?_⟩
    . apply haccounts.of_same hdrivers _ hexchanges
      . rw [hhealth]
      . rw [hready, hframe]
    . simp
  | some frame =>
    refine ⟨fates ++ [.lost frame], ?_, ?_, ?_⟩
    . exact haccounts.lost hframe hdrivers hready hexchanges hhealth
    . simp [List.filterMap_cons]
    . simp

end Runs

section History

theorem getFrame_fst (p : Pipeline ω ε φ ρ) : p.getFrame.1 = p.ready := by
  unfold getFrame
  cases p.ready <;> rfl

variable [Engine ω ε] [PacketFeed φ] [PacketRecorder ρ]

def handsOut (p : Pipeline ω ε φ ρ) : Operation φ ρ → Option Frame
  | .take => p.getFrame.1
  | _ => none

def interrupts (p : Pipeline ω ε φ ρ) : Operation φ ρ → Option Frame
  | .reset | .openDecoder _ => p.ready
  | _ => none

def gathered (gives : Pipeline ω ε φ ρ → Operation φ ρ → Option Frame) (p : Pipeline ω ε φ ρ) :
    List (Operation φ ρ) → List Frame
  | [] => []
  | operation :: operations =>
    (gives p operation).toList ++ gathered gives (p.perform operation) operations

theorem gathered_concat (gives : Pipeline ω ε φ ρ → Operation φ ρ → Option Frame)
    (p : Pipeline ω ε φ ρ) (operations : List (Operation φ ρ)) (operation : Operation φ ρ)
    : gathered gives p (operations ++ [operation])
        = gathered gives p operations ++ (gives (p.after operations) operation).toList := by
  induction operations generalizing p with
  | nil => simp [gathered]
  | cons first operations ih => simp [gathered, ih]

theorem Accounted.perform
    {p : Pipeline (TracedShared ω) (TracedEngine ε) (TracedFeed φ) ρ} {delivered lost : List Frame}
    (hp : p.Accounted delivered lost) (drivers : List (Driver ω ε)) (operation : Operation φ ρ)
    : (p.perform (operation.lift TracedFeed.lift)).Accounted
        (delivered ++ ((p.untraced drivers).handsOut operation).toList)
        (lost ++ ((p.untraced drivers).interrupts operation).toList) := by
  have htraces : p.HasTraces := by
    rcases hp with ⟨fates, haccounts, -⟩
    exact haccounts.traces
  cases operation with
  | take =>
    simp only [handsOut, interrupts, getFrame_fst, Option.toList_none, List.append_nil]
    exact hp.taken
  | reset =>
    have houtline := outline_reset (.nothing (TracedShared ω) (TracedEngine ε)) p
    simp only [handsOut, Option.toList_none, List.append_nil]
    apply hp.interrupted
    . exact congrArg Outline.drivers houtline
    . exact congrArg Outline.ready houtline
    . exact htraces.upholds.reset.state
    . exact p.reset_health
  | openDecoder codec =>
    have houtline := outline_openDecoder (.nothing (TracedShared ω) (TracedEngine ε)) p codec
    simp only [handsOut, Option.toList_none, List.append_nil]
    apply hp.interrupted
    . exact congrArg Outline.drivers houtline
    . exact congrArg Outline.ready houtline
    . exact (htraces.upholds.openDecoder codec).state
    . exact p.openDecoder_health codec
  | work =>
    rcases p.doWork_works with ⟨asked, hworks⟩
    simp only [handsOut, interrupts, Option.toList_none, List.append_nil]
    exact hp.works hworks
  | setStart | setFramedrop | resetParams | attachRecorder | detachRecorder | refill | wait =>
    simp only [handsOut, interrupts, Option.toList_none, List.append_nil]
    exact hp.of_same rfl rfl rfl rfl

theorem accounted_afterTraced (codec : SharedCodec) (drivers : List (Driver ω ε)) (feed : φ)
    (shared : ω) (options : DecoderOptions) (now : UInt64) (operations : List (Operation φ ρ))
    : ((createTraced codec drivers feed shared options now).afterTraced operations).Accounted
        (gathered handsOut (create codec drivers feed shared options now) operations)
        (gathered interrupts (create codec drivers feed shared options now) operations) := by
  induction operations using List.reverseRecOn with
  | nil => exact ⟨[], ⟨⟨drivers, rfl⟩, .nil, rfl⟩, rfl, rfl⟩
  | append_singleton operations operation ih =>
    -- The plain pipeline before the operation tells what the operation gives or takes away.
    rw [afterTraced_concat, gathered_concat, gathered_concat,
      ← untraced_createTraced codec drivers feed shared options now operations]
    exact ih.perform drivers operation

end History

theorem Accounts.sum_eq {p : Pipeline (TracedShared ω) (TracedEngine ε) (TracedFeed φ) ρ}
    {fates : List Fate} (haccounts : p.Accounts fates) (hfew : p.shared.frames.length < 2 ^ 64)
    : p.health.framesDecoded.toNat
        = p.health.framesDelivered.toNat + p.health.framesDiscarded.toNat
          + (if p.ready.isSome then 1 else 0) + (fates.filterMap Fate.lost?).length := by
  have hdecoded : p.health.framesDecoded = .ofNat p.shared.frames.length :=
    congrArg Health.framesDecoded haccounts.counted
  have hdelivered : p.health.framesDelivered = .ofNat (fates.filterMap Fate.delivered?).length :=
    congrArg Health.framesDelivered haccounts.counted
  have hdiscarded : p.health.framesDiscarded = .ofNat (fates.count .discarded) :=
    congrArg Health.framesDiscarded haccounts.counted
  have hlength : p.shared.frames.length = fates.length + if p.ready.isSome then 1 else 0 := by
    rw [haccounts.frames.length_eq]
    cases p.ready <;> simp
  have hfates := Fate.length_eq fates
  rw [hdecoded, hdelivered, hdiscarded, UInt64.toNat_ofNat_of_lt' hfew,
    UInt64.toNat_ofNat_of_lt' (Nat.lt_of_le_of_lt (by omega) hfew),
    UInt64.toNat_ofNat_of_lt' (Nat.lt_of_le_of_lt (by omega) hfew)]
  omega

/--
Whatever the engines and the feed do: every frame that an engine gave is handed out, discarded or ready,
or it was ready when the user started over. The frames are handed out in the order in which the engines
gave them, and each at most once. While a frame is ready a step does nothing, so the start of a segment
loses none. The counters count these frames, and the packets that the engines accepted.
-/
theorem frames_and_packets_accounted [Engine ω ε] [PacketFeed φ] [PacketRecorder ρ]
    (codec : SharedCodec) (drivers : List (Driver ω ε)) (feed : φ) (shared : ω)
    (options : DecoderOptions) (now : UInt64) (operations : List (Operation φ ρ))
    : let start : Pipeline ω ε φ ρ := create codec drivers feed shared options now
      let p : Pipeline (TracedShared ω) (TracedEngine ε) (TracedFeed φ) ρ :=
        (createTraced codec drivers feed shared options now).afterTraced operations
      let lost := gathered interrupts start operations
      p.untraced drivers = start.after operations
        ∧ (p.shared.frames.length < 2 ^ 64 →
          p.health.framesDecoded.toNat
            = p.health.framesDelivered.toNat + p.health.framesDiscarded.toNat
              + (if p.ready.isSome then 1 else 0) + lost.length)
        ∧ (∃ fates,
          List.Forall₂ Fate.Meets p.shared.frames (fates ++ p.ready.toList.map .delivered)
            ∧ fates.filterMap Fate.delivered? = gathered handsOut start operations
            ∧ fates.filterMap Fate.lost? = lost
            ∧ p.health.framesDecoded = .ofNat p.shared.frames.length
            ∧ p.health.framesDelivered = .ofNat (fates.filterMap Fate.delivered?).length
            ∧ p.health.framesDiscarded = .ofNat (fates.count .discarded))
        ∧ (p.ready.isSome → p.doWork = p)
        ∧ p.health.packetsSent = .ofNat p.shared.accepted.length
        ∧ p.health.bytesSent = .ofNat (p.shared.accepted.map (·.size)).sum := by
  intro start p lost
  have haccounted : p.Accounted (gathered handsOut start operations) lost :=
    accounted_afterTraced codec drivers feed shared options now operations
  rcases haccounted with ⟨fates, haccounts, hdelivered, hlost⟩
  have hreports : p.Reports := reports_createTraced codec drivers feed shared options now operations
  refine ⟨untraced_createTraced codec drivers feed shared options now operations, ?_,
    ⟨fates, haccounts.frames, hdelivered, hlost, ?_, ?_, ?_⟩, ?_, ?_, ?_⟩
  . intro hfew
    rw [← hlost]
    exact haccounts.sum_eq hfew
  . exact congrArg Health.framesDecoded haccounts.counted
  . exact congrArg Health.framesDelivered haccounts.counted
  . exact congrArg Health.framesDiscarded haccounts.counted
  . exact fun hready => p.doWork_of_ready (hreports hready).2 hready
  . exact congrArg Health.packetsSent haccounts.counted
  . exact congrArg Health.bytesSent haccounts.counted

-- The user resets the pipeline while a frame is ready.
theorem sample_frames_and_packets_accounted
    : let operations : List (Operation PacketChannel Collection) :=
        [.openDecoder sampleCodec, .work, .work, .reset]
      let p := sampleTraced.afterTraced operations
      p.shared.frames.length = 1
        ∧ (gathered interrupts sampleStart operations).length = 1
        ∧ p.health.framesDecoded.toNat
          = p.health.framesDelivered.toNat + p.health.framesDiscarded.toNat
            + (if p.ready.isSome then 1 else 0) + (gathered interrupts sampleStart operations).length
        ∧ p.health.packetsSent = .ofNat p.shared.accepted.length
        ∧ p.shared.accepted.length = 1 := by
  intro operations p
  have hframes : p.shared.frames.length = 1 := by decide +kernel
  have hlost : (gathered interrupts sampleStart operations).length = 1 := by decide +kernel
  have haccepted : p.shared.accepted.length = 1 := by decide +kernel
  rcases frames_and_packets_accounted sampleCodec defaultDrivers (sampleFeed [samplePacket]) () {} 0
    operations with ⟨-, hsum, -, -, hsent, -⟩
  refine ⟨hframes, hlost, hsum ?_, hsent, haccepted⟩
  change p.shared.frames.length < 2 ^ 64
  rw [hframes]
  decide

end Pipeline
end DecodePipeline
