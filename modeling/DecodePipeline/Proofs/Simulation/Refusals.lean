import DecodePipeline.Proofs.Pipeline.Finishing
import DecodePipeline.Proofs.Pipeline.Logging
import DecodePipeline.Simulation.Engine
import DecodePipeline.Simulation.Feed

/-!
This module contains what an engine that refuses its first packets has in common with one that refuses
none: only the refusals that are still to come tell them apart. An engine that refuses none gives back
everything that it takes.
-/

namespace DecodePipeline

def LoggedCall.isAccepted (c : LoggedCall) : Bool :=
  match c.call with
  | .sent _ _ accepted => accepted
  | _ => false

def LoggedShared.taken {ω : Type} (s : LoggedShared ω) : List LoggedCall :=
  s.calls.filter (·.isAccepted)

theorem LoggedShared.taken_log {ω : Type} (s : LoggedShared ω) (state : ω) (engine : Nat)
    (call : EngineCall)
    : (s.log state engine call).taken
        = s.taken ++ [(⟨engine, call⟩ : LoggedCall)].filter (·.isAccepted) := by
  unfold taken log
  rw [List.filter_append]

namespace Simulation

def SimulatedEngine.untold (e : SimulatedEngine) : SimulatedEngine := { e with framedrop := .none }

def withoutDirective (e : LoggedEngine SimulatedEngine) : LoggedEngine SimulatedEngine :=
  { e with engine := e.engine.untold, framedrop := .none }

def opening (name : String) (codec : CodecParams) (decoder : String) (success : Bool)
    (s : LoggedShared State) : LoggedShared State where
  state := (s.state.note (.created name)).note (.opened codec.codec decoder success)
  created := s.created + 1
  calls := s.calls ++ [⟨s.created, .created name⟩] ++ [⟨s.created, .opened codec decoder success⟩]

theorem init_logged (name : String) (decoders : List DecoderEntry) (behavior : Behavior)
    (codec : CodecParams) (decoder : String)
    : let created := ((Simulation.driver 0 name decoders behavior).logged).create
      let engine : SimulatedEngine := { driver := 0, behavior }
      (∀ s, Engine.init (created s).1 (created s).2 codec decoder
          = ⟨.ok (), ⟨{ engine with isOpen := true }, s.created, .none⟩,
              opening name codec decoder true s⟩)
        ∨ ∃ reason, ∀ s, Engine.init (created s).1 (created s).2 codec decoder
          = ⟨.error reason, ⟨engine, s.created, .none⟩, opening name codec decoder false s⟩ := by
  intro created engine
  have hreply (s : LoggedShared State) : Engine.init (created s).1 (created s).2 codec decoder
      = let reply := engine.init (s.state.note (.created name)) codec decoder
        ⟨reply.answer, ⟨reply.engine, s.created, .none⟩,
          (created s).2.log reply.shared s.created (.opened codec decoder reply.answer.isOk)⟩ := rfl
  unfold SimulatedEngine.init at hreply
  cases hopens : engine.opens decoder with
  | true =>
    left
    intro s
    rw [hreply, hopens]
    rfl
  | false =>
    right
    refine ⟨s!"{decoder} refuses to open", ?_⟩
    intro s
    rw [hreply, hopens]
    rfl

structure SimulatedEngine.Fresh (e : SimulatedEngine) : Prop where
  isOpen : e.isOpen = true
  queue : e.queue = []
  draining : e.draining = false

theorem SimulatedEngine.Fresh.receive {e : SimulatedEngine} (hfresh : e.Fresh) (s : State)
    : e.receive s = ⟨.pending, e, s.note (.received .pending)⟩ := by
  rcases e with ⟨driver, behavior, isOpen, queue, framedrop, draining⟩
  rcases hfresh with ⟨rfl, rfl, rfl⟩
  rfl

theorem SimulatedEngine.Fresh.receive_logged {e : LoggedEngine SimulatedEngine}
    (hfresh : e.engine.Fresh) (s : LoggedShared State)
    : Engine.receive e s
        = ⟨.pending, e, s.log (s.state.note (.received .pending)) e.number (.received .pending)⟩ := by
  have hreply : Engine.receive e s
      = let reply := e.engine.receive s.state
        ⟨reply.answer, { e with engine := reply.engine },
          s.log reply.shared e.number (.received reply.answer)⟩ := rfl
  rw [hreply, hfresh.receive]

theorem receive_drained (e : LoggedEngine SimulatedEngine) (hqueue : e.engine.queue = [])
    (hdraining : e.engine.draining = true) (s : LoggedShared State)
    : Engine.receive e s
        = ⟨.exhausted, e,
            s.log (s.state.note (.received .exhausted)) e.number (.received .exhausted)⟩ := by
  rcases e with ⟨⟨driver, behavior, isOpen, queue, framedrop, draining⟩, number, directive⟩
  dsimp only at hqueue hdraining
  subst hqueue hdraining
  rfl

theorem SimulatedEngine.receive_told (e : SimulatedEngine) (told : FrameDrop) (s s' : State)
    : let reply := e.receive s
      let reply' := { e with framedrop := told }.receive s'
      reply.answer = reply'.answer ∧ reply.engine.untold = reply'.engine.untold
        ∧ reply.shared.drivers = s.drivers ∧ reply'.shared.drivers = s'.drivers
        ∧ reply.engine.driver = e.driver ∧ reply.engine.behavior = e.behavior := by
  have hnext : ({ e with framedrop := told }.queue[{ e with framedrop := told }.nextIndex]?.filter
      fun _ => { e with framedrop := told }.isReady)
        = e.queue[e.nextIndex]?.filter fun _ => e.isReady := rfl
  unfold receive
  dsimp only at hnext ⊢
  rw [hnext]
  split
  . exact ⟨rfl, rfl, rfl, rfl, rfl, rfl⟩
  . split
    . exact ⟨rfl, rfl, rfl, rfl, rfl, rfl⟩
    . exact ⟨rfl, rfl, rfl, rfl, rfl, rfl⟩

theorem SimulatedEngine.send_taken (e : SimulatedEngine) (hdriver : e.driver = 0)
    (hcapacity : e.behavior.capacity = none) (packet : Packet) (made : Nat)
    : ∃ queue after, queue.length ≤ e.queue.length + 1
        ∧ ∀ s : State, s.drivers = #[{ made }] →
          ∃ events, e.send s (some packet)
            = ⟨true, { e with queue, draining := false },
                { events, drivers := #[{ made := after }] }⟩ := by
  have htaken {s : State} (hdrivers : s.drivers = #[{ made }]) : e.refuses s = false := by
    unfold refuses State.progress
    rw [hdriver, hcapacity, hdrivers]
    rfl
  cases hskips : e.skips with
  | true =>
    refine ⟨e.queue, made, by simp, ?_⟩
    intro s hdrivers
    unfold send
    rw [htaken hdrivers, hskips, ← hdrivers]
    exact ⟨_, rfl⟩
  | false =>
    refine ⟨e.queue ++ [e.frameOf packet made], made + 1, by simp, ?_⟩
    intro s hdrivers
    unfold send
    rw [htaken hdrivers, hskips]
    dsimp only
    have hnoted : (s.note (.sent packet.pts packet.dts !false)).drivers = #[{ made }] := hdrivers
    generalize s.note (.sent packet.pts packet.dts !false) = s at hnoted
    unfold State.progress State.update
    rw [hdriver, hnoted]
    exact ⟨s.events, rfl⟩

theorem SimulatedEngine.send_refused (e : SimulatedEngine) (hdriver : e.driver = 0) (packet : Packet)
    {refusals made : Nat} {s : State} (hdrivers : s.drivers = #[{ refusals := refusals + 1, made }])
    : ∃ events, e.send s (some packet) = ⟨false, e, { events, drivers := #[{ refusals, made }] }⟩ := by
  have hrefused : e.refuses s = true := by
    unfold refuses State.progress
    rw [hdriver, hdrivers]
    simp
  unfold send
  rw [hrefused]
  dsimp only
  have hnoted : (s.note (.sent packet.pts packet.dts !true)).drivers
      = #[{ refusals := refusals + 1, made }] := hdrivers
  generalize s.note (.sent packet.pts packet.dts !true) = s at hnoted
  unfold State.update
  rw [hdriver, hnoted]
  exact ⟨s.events, rfl⟩

def Roomy (e : LoggedEngine SimulatedEngine) : Prop :=
  e.engine.driver = 0 ∧ e.engine.behavior.capacity = none

structure Refuses (refusals : Nat) (s s' : LoggedShared State) : Prop where
  created : s.created = s'.created
  taken : s.taken = s'.taken
  drivers : ∃ made, s.state.drivers = #[{ refusals, made }] ∧ s'.state.drivers = #[{ made }]

theorem Refuses.log {refusals refusals' : Nat} {s s' : LoggedShared State}
    (hrefuses : Refuses refusals s s') {state state' : State} {engine engine' : Nat}
    {call call' : EngineCall}
    (hcalls : [(⟨engine, call⟩ : LoggedCall)].filter (·.isAccepted)
      = [(⟨engine', call'⟩ : LoggedCall)].filter (·.isAccepted))
    (hstates : ∃ made, state.drivers = #[{ refusals := refusals', made }]
      ∧ state'.drivers = #[{ made }])
    : Refuses refusals' (s.log state engine call) (s'.log state' engine' call') := by
  refine ⟨hrefuses.created, ?_, hstates⟩
  rw [LoggedShared.taken_log, LoggedShared.taken_log, hrefuses.taken, hcalls]

theorem Refuses.log_left {refusals refusals' : Nat} {s s' : LoggedShared State}
    (hrefuses : Refuses refusals s s') {state : State} {engine : Nat} {call : EngineCall}
    (hcall : (⟨engine, call⟩ : LoggedCall).isAccepted = false)
    (hstate : ∀ made, s.state.drivers = #[{ refusals, made }] →
      state.drivers = #[{ refusals := refusals', made }])
    : Refuses refusals' (s.log state engine call) s' := by
  rcases hrefuses.drivers with ⟨made, hmade, hmade'⟩
  refine ⟨hrefuses.created, ?_, made, hstate made hmade, hmade'⟩
  rw [LoggedShared.taken_log, ← hrefuses.taken]
  simp [hcall]

def tell (s : LoggedShared State) (number : Nat) (directive : FrameDrop) : LoggedShared State :=
  s.log (s.state.note (.framedrop directive)) number (.told (.setFrameDrop directive))

theorem sendTold_logged (e : LoggedEngine SimulatedEngine) (s : LoggedShared State)
    (directive : FrameDrop) (packet : Option Packet)
    : Engine.sendTold e s directive packet
        = let reply := SimulatedEngine.send { e.engine with framedrop := directive }
            (tell s e.number directive).state packet
          ⟨reply.answer, ⟨reply.engine, e.number, directive⟩,
            (tell s e.number directive).log reply.shared e.number
              (.sent packet directive reply.answer)⟩ := rfl

theorem Refuses.tell {refusals : Nat} {s s' : LoggedShared State} (hrefuses : Refuses refusals s s')
    (number : Nat) (directive : FrameDrop)
    : Refuses refusals (tell s number directive) (tell s' number directive) :=
  hrefuses.log rfl hrefuses.drivers

theorem Refuses.opening {refusals : Nat} {s s' : LoggedShared State} (hrefuses : Refuses refusals s s')
    (name : String) (codec : CodecParams) (decoder : String) (success : Bool)
    : Refuses refusals (opening name codec decoder success s)
        (opening name codec decoder success s') := by
  refine ⟨congrArg (· + 1) hrefuses.created, ?_, hrefuses.drivers⟩
  have htaken := hrefuses.taken
  unfold LoggedShared.taken at htaken ⊢
  unfold Simulation.opening
  dsimp only
  rw [List.filter_append, List.filter_append, List.filter_append, List.filter_append, htaken]
  rfl

end Simulation

namespace Difference

open Simulation

variable {refusals refused : Nat}

def refusing (refusals refused : Nat) :
    Difference (LoggedShared State) (LoggedEngine SimulatedEngine) where
  engines e s e' s' :=
    e.map withoutDirective = e'.map withoutDirective ∧ (∀ engine ∈ e, Roomy engine)
      ∧ Refuses refusals s s'
  health h h' := h = h'.add { sendRetries := refused.toUInt64 }
  clock now now' := now = now'

variable {e e' : LoggedEngine SimulatedEngine} {s s' : LoggedShared State}

theorem exists_of_refusing (hengines : (refusing refusals refused).engines (some e) s (some e') s')
    : Roomy e ∧ Refuses refusals s s'
        ∧ ∃ told directive,
            e' = { e with engine := { e.engine with framedrop := told }, framedrop := directive } := by
  rcases hengines with ⟨huntold, hroomy, hrefuses⟩
  refine ⟨hroomy e rfl, hrefuses, e'.engine.framedrop, e'.framedrop, ?_⟩
  rcases e with ⟨⟨driver, behavior, isOpen, queue, told, draining⟩, number, directive⟩
  rcases e' with ⟨⟨driver', behavior', isOpen', queue', told', draining'⟩, number', directive'⟩
  simp only [Option.map_some, withoutDirective, SimulatedEngine.untold, Option.some.injEq,
    LoggedEngine.mk.injEq, SimulatedEngine.mk.injEq] at huntold
  rcases huntold with ⟨⟨rfl, rfl, rfl, rfl, -, rfl⟩, rfl, -⟩
  rfl

theorem refusing_of_directive (hengine : withoutDirective e = withoutDirective e') (hroomy : Roomy e)
    (hrefuses : Refuses refusals s s')
    : (refusing refusals refused).engines (some e) s (some e') s' := by
  refine ⟨congrArg some hengine, ?_, hrefuses⟩
  rintro _ ⟨⟩
  exact hroomy

theorem hidden_refusing (name : String) (decoders : List DecoderEntry) {behavior : Behavior}
    (hcapacity : behavior.capacity = none)
    : (refusing refusals refused).Hidden [(Simulation.driver 0 name decoders behavior).logged] where
  attached e e' s s' hengines := by simpa using congrArg Option.isSome hengines.1
  control e e' s s' command hengines := by
    rcases exists_of_refusing hengines with ⟨hroomy, hrefuses, told, directive, rfl⟩
    cases command with
    | reset | setFrameDrop directive | getFrameDelay =>
      exact ⟨rfl, refusing_of_directive rfl hroomy (hrefuses.log rfl hrefuses.drivers)⟩
  receive e e' s s' hengines := by
    rcases exists_of_refusing hengines with ⟨hroomy, hrefuses, told, directive, rfl⟩
    rcases e.engine.receive_told told s.state s'.state with
      ⟨hanswer, huntold, hdrivers, hdrivers', hdriver, hbehavior⟩
    have hroomy' : Roomy (Engine.receive e s).engine :=
      ⟨hdriver.trans hroomy.1, (congrArg Behavior.capacity hbehavior).trans hroomy.2⟩
    refine ⟨hanswer, refusing_of_directive ?_ hroomy' (hrefuses.log rfl ?_)⟩
    . exact congrArg (fun engine => (⟨engine, e.number, .none⟩ : LoggedEngine SimulatedEngine)) huntold
    . rcases hrefuses.drivers with ⟨made, hmade, hmade'⟩
      exact ⟨made, hdrivers.trans hmade, hdrivers'.trans hmade'⟩
  uninit e e' s s' hengines := by
    rcases exists_of_refusing hengines with ⟨hroomy, hrefuses, told, directive, rfl⟩
    exact ⟨rfl, by simp, hrefuses.log rfl hrefuses.drivers⟩
  init driver hdriver s s' codec decoder hengines := by
    rcases hengines with ⟨-, -, hrefuses⟩
    rw [List.mem_singleton] at hdriver
    subst hdriver
    rcases init_logged name decoders behavior codec decoder with hinit | ⟨reason, hinit⟩
    . rw [hinit, hinit]
      exact ⟨rfl, refusing_of_directive (by rw [hrefuses.created]) ⟨rfl, hcapacity⟩ (hrefuses.opening ..)⟩
    . rw [hinit, hinit]
      exact ⟨rfl, rfl, by simp, hrefuses.opening ..⟩
  add h h' more hhealth := by
    rw [show h = _ from hhealth]
    exact Health.add_right_comm ..
  setTime h h' now now' hclock hhealth := by
    rw [show h = _ from hhealth, show now = now' from hclock]
    simp [refusing, Health.add, Health.set]

theorem sendsAlike_drain (hengines : (refusing refusals refused).engines (some e) s (some e') s')
    (directive : FrameDrop)
    : (refusing refusals refused).SameReply (Engine.sendTold e s directive none)
        (Engine.sendTold e' s' directive none) := by
  rcases exists_of_refusing hengines with ⟨hroomy, hrefuses, told, before, rfl⟩
  have htold := hrefuses.tell e.number directive
  rw [sendTold_logged, sendTold_logged]
  exact ⟨rfl, refusing_of_directive rfl hroomy (htold.log rfl htold.drivers)⟩

theorem hiddenBySending_refusing : (refusing 0 refused).HiddenBySending := by
  intro e e' s s' directive packet hengines
  cases packet with
  | none => exact sendsAlike_drain hengines directive
  | some packet =>
    rcases exists_of_refusing hengines with ⟨hroomy, hrefuses, told, before, rfl⟩
    have htold := hrefuses.tell e.number directive
    rcases htold.drivers with ⟨made, hmade, hmade'⟩
    rcases SimulatedEngine.send_taken { e.engine with framedrop := directive } hroomy.1 hroomy.2
      packet made with ⟨queue, after, -, htaken⟩
    rcases htaken _ hmade with ⟨events, hsend⟩
    rcases htaken _ hmade' with ⟨events', hsend'⟩
    rw [sendTold_logged, sendTold_logged, hsend, hsend']
    exact ⟨rfl, refusing_of_directive rfl hroomy (htold.log rfl ⟨after, rfl, rfl⟩)⟩

theorem refusing_of_refused
    (hengines : (refusing (refusals + 1) refused).engines (some e) s (some e') s')
    (directive : FrameDrop) (packet : Packet)
    : ∃ after, Engine.sendTold e s directive (some packet)
          = ⟨false, ⟨{ e.engine with framedrop := directive }, e.number, directive⟩, after⟩
        ∧ (refusing refusals (refused + 1)).engines
            (some ⟨{ e.engine with framedrop := directive }, e.number, directive⟩) after
            (some e') s' := by
  rcases exists_of_refusing hengines with ⟨hroomy, hrefuses, told, before, rfl⟩
  have htold : Refuses (refusals + 1) (tell s e.number directive) s' :=
    hrefuses.log_left rfl fun made hmade => hmade
  rcases htold.drivers with ⟨made, hmade, -⟩
  rcases SimulatedEngine.send_refused { e.engine with framedrop := directive } hroomy.1 packet
    hmade with ⟨events, hsend⟩
  refine ⟨_, by rw [sendTold_logged, hsend], refusing_of_directive rfl hroomy ?_⟩
  apply htold.log_left rfl
  intro made' hmade'
  have hsame : made = made' := by simpa using hmade.symm.trans hmade'
  rw [hsame]

theorem refusing_of_pending
    (hengines : (refusing refusals refused).engines (some e) s (some e') s') (hfresh : e.engine.Fresh)
    : ∃ after, Engine.receive e s = ⟨.pending, e, after⟩
        ∧ (refusing refusals refused).engines (some e) after (some e') s' := by
  rcases exists_of_refusing hengines with ⟨hroomy, hrefuses, told, before, rfl⟩
  refine ⟨_, hfresh.receive_logged s, refusing_of_directive rfl hroomy ?_⟩
  exact hrefuses.log_left rfl fun made hmade => hmade

end Difference

section Supply

open Simulation

def Simulation.supply :
    Supply (LoggedShared State) (LoggedEngine SimulatedEngine) (TracedFeed PreparedFeed) where
  holds e s := (∀ engine ∈ e, Roomy engine) ∧ ∃ made, s.state.drivers = #[{ made }]
  frames e := e.engine.queue.length
  drains e := e.engine.draining
  readings f := f.feed.items.length
  proper f := ∀ packet, some packet ∈ f.feed.items → packet.bounds.Proper

theorem Simulation.holds_of_roomy {e : LoggedEngine SimulatedEngine} {s : LoggedShared State}
    (hroomy : Roomy e) {made : Nat} (hdrivers : s.state.drivers = #[{ made }])
    : supply.holds (some e) s := by
  refine ⟨?_, made, hdrivers⟩
  rintro _ ⟨⟩
  exact hroomy

variable (name : String) (decoders : List DecoderEntry) {behavior : Behavior}

theorem Simulation.invariant_of_opened
    {holds : Option (LoggedEngine SimulatedEngine) → LoggedShared State → Prop}
    (control : ∀ engine shared command, holds (some engine) shared →
      holds (some (Engine.control engine shared command).engine)
        (Engine.control engine shared command).shared)
    (uninit : ∀ engine shared, holds (some engine) shared →
      holds none (Engine.uninit engine shared).shared)
    (opened : ∀ shared codec decoder, holds none shared →
      holds (some ⟨{ driver := 0, behavior, isOpen := true }, shared.created, .none⟩)
        (opening name codec decoder true shared))
    (failed : ∀ shared codec decoder, holds none shared →
      holds none (opening name codec decoder false shared))
    : Engine.Invariant [(Simulation.driver 0 name decoders behavior).logged] holds := by
  refine ⟨control, uninit, ?_⟩
  intro driver hdriver shared codec decoder hshared
  rw [List.mem_singleton] at hdriver
  subst hdriver
  rcases init_logged name decoders behavior codec decoder with hinit | ⟨reason, hinit⟩
  . dsimp only at hinit ⊢
    rw [hinit]
    exact opened shared codec decoder hshared
  . dsimp only at hinit ⊢
    rw [hinit]
    exact failed shared codec decoder hshared

theorem Simulation.invariant_supply (hcapacity : behavior.capacity = none)
    : Engine.Invariant [(Simulation.driver 0 name decoders behavior).logged] supply.holds := by
  apply invariant_of_opened
  . intro engine shared command hshared
    rcases hshared with ⟨hroomy, made, hdrivers⟩
    have hsame : Roomy (Engine.control engine shared command).engine
        ∧ (Engine.control engine shared command).shared.state.drivers = shared.state.drivers := by
      cases command <;> exact ⟨hroomy engine rfl, rfl⟩
    exact holds_of_roomy hsame.1 (hsame.2.trans hdrivers)
  . exact fun engine shared hshared => ⟨by simp, hshared.2⟩
  . intro shared codec decoder hshared
    rcases hshared.2 with ⟨made, hdrivers⟩
    exact holds_of_roomy ⟨rfl, hcapacity⟩ hdrivers
  . exact fun shared codec decoder hshared => ⟨by simp, hshared.2⟩

theorem Simulation.invariant_left (limit : Nat)
    : Engine.Invariant [(Simulation.driver 0 name decoders behavior).logged]
        fun engine _ => supply.left engine ≤ limit := by
  apply invariant_of_opened
  . intro engine shared command hshared
    cases command with
    | reset => exact Nat.zero_le _
    | setFrameDrop | getFrameDelay => exact hshared
  . exact fun engine shared hshared => Nat.zero_le _
  . exact fun shared codec decoder hshared => Nat.zero_le _
  . exact fun shared codec decoder hshared => Nat.zero_le _

theorem Simulation.send_supply {e : LoggedEngine SimulatedEngine} {s : LoggedShared State}
    (hholds : supply.holds (some e) s) (packet : Option Packet)
    : let reply := Engine.send e s packet
      supply.holds (some reply.engine) reply.shared ∧ reply.answer = true
        ∧ supply.frames reply.engine ≤ supply.frames e + packet.toList.length
        ∧ (packet = none → supply.drains reply.engine) := by
  rcases hholds with ⟨hroomy, made, hdrivers⟩
  have hroom := hroomy e rfl
  cases packet with
  | none => exact ⟨holds_of_roomy hroom hdrivers, rfl, Nat.le_refl _, fun _ => rfl⟩
  | some packet =>
    rcases e.engine.send_taken hroom.1 hroom.2 packet made with ⟨queue, after, hlength, htaken⟩
    rcases htaken s.state hdrivers with ⟨events, hsend⟩
    have hreply : Engine.send e s (some packet)
        = let reply := e.engine.send s.state (some packet)
          ⟨reply.answer, { e with engine := reply.engine },
            s.log reply.shared e.number (.sent (some packet) e.framedrop reply.answer)⟩ := rfl
    rw [hreply, hsend]
    exact ⟨holds_of_roomy hroom rfl, rfl, hlength, by simp⟩

theorem Simulation.receive_supply {e : LoggedEngine SimulatedEngine} {s : LoggedShared State}
    (hholds : supply.holds (some e) s)
    : let reply := Engine.receive e s
      supply.holds (some reply.engine) reply.shared
        ∧ match reply.answer with
          | .frame _ => supply.frames reply.engine < supply.frames e
          | .pending => supply.frames reply.engine ≤ supply.frames e ∧ ¬ supply.drains e
          | .exhausted => supply.frames reply.engine ≤ supply.frames e := by
  rcases hholds with ⟨hroomy, made, hdrivers⟩
  have hroom := hroomy e rfl
  have hreply : Engine.receive e s
      = let reply := e.engine.receive s.state
        ⟨reply.answer, { e with engine := reply.engine },
          s.log reply.shared e.number (.received reply.answer)⟩ := rfl
  rw [hreply]
  unfold SimulatedEngine.receive
  cases hnext : e.engine.queue[e.engine.nextIndex]?.filter fun _ => e.engine.isReady with
  | some frame =>
    have hget : e.engine.queue[e.engine.nextIndex]? = some frame :=
      (Option.filter_eq_some_iff.mp hnext).1
    have hindex := (List.getElem?_eq_some_iff.mp hget).1
    refine ⟨holds_of_roomy hroom hdrivers, ?_⟩
    change (e.engine.queue.eraseIdx e.engine.nextIndex).length < e.engine.queue.length
    rw [List.length_eraseIdx_of_lt hindex]
    omega
  | none =>
    cases hends : e.engine.draining || !e.engine.isOpen with
    | true => exact ⟨holds_of_roomy hroom hdrivers, Nat.le_refl _⟩
    | false =>
      have hdraining : e.engine.draining = false := (Bool.or_eq_false_iff.mp hends).1
      refine ⟨holds_of_roomy hroom hdrivers, Nat.le_refl _, ?_⟩
      simp [supply, hdraining]

theorem Simulation.tryRead_supply {feed after : TracedFeed PreparedFeed} {poll : Poll Packet}
    (hproper : supply.proper feed) (htry : PacketFeed.tryRead feed = (poll, after))
    : supply.proper after
        ∧ match poll with
          | .item packet => packet.bounds.Proper ∧ supply.readings after < supply.readings feed
          | .empty => supply.readings after < supply.readings feed
          | .ended => supply.readings after ≤ supply.readings feed := by
  rcases feed with ⟨⟨items, reads⟩, polls⟩
  rcases items with _ | ⟨first | first, items⟩
  . cases htry
    exact ⟨hproper, Nat.le_refl _⟩
  . cases htry
    refine ⟨?_, by simp [supply]⟩
    intro other hother
    exact hproper other (List.mem_cons_of_mem _ hother)
  . cases htry
    refine ⟨?_, hproper first (by simp), by simp [supply]⟩
    intro other hother
    exact hproper other (List.mem_cons_of_mem _ hother)

theorem Simulation.finite_supply (hcapacity : behavior.capacity = none)
    : supply.Finite [(Simulation.driver 0 name decoders behavior).logged] where
  invariant := invariant_supply name decoders hcapacity
  lasting :=
    { send := fun engine shared packet hholds => (send_supply hholds packet).1
      receive := fun engine shared hholds => (receive_supply hholds).1 }
  left limit := invariant_left name decoders limit
  send engine shared directive packet hholds := by
    have htold := (invariant_supply name decoders hcapacity).control engine shared
      (.setFrameDrop directive) hholds
    exact (send_supply htold packet).2
  receive engine shared hholds := (receive_supply hholds).2
  item hproper htry := by
    rcases tryRead_supply hproper htry with ⟨hafter, hbounds, hless⟩
    exact ⟨hbounds, hafter, hless⟩
  empty := tryRead_supply
  ended := tryRead_supply

end Supply

end DecodePipeline
