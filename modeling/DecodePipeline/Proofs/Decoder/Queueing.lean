import DecodePipeline.Proofs.Pipeline.Operation

/-!
This module contains what the engine for uncompressed video owes to those who use it. It is a bounded
queue: what was accepted comes out once and in order, and everything the engine answers is decided by
what was asked of it before.
-/

namespace DecodePipeline.RawVideoEngine

inductive Request where
  | init (codec : CodecParams) (decoder : String)
  | send (packet : Option Packet)
  | receive
  | control (command : EngineCommand)
  | uninit
  deriving DecidableEq

inductive Event where
  | opened (codec : CodecParams) (decoder : String) (success : Bool)
  | sent (packet : Option Packet) (accepted : Bool)
  | received (answer : Received)
  | told (command : EngineCommand)
  | closed
  deriving DecidableEq

def serve (e : RawVideoEngine) : Request → Event × RawVideoEngine
  | .init codec decoder => (.opened codec decoder (e.init codec decoder).1.isOk, (e.init codec decoder).2)
  | .send packet => (.sent packet (e.send packet).1, (e.send packet).2)
  | .receive => (.received e.receive.1, e.receive.2)
  | .control command => (.told command, (e.control command).2)
  | .uninit => (.closed, e.uninit)

def serveAll (requests : List Request) : List Event × RawVideoEngine :=
  requests.foldl
    (fun served request =>
      ((served.2.serve request).1 :: served.1, (served.2.serve request).2)) ([], {})

section History

-- Histories have the latest event first, so a function of the history looks back in time.

def openedWith : List Event → Option CodecParams
  | [] | .closed :: _ => none
  | .opened codec _ true :: _ => some codec
  | _ :: earlier => openedWith earlier

def directive : List Event → FrameDrop
  | [] => .none
  | .told (.setFrameDrop framedrop) :: _ => framedrop
  | _ :: earlier => directive earlier

/-- The engine was told to drain and has not been given anything new since then. -/
def drained : List Event → Bool
  | .sent none true :: _ => true
  | [] | .sent (some _) true :: _ | .opened _ _ true :: _ | .told .reset :: _ => false
  | _ :: earlier => drained earlier

def sizeOf (codec : CodecParams) : ImageParams := .ofSize codec.width codec.height

def picture (packet : Packet) (params : ImageParams) : Frame where
  payload := packet.payload
  pts := packet.pts
  dts := packet.dts
  params := params

/--
The pictures in the packets that were accepted while the directive was not hard, since the engine was
last opened, closed or told to start over.
-/
def due : List Event → List Frame
  | [] | .opened _ _ true :: _ | .told .reset :: _ | .closed :: _ => []
  | .sent (some packet) true :: earlier =>
    due earlier ++
      if directive earlier = .hard then []
      else ((openedWith earlier).map fun codec => picture packet (sizeOf codec)).toList
  | _ :: earlier => due earlier

def given : List Event → List Frame
  | [] | .opened _ _ true :: _ | .told .reset :: _ | .closed :: _ => []
  | .received (.frame frame) :: earlier => given earlier ++ [frame]
  | _ :: earlier => given earlier

theorem due_accepted (packet : Packet) (earlier : List Event)
    : due (.sent (some packet) true :: earlier)
        = due earlier
          ++ if directive earlier = .hard then []
            else ((openedWith earlier).map fun codec => picture packet (sizeOf codec)).toList := rfl

theorem given_frame (frame : Frame) (earlier : List Event)
    : given (.received (.frame frame) :: earlier) = given earlier ++ [frame] := rfl

end History

structure Meets (e : RawVideoEngine) (history : List Event) : Prop where
  params : e.params = (openedWith history).map sizeOf
  framedrop : e.framedrop = directive history
  draining : e.isOpen → e.draining = drained history
  queue : given history ++ e.queue = due history
  bounded : e.queue.length ≤ capacity

theorem meets_empty : Meets {} [] := ⟨rfl, rfl, fun _ => rfl, rfl, Nat.zero_le _⟩

variable {e : RawVideoEngine} {history : List Event}

theorem Meets.isOpen (hmeets : e.Meets history) : e.isOpen = (openedWith history).isSome := by
  unfold RawVideoEngine.isOpen
  rw [hmeets.params, Option.isSome_map]

theorem Meets.params_eq_none_iff (hmeets : e.Meets history)
    : e.params = none ↔ openedWith history = none := by
  rw [hmeets.params, Option.map_eq_none_iff]

theorem Meets.drains_iff (hmeets : e.Meets history)
    : (e.isOpen = false ∨ e.draining = true) ↔ (openedWith history = none ∨ drained history) := by
  cases hopen : e.isOpen with
  | false =>
    have hnone : openedWith history = none := by
      rw [hmeets.isOpen] at hopen
      simpa using hopen
    simp [hnone]
  | true =>
    have hsome : openedWith history ≠ none := by
      rw [hmeets.isOpen] at hopen
      simpa [Option.isSome_iff_ne_none] using hopen
    simp [hsome, hmeets.draining hopen]

section Requests

def Suits (codec : CodecParams) (decoder : String) : Prop :=
  (codec.codec = name ∧ decoder = name) ∧ codec.width ≠ 0 ∧ codec.height ≠ 0

theorem init_cases (e : RawVideoEngine) (codec : CodecParams) (decoder : String)
    : (¬ Suits codec decoder ∧ (e.init codec decoder).1.isOk = false
          ∧ (e.init codec decoder).2 = e)
        ∨ (Suits codec decoder ∧ (e.init codec decoder).1.isOk = true
          ∧ (e.init codec decoder).2
            = { e with
                params := some (sizeOf codec), queue := [], draining := false }) := by
  unfold RawVideoEngine.init
  split
  . next hother =>
    refine .inl ⟨?_, rfl, rfl⟩
    rintro ⟨⟨hcodec, hdecoder⟩, -⟩
    simp [hcodec, hdecoder] at hother
  . next hown =>
    split
    . next hunknown =>
      refine .inl ⟨?_, rfl, rfl⟩
      rintro ⟨-, hwidth, hheight⟩
      simp [hwidth, hheight] at hunknown
    . next hknown =>
      simp only [Bool.or_eq_true, bne_iff_ne, beq_iff_eq, not_or, ne_eq,
        Decidable.not_not] at hown hknown
      exact .inr ⟨⟨hown, hknown⟩, rfl, rfl⟩

theorem init_isOk_iff (e : RawVideoEngine) (codec : CodecParams) (decoder : String)
    : (e.init codec decoder).1.isOk ↔ Suits codec decoder := by
  rcases e.init_cases codec decoder with ⟨hother, hanswer, -⟩ | ⟨hsuits, hanswer, -⟩
  . simp [hother, hanswer]
  . simp [hsuits, hanswer]

theorem init_of_failed {codec : CodecParams} {decoder : String}
    (hfailed : (e.init codec decoder).1.isOk = false)
    : (e.init codec decoder).2 = e := by
  rcases e.init_cases codec decoder with ⟨-, -, hsame⟩ | ⟨-, hanswer, -⟩
  . exact hsame
  . rw [hanswer] at hfailed
    cases hfailed

theorem Meets.init (hmeets : e.Meets history) (codec : CodecParams) (decoder : String)
    : (e.init codec decoder).2.Meets
        (.opened codec decoder (e.init codec decoder).1.isOk :: history) := by
  rcases e.init_cases codec decoder with ⟨-, hanswer, hafter⟩ | ⟨-, hanswer, hafter⟩
  . rw [hanswer, hafter]
    exact { hmeets with }
  . rw [hanswer, hafter]
    exact ⟨rfl, hmeets.framedrop, fun _ => rfl, rfl, Nat.zero_le _⟩

theorem send_none (e : RawVideoEngine)
    : e.send none = (e.isOpen, if e.isOpen then { e with draining := true } else e) := by
  unfold RawVideoEngine.send RawVideoEngine.isOpen
  cases e.params <;> rfl

theorem send_some (e : RawVideoEngine) (packet : Packet)
    : (e.send (some packet) = (false, e) ∧ (e.params = none ∨ capacity ≤ e.queue.length))
        ∨ ∃ params, e.params = some params ∧ e.queue.length < capacity
          ∧ e.send (some packet) = e.sendPacket params packet := by
  unfold RawVideoEngine.send sendPacket
  cases hparams : e.params with
  | none => exact .inl ⟨rfl, .inl rfl⟩
  | some params =>
    dsimp only
    split
    . next hfull => exact .inl ⟨rfl, .inr hfull⟩
    . next hroom => exact .inr ⟨params, rfl, Nat.lt_of_not_le hroom, rfl⟩

theorem sendPacket_of_room (hroom : e.queue.length < capacity) (params : ImageParams) (packet : Packet)
    : e.sendPacket params packet
        = (true,
            { e with
              queue := e.queue ++ if e.framedrop = .hard then [] else [picture packet params]
              draining := false }) := by
  unfold sendPacket
  rw [if_neg (Nat.not_le_of_lt hroom)]
  cases e.framedrop <;> simp [picture]

theorem send_some_refused_iff (hbounded : e.queue.length ≤ capacity) (packet : Packet)
    : (e.send (some packet)).1 = false ↔ e.params = none ∨ e.queue.length = capacity := by
  rcases e.send_some packet with ⟨hrefused, hreason⟩ | ⟨params, hparams, hroom, haccepted⟩
  . rw [hrefused]
    refine iff_of_true rfl (hreason.imp_right ?_)
    exact Nat.le_antisymm hbounded
  . rw [haccepted, sendPacket_of_room hroom, hparams]
    simp [Nat.ne_of_lt hroom]

theorem send_of_refused {packet : Packet} (hrefused : (e.send (some packet)).1 = false)
    : (e.send (some packet)).2 = e := by
  rcases e.send_some packet with ⟨hsent, -⟩ | ⟨params, -, hroom, hsent⟩
  . rw [hsent]
  . rw [hsent, sendPacket_of_room hroom] at hrefused
    cases hrefused

theorem Meets.send (hmeets : e.Meets history) (packet : Option Packet)
    : (e.send packet).2.Meets (.sent packet (e.send packet).1 :: history) := by
  cases packet with
  | none =>
    rw [send_none]
    cases hopen : e.isOpen with
    | false => exact { hmeets with draining := fun hattached => by simp [hopen] at hattached }
    | true => exact { hmeets with draining := fun _ => rfl }
  | some packet =>
    rcases e.send_some packet with ⟨hrefused, -⟩ | ⟨params, hparams, hroom, haccepted⟩
    . rw [hrefused]
      exact { hmeets with }
    . rw [haccepted, sendPacket_of_room hroom]
      have hopened := hmeets.params
      rw [hparams] at hopened
      rcases Option.map_eq_some_iff.mp hopened.symm with ⟨codec, hcodec, hsize⟩
      refine ⟨hmeets.params, hmeets.framedrop, fun _ => rfl, ?_, ?_⟩
      . rw [due_accepted, ← hmeets.queue, ← hmeets.framedrop, hcodec, ← hsize, List.append_assoc]
        rfl
      . dsimp only
        split <;> simp <;> omega

theorem receive_held {frame : Frame} {rest : List Frame} (hheld : e.queue = frame :: rest)
    : e.receive = (.frame frame, { e with queue := rest }) := by
  unfold RawVideoEngine.receive
  rw [hheld]

theorem receive_exhausted_iff (e : RawVideoEngine)
    : e.receive.1 = .exhausted ↔ e.queue = [] ∧ (e.isOpen = false ∨ e.draining = true) := by
  unfold RawVideoEngine.receive
  cases e.queue with
  | nil => cases e.isOpen <;> cases e.draining <;> simp
  | cons frame rest => simp

theorem Meets.receive (hmeets : e.Meets history)
    : e.receive.2.Meets (.received e.receive.1 :: history) := by
  have hqueue := hmeets.queue
  have hbounded := hmeets.bounded
  unfold RawVideoEngine.receive
  cases hheld : e.queue with
  | nil =>
    dsimp only
    split <;> exact { hmeets with }
  | cons frame rest =>
    rw [hheld] at hqueue hbounded
    refine { hmeets with queue := ?_, bounded := ?_ }
    . refine (congrArg (· ++ rest) (given_frame frame history)).trans ?_
      rw [List.append_assoc]
      exact hqueue
    . exact Nat.le_of_succ_le hbounded

theorem Meets.control (hmeets : e.Meets history) (command : EngineCommand)
    : (e.control command).2.Meets (.told command :: history) := by
  cases command with
  | reset => exact ⟨hmeets.params, hmeets.framedrop, fun _ => rfl, rfl, Nat.zero_le _⟩
  | setFrameDrop framedrop => exact { hmeets with framedrop := rfl }
  | getFrameDelay => exact { hmeets with }

theorem Meets.uninit (hmeets : e.Meets history) : e.uninit.Meets (.closed :: history) :=
  ⟨rfl, hmeets.framedrop, nofun, rfl, Nat.zero_le _⟩

theorem Meets.serve (hmeets : e.Meets history) (request : Request)
    : (e.serve request).2.Meets ((e.serve request).1 :: history) := by
  cases request with
  | init codec decoder => exact hmeets.init codec decoder
  | send packet => exact hmeets.send packet
  | receive => exact hmeets.receive
  | control command => exact hmeets.control command
  | uninit => exact hmeets.uninit

end Requests

section Run

theorem meets_serveAll (requests : List Request)
    : (serveAll requests).2.Meets (serveAll requests).1 := by
  refine List.foldlRecOn
    (motive := fun served : List Event × RawVideoEngine => served.2.Meets served.1)
    requests _ meets_empty ?_
  exact fun _ hmeets request _ => hmeets.serve request

/--
Whatever is asked of an engine, and in whichever order. What was received is the beginning of what is
due, and the engine holds the rest, which is never more than four pictures. The first of them is what it
gives when it is asked for a frame. It refuses a packet exactly if it is closed or holds four, and a
request to drain exactly if it is closed. It tells that there is nothing left exactly if it holds nothing
and either is closed or was told to drain and has not been given anything new since then. It opens exactly
for its own codec if the size of the pictures is known. A packet that is refused and an opening that fails
change nothing.
-/
theorem hands_out_what_it_took (requests : List Request)
    : let (history, e) := serveAll requests
      given history ++ e.queue = due history
        ∧ e.queue.length ≤ 4
        ∧ (∀ packet,
          ((e.send (some packet)).1 = false ↔ openedWith history = none ∨ e.queue.length = 4)
            ∧ ((e.send (some packet)).1 = false → (e.send (some packet)).2 = e))
        ∧ (∀ codec decoder,
          ((e.init codec decoder).1.isOk ↔ Suits codec decoder)
            ∧ ((e.init codec decoder).1.isOk = false → (e.init codec decoder).2 = e))
        ∧ ((e.send none).1 = true ↔ openedWith history ≠ none)
        ∧ (∀ frame rest, e.queue = frame :: rest →
          e.receive = (.frame frame, { e with queue := rest }))
        ∧ (e.receive.1 = .exhausted ↔
          e.queue = [] ∧ (openedWith history = none ∨ drained history)) := by
  have hmeets := meets_serveAll requests
  generalize serveAll requests = served at hmeets ⊢
  rcases served with ⟨history, e⟩
  change e.Meets history at hmeets
  refine ⟨hmeets.queue, hmeets.bounded, ?_, ?_, ?_, fun frame rest => receive_held, ?_⟩
  . intro packet
    refine ⟨?_, send_of_refused⟩
    rw [send_some_refused_iff hmeets.bounded, hmeets.params_eq_none_iff]
    rfl
  . exact fun codec decoder => ⟨e.init_isOk_iff codec decoder, init_of_failed⟩
  . rw [send_none, hmeets.isOpen]
    simp [Option.isSome_iff_ne_none]
  . rw [receive_exhausted_iff, hmeets.drains_iff]

open Pipeline (sampleCodec samplePacket foreignPacket)

-- The second packet is skipped, and the engine is full once it was drained and filled again.
def sampleRequests : List Request :=
  [.init sampleCodec.params name, .send (some samplePacket), .control (.setFrameDrop .hard),
   .send (some foreignPacket), .control (.setFrameDrop .none),
   .send (some foreignPacket), .receive, .send none, .send (some samplePacket),
   .send (some samplePacket), .send (some samplePacket)]

theorem sample_hands_out
    : let (history, e) := serveAll sampleRequests
      let first := picture foreignPacket (sizeOf sampleCodec.params)
      let other := picture samplePacket (sizeOf sampleCodec.params)
      given history = [other]
        ∧ due history = [other, first, other, other, other]
        ∧ e.queue = [first, other, other, other]
        ∧ e.receive = (.frame first, { e with queue := [other, other, other] })
        ∧ e.send (some samplePacket) = (false, e)
        ∧ (e.init sampleCodec.params "h264").1.isOk = false
        ∧ (e.init sampleCodec.params "h264").2 = e := by
  have hgiven : given (serveAll sampleRequests).1
      = [picture samplePacket (sizeOf sampleCodec.params)] := by
    decide +kernel
  have hqueue : (serveAll sampleRequests).2.queue
      = picture foreignPacket (sizeOf sampleCodec.params)
        :: List.replicate 3 (picture samplePacket (sizeOf sampleCodec.params)) := by
    decide +kernel
  have hrefused : ((serveAll sampleRequests).2.send (some samplePacket)).1 = false := by
    decide +kernel
  have hfailed : ((serveAll sampleRequests).2.init sampleCodec.params "h264").1.isOk = false := by
    decide +kernel
  have hhands := hands_out_what_it_took sampleRequests
  generalize serveAll sampleRequests = served at *
  rcases served with ⟨history, e⟩
  rcases hhands with ⟨hdue, -, hsends, hopens, -, hheld, -⟩
  rw [hgiven, hqueue] at hdue
  exact ⟨hgiven, hdue.symm, hqueue, hheld _ _ hqueue, Prod.ext hrefused ((hsends _).2 hrefused),
    hfailed, (hopens _ _).2 hfailed⟩

end Run

end DecodePipeline.RawVideoEngine
