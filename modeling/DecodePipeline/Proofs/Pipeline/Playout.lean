import DecodePipeline.Proofs.Pipeline.Image
import DecodePipeline.Proofs.Pipeline.Lockstep

/-!
This module contains runs to the end: a pipeline makes steps and hands over their frames until it gives
no frame and has ended, however often it has to wait in between.
-/

namespace DecodePipeline.Pipeline

variable {ω ε φ ρ : Type} [Engine ω ε] [PacketFeed φ] [PacketRecorder ρ]

/-- The frames and the pipeline at the end, if it comes within a number of rounds. -/
def playOut (p : Pipeline ω ε φ ρ) : Nat → Option (List Frame × Pipeline ω ε φ ρ)
  | 0 => none
  | rounds + 1 =>
    match p.doWork.getFrame with
    | (some frame, _, q) => (q.playOut rounds).map fun (frames, r) => (frame :: frames, r)
    | (none, .ended, q) => some ([], q)
    | (none, _, q) => q.playOut rounds

variable {p q r : Pipeline ω ε φ ρ} {status : Status}

theorem playOut_of_frame {frame : Frame} (hround : p.doWork.getFrame = (some frame, status, q))
    (rounds : Nat)
    : p.playOut (rounds + 1) = (q.playOut rounds).map fun (frames, r) => (frame :: frames, r) := by
  rw [playOut, hround]

theorem playOut_of_ended (hround : p.doWork.getFrame = (none, .ended, q)) (rounds : Nat)
    : p.playOut (rounds + 1) = some ([], q) := by
  rw [playOut, hround]

theorem playOut_of_none (hround : p.doWork.getFrame = (none, status, q)) (hstatus : status ≠ .ended)
    (rounds : Nat)
    : p.playOut (rounds + 1) = q.playOut rounds := by
  rw [playOut, hround]
  cases status with
  | ended => exact absurd rfl hstatus
  | ready | waiting | again => rfl

theorem playOut_of_idle (hready : p.doWork.ready = none) (rounds : Nat)
    : p.playOut (rounds + 1)
        = if p.doWork.status = .ended then some ([], p.doWork) else p.doWork.playOut rounds := by
  have hround : p.doWork.getFrame
      = (none, if p.doWork.status == .ready then .again else p.doWork.status, p.doWork) := by
    unfold getFrame
    rw [hready]
  cases hstatus : p.doWork.status with
  | ended =>
    rw [hstatus] at hround
    exact playOut_of_ended hround rounds
  | ready | waiting | again =>
    rw [hstatus] at hround
    exact playOut_of_none hround (by decide) rounds

theorem playOut_induct {motive : Pipeline ω ε φ ρ → Prop} {rounds : Nat} {frames : List Frame}
    (hplay : p.playOut rounds = some (frames, r)) (first : motive p.doWork.getFrame.2.2)
    (work : ∀ q : Pipeline ω ε φ ρ, motive q → motive q.doWork.getFrame.2.2)
    : motive r := by
  induction rounds generalizing p frames with
  | zero => cases hplay
  | succ rounds ih =>
    rcases hround : p.doWork.getFrame with ⟨frame, status, q⟩
    rw [hround] at first
    cases frame with
    | some frame =>
      rw [playOut_of_frame hround] at hplay
      rcases Option.map_eq_some_iff.mp hplay with ⟨⟨rest, last⟩, hrest, hsame⟩
      cases hsame
      exact ih hrest (work q first)
    | none =>
      by_cases hended : status = .ended
      . subst hended
        rw [playOut_of_ended hround] at hplay
        cases hplay
        exact first
      . rw [playOut_of_none hround hended] at hplay
        exact ih hplay (work q first)

theorem playOut_add {rounds : Nat} {played : List Frame × Pipeline ω ε φ ρ}
    (hplay : p.playOut rounds = some played) (more : Nat)
    : p.playOut (rounds + more) = some played := by
  induction rounds generalizing p played with
  | zero => cases hplay
  | succ rounds ih =>
    rw [Nat.add_right_comm]
    rcases hround : p.doWork.getFrame with ⟨frame, status, q⟩
    cases frame with
    | some frame =>
      rw [playOut_of_frame hround] at hplay ⊢
      rcases Option.map_eq_some_iff.mp hplay with ⟨rest, hrest, hsame⟩
      rw [ih hrest, ← hsame]
      rfl
    | none =>
      by_cases hended : status = .ended
      . subst hended
        rw [playOut_of_ended hround] at hplay ⊢
        exact hplay
      . rw [playOut_of_none hround hended] at hplay ⊢
        exact ih hplay

theorem Lockstep.playOut {d : Difference ω ε} (h : Lockstep d p.doWork q.doWork)
    (hsends : d.HiddenBySending) (rounds : Nat)
    : Option.Rel (fun played played' => played.1 = played'.1 ∧ Lockstep d played.2 played'.2)
        (p.playOut rounds) (q.playOut rounds) := by
  induction rounds generalizing p q with
  | zero => exact .none
  | succ rounds ih =>
    rcases h.getFrame with ⟨hframe, hstatus, htaken⟩
    rcases hp : p.doWork.getFrame with ⟨frame, status, p'⟩
    rcases hq : q.doWork.getFrame with ⟨frame', status', q'⟩
    rw [hp, hq] at hframe hstatus htaken
    dsimp only at hframe hstatus htaken
    subst hframe hstatus
    have hnext := ih (htaken.doWork hsends)
    cases frame with
    | some frame =>
      rw [playOut_of_frame hp, playOut_of_frame hq]
      generalize p'.playOut rounds = played at hnext ⊢
      generalize q'.playOut rounds = played' at hnext ⊢
      cases hnext with
      | none => exact .none
      | some hsame => exact .some ⟨congrArg (frame :: ·) hsame.1, hsame.2⟩
    | none =>
      by_cases hended : status = .ended
      . subst hended
        rw [playOut_of_ended hp, playOut_of_ended hq]
        exact .some ⟨rfl, htaken⟩
      . rw [playOut_of_none hp hended, playOut_of_none hq hended]
        exact hnext

theorem image_playOut {ω' ε' φ' : Type} [Engine ω' ε'] [PacketFeed φ'] (p : Pipeline ω ε φ ρ)
    (l : Likeness ω ε φ ω' ε' φ') {drivers : List (Driver ω' ε')}
    (hdrivers : List.Forall₂ l.Drives p.drivers drivers) (rounds : Nat)
    : (p.image l drivers).playOut rounds
        = (p.playOut rounds).map fun (frames, r) => (frames, r.image l drivers) := by
  induction rounds generalizing p with
  | zero => rfl
  | succ rounds ih =>
    have hround := image_getFrame p.doWork l drivers
    rw [← image_doWork p l drivers hdrivers] at hround
    have hkept : List.Forall₂ l.Drives p.doWork.getFrame.2.2.drivers drivers := by
      rw [show p.doWork.getFrame.2.2.drivers = p.drivers from
        (p.doWork.perform_drivers .take).trans (p.perform_drivers .work)]
      exact hdrivers
    rcases hplain : p.doWork.getFrame with ⟨frame, status, q⟩
    rw [hplain] at hround hkept
    have hrest := ih q hkept
    cases frame with
    | some frame =>
      rw [playOut_of_frame hround, playOut_of_frame hplain, hrest, Option.map_map, Option.map_map]
      rfl
    | none =>
      by_cases hended : status = .ended
      . subst hended
        rw [playOut_of_ended hround, playOut_of_ended hplain]
        rfl
      . rw [playOut_of_none hround hended, playOut_of_none hplain hended]
        exact hrest

end DecodePipeline.Pipeline
