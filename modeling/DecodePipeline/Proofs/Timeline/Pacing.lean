import DecodePipeline.Health
import DecodePipeline.Options
import DecodePipeline.Packet
import DecodePipeline.Proofs.Float.Division
import DecodePipeline.Proofs.Timeline.History

/-!
This module contains the times that are made up from the frame rate: the first one is that of the
earliest packet, and from then on each frame follows the last one at the distance of a frame.
-/

namespace DecodePipeline

/-- What happens between the packets that are offered and the times that frames are given. -/
inductive Passage where
  | offered (packet : Packet)
  | decoded (frame : Frame) (rate : Float) (given : Timestamp)
  | startedOver

namespace Passage

def startsOver : Passage → Bool
  | startedOver => true
  | _ => false

def isDecoded : Passage → Bool
  | decoded .. => true
  | _ => false

def packet? : Passage → Option Packet
  | offered packet => some packet
  | _ => none

def time? (passage : Passage) : Option Timestamp := passage.packet?.bind (·.anyTime)

def given? : Passage → Option Timestamp
  | decoded _ _ given => some given
  | _ => none

def sinceStart (passages : List Passage) : List Passage := passages.rtakeWhile (!·.startsOver)

def firstTime (passages : List Passage) : Option Timestamp := (sinceStart passages).findSome? time?

def lastGiven (passages : List Passage) : Option Timestamp :=
  ((sinceStart passages).filterMap given?).getLast?

theorem sinceStart_startedOver (passages : List Passage)
    : sinceStart (passages ++ [.startedOver]) = [] := by
  apply List.rtakeWhile_concat_neg
  simp [startsOver]

theorem sinceStart_concat (passages : List Passage) {passage : Passage}
    (hgoes : passage.startsOver = false)
    : sinceStart (passages ++ [passage]) = sinceStart passages ++ [passage] := by
  apply List.rtakeWhile_concat_pos
  simp [hgoes]

theorem firstTime_concat (passages : List Passage) {passage : Passage}
    (hgoes : passage.startsOver = false)
    : firstTime (passages ++ [passage]) = (firstTime passages <|> passage.time?) := by
  unfold firstTime
  rw [sinceStart_concat passages hgoes, List.findSome?_append]
  simp

theorem lastGiven_concat (passages : List Passage) {passage : Passage}
    (hgoes : passage.startsOver = false)
    : lastGiven (passages ++ [passage]) = (passage.given? <|> lastGiven passages) := by
  unfold lastGiven
  rw [sinceStart_concat passages hgoes, List.filterMap_append, List.getLast?_append]
  cases hgiven : passage.given? <;> simp [hgiven]

/--
A frame follows the last one at the distance of a frame. The first one has the time of the earliest
packet.
-/
structure Follows (before : List Passage) (rate : Float) (given : Timestamp) : Prop where
  rate_pos : 0 < rate
  first : lastGiven before = none → given = (firstTime before).getD .zero
  next : ∀ last, lastGiven before = some last → given = last.offset (1 / rate)
  forward : ∀ last, lastGiven before = some last → ¬ given < last

def Spaced (passages : List Passage) : Prop :=
  ∀ before frame rate given after,
    passages = before ++ .decoded frame rate given :: after → Follows before rate given

theorem Spaced.concat {passages : List Passage} (hspaced : Spaced passages) {passage : Passage}
    (hfollows : ∀ frame rate given, passage = .decoded frame rate given → Follows passages rate given)
    : Spaced (passages ++ [passage]) := by
  intro before frame rate given after hsplit
  rcases List.eq_nil_or_concat after with rfl | ⟨after, last, rfl⟩
  . rcases List.append_inj' hsplit rfl with ⟨rfl, hlast⟩
    exact hfollows frame rate given (List.singleton_inj.mp hlast)
  . have hsplit : passages ++ [passage]
        = (before ++ .decoded frame rate given :: after) ++ [last] := by simpa using hsplit
    exact hspaced before frame rate given after (List.append_inj' hsplit rfl).1

end Passage

theorem DecoderOptions.effectiveFps_pos (options : DecoderOptions) (fps : Option Float)
    : 0 < options.effectiveFps fps := by
  unfold effectiveFps
  split
  . next rate hrate => simpa using (Option.filter_eq_some_iff.mp hrate).2
  . split
    . assumption
    . decide +kernel

theorem Timestamp.not_offset_lt {rate : Float} (hrate : 0 < rate) (t : Timestamp)
    : ¬ t.offset (1 / rate) < t := by
  rcases Floating.one_div_nonneg (x := 1) (by rfl) hrate with ⟨distance, hplace, hnonneg⟩
  apply Floating.not_add_lt
  . intro b hb
    have hsame : b = distance := Option.some.inj (hb.symm.trans hplace)
    omega
  . simp [hplace]

namespace Reconciler

open Passage

section Uncorrected

variable (r : Reconciler) (pts dts : Option Timestamp) (fps : Float)

theorem reconcile_uncorrected
    : (r.reconcile pts dts false fps).1 = ⟨r.synthesized fps, true⟩
        ∧ (r.reconcile pts dts false fps).2
          = { r.track pts dts with decoded := some (r.synthesized fps) } := by
  have hsame : (r.track pts dts).synthesized fps = r.synthesized fps := by
    rw [track_eq]
    rfl
  unfold reconcile warnsOfMissing
  simp [hsame]

theorem notices_uncorrected (result : Reconciled) : r.notices result false fps = [] := by
  simp [notices, warnsOfMissing]

end Uncorrected

structure Paces (r : Reconciler) (h : Health) (passages : List Passage) : Prop where
  decoded : r.decoded = lastGiven passages
  firstPacket : r.firstPacket = firstTime passages
  warnings : r.warnings = 0
  frames : h.framesDecoded = .ofNat (passages.countP (·.isDecoded))
  synthesized : h.synthesizedPts = h.framesDecoded
  spaced : Spaced passages

variable {r : Reconciler} {h : Health} {passages : List Passage}

theorem paces_empty : Paces {} {} [] := by
  refine ⟨rfl, rfl, rfl, rfl, rfl, ?_⟩
  intro before frame rate given after hsplit
  simp at hsplit

theorem Paces.notePacket (hpaces : r.Paces h passages) (packet : Packet)
    : (r.notePacket packet.pts packet.dts).Paces h (passages ++ [.offered packet]) where
  decoded := by
    rw [lastGiven_concat passages rfl]
    exact hpaces.decoded
  firstPacket := by
    rw [firstTime_concat passages rfl, ← hpaces.firstPacket]
    rfl
  warnings := hpaces.warnings
  frames := by
    rw [List.countP_append, hpaces.frames]
    simp [isDecoded]
  synthesized := hpaces.synthesized
  spaced := by
    apply hpaces.spaced.concat
    intro _ _ _ hframe
    cases hframe

theorem Paces.reset (hpaces : r.Paces h passages) (trust : Trust)
    : Paces { trust } h (passages ++ [.startedOver]) where
  decoded := by
    unfold lastGiven
    rw [sinceStart_startedOver]
    rfl
  firstPacket := by
    unfold firstTime
    rw [sinceStart_startedOver]
    rfl
  warnings := rfl
  frames := by
    rw [List.countP_append, hpaces.frames]
    simp [isDecoded]
  synthesized := hpaces.synthesized
  spaced := by
    apply hpaces.spaced.concat
    intro _ _ _ hframe
    cases hframe

theorem Paces.follows (hpaces : r.Paces h passages) {rate : Float} (hrate : 0 < rate)
    : Follows passages rate (r.synthesized rate) := by
  unfold Reconciler.synthesized
  rw [hpaces.decoded, hpaces.firstPacket]
  refine ⟨hrate, ?_, ?_, ?_⟩
  . intro hlast
    rw [hlast]
  . intro last hlast
    rw [hlast]
  . intro last hlast
    rw [hlast]
    exact Timestamp.not_offset_lt hrate last

theorem Paces.reconcile (hpaces : r.Paces h passages) (frame : Frame) {rate : Float} (hrate : 0 < rate)
    : (r.reconcile frame.pts frame.dts false rate).2.Paces (h.recordDecoded true)
        (passages ++ [.decoded frame rate (r.synthesized rate)]) := by
  rw [(r.reconcile_uncorrected frame.pts frame.dts rate).2, track_eq]
  refine ⟨?_, ?_, hpaces.warnings, ?_, ?_, ?_⟩
  . rw [lastGiven_concat passages rfl]
    rfl
  . rw [firstTime_concat passages rfl]
    simpa [time?, packet?] using hpaces.firstPacket
  . have hframes : (h.recordDecoded true).framesDecoded = h.framesDecoded + 1 := rfl
    rw [hframes, hpaces.frames, List.countP_append]
    simp [isDecoded]
  . have hsynthesized : (h.recordDecoded true).synthesizedPts = h.synthesizedPts + 1 := rfl
    rw [hsynthesized, hpaces.synthesized]
    rfl
  . apply hpaces.spaced.concat
    intro _ _ _ hframe
    cases hframe
    exact hpaces.follows hrate

theorem Paces.of_health (hpaces : r.Paces h passages) {h' : Health}
    (hframes : h'.framesDecoded = h.framesDecoded)
    (hsynthesized : h'.synthesizedPts = h.synthesizedPts)
    : r.Paces h' passages := by
  refine { hpaces with frames := ?_, synthesized := ?_ }
  . rw [hframes, hpaces.frames]
  . rw [hframes, hsynthesized, hpaces.synthesized]

end Reconciler

end DecodePipeline
