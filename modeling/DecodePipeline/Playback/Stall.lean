import DecodePipeline.Playback.Basic

/-!
This module contains the complaint of a stage that waits for input for a long time. It goes on
waiting all the same.
-/

namespace DecodePipeline

def fractionText (part places : Nat) : String :=
  let digits := Decimal.digitsOf part
  let padded := Decimal.zeros (places - digits.length) ++ digits
  let kept := (padded.reverse.dropWhile (· == '0')).reverse
  if kept.isEmpty then "" else String.ofList ('.' :: kept)

def durationText (micros : Nat) : String :=
  if 1000000 ≤ micros then s!"{micros / 1000000}{fractionText (micros % 1000000) 6}s"
  else if 1000 ≤ micros then s!"{micros / 1000}{fractionText (micros % 1000) 3}ms"
  else s!"{micros}µs"

def defaultStallThreshold : Nat := 5000000

def Playback.complain {ω ε ρ : Type} (s : Playback ω ε ρ) (now : UInt64) (threshold : Nat) :
    Playback ω ε ρ :=
  if s.stage == .sleeping && s.pipeline.health.isStalled now threshold then
    s.say (.noInput (durationText threshold))
  else s

end DecodePipeline
