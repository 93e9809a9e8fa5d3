/-!
This module contains the exact value of a binary floating point number: its sign, and for a finite
number the integer and the power of two whose product it is. Everything that prints a number starts
from this view, so no printing step computes with rounded numbers.
-/

namespace DecodePipeline

structure Binary.Magnitude where
  significand : Nat
  exponent : Int
  -- The next smaller number is only half as far away as the next larger one.
  narrowBelow : Bool
  deriving DecidableEq

inductive Binary where
  | nan
  | infinite (negative : Bool)
  | finite (negative : Bool) (magnitude : Binary.Magnitude)
  deriving DecidableEq

structure Binary.Width where
  fraction : Nat
  exponent : Nat

namespace Binary.Width

def double : Width := ⟨52, 11⟩

def single : Width := ⟨23, 8⟩

def leastExponent (w : Width) : Int :=
  2 - (Nat.pow 2 (w.exponent - 1) : Nat) - w.fraction

end Binary.Width

namespace Binary

def ofBits (w : Width) (bits : Nat) : Binary :=
  -- Read the bits of a number: an exponent field of all ones marks NaN and the infinities, one of
  -- all zeros the numbers without a leading one.
  let fraction := bits % Nat.pow 2 w.fraction
  let biased := bits / Nat.pow 2 w.fraction % Nat.pow 2 w.exponent
  let negative := bits / Nat.pow 2 (w.fraction + w.exponent) % 2 == 1
  if biased == Nat.pow 2 w.exponent - 1 then
    if fraction == 0 then .infinite negative else .nan
  else if biased == 0 then
    .finite negative ⟨fraction, w.leastExponent, false⟩
  else
    .finite negative
      ⟨Nat.pow 2 w.fraction + fraction, w.leastExponent + (biased - 1 : Nat), fraction == 0 && 1 < biased⟩

def ofFloat (x : Float) : Binary := ofBits .double x.toBits.toNat

def ofFloat32 (x : Float32) : Binary := ofBits .single x.toBits.toNat

end Binary
end DecodePipeline
