import DecodePipeline.Image.Params

/-!
This module contains ratios of whole numbers: fractions in lowest terms, the approximation of an
aspect ratio by a fraction with a bounded denominator, and the pixel shape that gives a picture a
wanted display aspect. All integers are bounded by 64 bits and stay at the bound where they would
exceed it.
-/

namespace DecodePipeline.Ratio

def bound : Nat := UInt64.size - 1

def saturate (n : Nat) : Nat := min n bound

def reduce (numerator denominator : Nat) : Nat × Nat :=
  match Nat.gcd numerator denominator with
  | 0 => (0, 0)
  | divisor => (numerator / divisor, denominator / divisor)

def floor (x : Float) : Float :=
  -- A number that is not negative, without its fraction. Numbers above `2 ^ 53` have none.
  if x < 9007199254740992.0 then x.toUInt64.toFloat else x

structure Expansion where
  rest : Float
  before : Nat × Nat
  last : Nat × Nat

namespace Expansion

def start (value : Float) : Expansion := ⟨value, (0, 1), (1, 0)⟩

def convergent (e : Expansion) : Nat × Nat :=
  let part := e.rest.toUInt64.toNat
  (saturate (saturate (part * e.last.1) + e.before.1),
   saturate (saturate (part * e.last.2) + e.before.2))

def fraction (e : Expansion) : Float := e.rest - floor e.rest

def next (e : Expansion) : Expansion := ⟨1.0 / e.fraction, e.last, e.convergent⟩

def run (limit : Nat) : Nat → Expansion → Option (Nat × Nat)
  -- The last convergent whose denominator stays within the limit, or the first that comes close
  -- enough to the value. `none` means that `steps` steps do not suffice.
  | 0, _ => none
  | steps + 1, e =>
    if limit < e.convergent.2 then some e.last
    else if e.fraction < 1e-9 then some e.convergent
    else run limit steps e.next

end Expansion

/--
A fraction close to `value` with a denominator up to `limit`; `0 / 1` if `value` is not a positive
number. Every second denominator is larger than the one before, so there are at most `limit + 2`
steps.
-/
def approximate (value : Float) (limit : Nat) : Nat × Nat :=
  if !value.isFinite || value ≤ 0 then (0, 1)
  else
    match (Expansion.start value).run limit (limit + 3) with
    | some (_, 0) | none => (0, 1)
    | some ratio => ratio

end Ratio

namespace ImageParams

def pixelDimension (n : Nat) : UInt32 :=
  if n < UInt32.size then n.toUInt32 else 0

def withDisplaySize (p : ImageParams) (displayWidth displayHeight : Nat) : ImageParams :=
  let (pixelWidth, pixelHeight) := Ratio.reduce
    (Ratio.saturate (displayWidth * p.height.toNat))
    (Ratio.saturate (displayHeight * p.width.toNat))
  { p with
    pixelWidth := pixelDimension pixelWidth
    pixelHeight := pixelDimension pixelHeight }

end ImageParams
end DecodePipeline
