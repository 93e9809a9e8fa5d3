import DecodePipeline.Decimal.Binary

/-!
This module contains the choice of the fewest decimal digits that identify a binary number among
its neighbours, in exact integer arithmetic.

A decimal identifies a number if it lies in the interval of reals that round to it: from halfway to
the number below to halfway to the number above, the ends included exactly if the significand is
even. The search goes through ever finer decimal grids and stops at the first one with a point in
the interval, so no shorter decimal identifies the number.
-/

namespace DecodePipeline

structure Decimal where
  digits : Nat
  exponent : Int
  deriving DecidableEq

inductive Decimal.Tie where
  | toEven
  | upward
  deriving DecidableEq

/--
A magnitude measured on the decimal grid of step `10 ^ step`: the number is `value / unit` steps
long and the interval of reals that round to it reaches from `low / unit` to `high / unit`.
-/
structure Binary.OnGrid where
  unit : Nat
  low : Nat
  value : Nat
  high : Nat
  closed : Bool

namespace Binary.Magnitude

def onGrid (m : Magnitude) (step : Int) : OnGrid :=
  let scale := Nat.pow 2 m.exponent.toNat * Nat.pow 10 (-step).toNat
  { unit := 4 * Nat.pow 2 (-m.exponent).toNat * Nat.pow 10 step.toNat
    low := (4 * m.significand - if m.narrowBelow then 1 else 2) * scale
    value := 4 * m.significand * scale
    high := (4 * m.significand + 2) * scale
    closed := m.significand % 2 == 0 }

def belowTenTo (m : Magnitude) (k : Int) : Bool :=
  m.significand * Nat.pow 2 m.exponent.toNat * Nat.pow 10 (-k).toNat
    < Nat.pow 10 k.toNat * Nat.pow 2 (-m.exponent).toNat

def decimalScale (m : Magnitude) : Int :=
  -- the binary logarithm gives it up to a step or two
  let estimate := ((m.significand.log2 : Int) + m.exponent) * 30103 / 100000
  if m.belowTenTo estimate then estimate
  else if m.belowTenTo (estimate + 1) then estimate + 1
  else if m.belowTenTo (estimate + 2) then estimate + 2
  else estimate + 3

end Binary.Magnitude

namespace Binary.OnGrid

def identifies (g : OnGrid) (n : Nat) : Bool :=
  if g.closed then g.low ≤ n * g.unit && n * g.unit ≤ g.high
  else g.low < n * g.unit && n * g.unit < g.high

def pick? (g : OnGrid) (tie : Decimal.Tie) : Option Nat :=
  let below := g.value / g.unit
  let above := below + 1
  match g.identifies below, g.identifies above with
  | true, false => some below
  | false, true => some above
  | false, false => none
  | true, true =>
    match compare (g.value - below * g.unit) (above * g.unit - g.value), tie with
    | .lt, _ => some below
    | .gt, _ => some above
    | .eq, .upward => some above
    | .eq, .toEven => some (if below % 2 == 0 then below else above)

end Binary.OnGrid

namespace Decimal

def exact (m : Binary.Magnitude) : Decimal :=
  if 0 ≤ m.exponent then ⟨m.significand * Nat.pow 2 m.exponent.toNat, 0⟩
  else ⟨m.significand * Nat.pow 5 (-m.exponent).toNat, m.exponent⟩

def strip (d : Decimal) : Decimal :=
  go d.digits d
where
  -- `fuel` bounds the number of zeros, and the digits themselves are a bound.
  go : Nat → Decimal → Decimal
    | 0, d => d
    | fuel + 1, d =>
      if d.digits != 0 && d.digits % 10 == 0 then go fuel ⟨d.digits / 10, d.exponent + 1⟩ else d

/--
The decimal with the fewest digits that identifies the number, and of those the closest to it.
Seventeen digits tell any two numbers apart; the exact value stands behind the search.
-/
def shortest (tie : Tie) (m : Binary.Magnitude) : Decimal :=
  if m.significand == 0 then ⟨0, 0⟩
  else
    let scale := m.decimalScale
    let found := (List.range 17).findSome? fun n =>
      let step := scale - (n + 1 : Nat)
      ((m.onGrid step).pick? tie).map fun digits => (⟨digits, step⟩ : Decimal)
    (found.getD (exact m)).strip

end Decimal
end DecodePipeline
