import DecodePipeline.Decimal.Shortest

/-!
This module contains the written forms of binary numbers: the shortest form, whose choices a
`Layout` fixes, and the form with a fixed number of decimal places.
-/

namespace DecodePipeline

structure Decimal.Layout where
  tie : Tie
  -- The powers of ten of the first digit, from the first up to but without the second, for
  -- which the number is written without an exponent; `none` if that is always so.
  positional : Option (Int × Int)
  pointZero : Bool
  exponentPlus : Bool

namespace Decimal.Layout

def plain : Layout where
  tie := .upward
  positional := none
  pointZero := false
  exponentPlus := false

def diagnostic : Layout where
  tie := .upward
  positional := some (-4, 16)
  pointZero := true
  exponentPlus := false

end Decimal.Layout

def Decimal.digitsOf (n : Nat) : List Char := Nat.toDigits 10 n

def Decimal.zeros (count : Nat) : List Char := List.replicate count '0'

def Decimal.positionalText (d : Decimal) (pointZero : Bool) : List Char :=
  let digits := digitsOf d.digits
  let whole := (digits.length : Int) + d.exponent
  if 0 ≤ d.exponent then
    digits ++ zeros d.exponent.toNat ++ if pointZero then ['.', '0'] else []
  else if 0 < whole then
    digits.take whole.toNat ++ '.' :: digits.drop whole.toNat
  else
    '0' :: '.' :: zeros (-whole).toNat ++ digits

def Decimal.exponentText (d : Decimal) (plus : Bool) : List Char :=
  let digits := digitsOf d.digits
  let power := (digits.length : Int) + d.exponent - 1
  let fraction := digits.drop 1
  digits.take 1
    ++ (if fraction.isEmpty then [] else '.' :: fraction)
    ++ 'e' :: (if power < 0 then ['-'] else if plus then ['+'] else [])
    ++ digitsOf power.natAbs

def Decimal.text (d : Decimal) (layout : Decimal.Layout) : List Char :=
  let leading := ((digitsOf d.digits).length : Int) + d.exponent - 1
  match layout.positional with
  | none => d.positionalText layout.pointZero
  | some (least, limit) =>
    if d.digits == 0 || (least ≤ leading && leading < limit) then
      d.positionalText layout.pointZero
    else
      d.exponentText layout.exponentPlus

def Decimal.roundedQuotient (numerator denominator : Nat) : Nat :=
  let below := numerator / denominator
  match compare (2 * (numerator % denominator)) denominator with
  | .lt => below
  | .gt => below + 1
  | .eq => if below % 2 == 0 then below else below + 1

def Binary.Magnitude.fixedText (m : Binary.Magnitude) (places : Nat) : List Char :=
  let scaled := m.significand * Nat.pow 2 m.exponent.toNat * Nat.pow 10 places
  let units := Decimal.roundedQuotient scaled (Nat.pow 2 (-m.exponent).toNat)
  let digits := Decimal.digitsOf units
  let padded := Decimal.zeros (places + 1 - digits.length) ++ digits
  let whole := padded.length - places
  padded.take whole ++ if places == 0 then [] else '.' :: padded.drop whole

namespace Binary

def render (magnitude : Magnitude → List Char) : Binary → String
  | .nan => "NaN"
  | .infinite negative => if negative then "-inf" else "inf"
  | .finite negative m => String.ofList ((if negative then ['-'] else []) ++ magnitude m)

def text (layout : Decimal.Layout) (x : Binary) : String :=
  x.render fun m => (Decimal.shortest layout.tie m).text layout

def fixed (places : Nat) (x : Binary) : String :=
  x.render fun m => m.fixedText places

end Binary
end DecodePipeline
