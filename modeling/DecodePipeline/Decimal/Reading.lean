import DecodePipeline.Decimal.Shortest

/-!
This module contains the reading of decimal texts as binary numbers, correctly rounded.
-/

namespace DecodePipeline.Decimal

def valueOf (digits : List Char) : Nat :=
  digits.foldl (fun value c => 10 * value + (c.toNat - '0'.toNat)) 0

def size (d : Decimal) : Nat := (Nat.toDigits 10 d.digits).length

def toFloat (d : Decimal) : Float :=
  -- decimals far outside the range of these numbers are sorted out by their size alone
  let magnitude := (d.size : Int) + d.exponent
  if d.digits == 0 || magnitude < -330 then 0.0
  else if 310 < magnitude then 1.0 / 0.0
  else Float.ofScientific d.digits (d.exponent < 0) d.exponent.natAbs

def readExponent? (text : List Char) : Option Int :=
  let (negative, digits) := match text with
    | '-' :: rest => (true, rest)
    | '+' :: rest => (false, rest)
    | _ => (false, text)
  if digits.isEmpty || !digits.all Char.isDigit then none
  else some (if negative then -(valueOf digits : Int) else valueOf digits)

def read? (text : List Char) : Option Decimal :=
  let (whole, rest) := text.span Char.isDigit
  let (fraction, rest) := match rest with
    | '.' :: rest => rest.span Char.isDigit
    | _ => ([], rest)
  if whole.isEmpty && fraction.isEmpty then none
  else
    let exponent? := match rest with
      | [] => some 0
      | c :: rest => if c == 'e' || c == 'E' then readExponent? rest else none
    exponent?.map fun exponent => ⟨valueOf (whole ++ fraction), exponent - fraction.length⟩

def readFloat? (text : List Char) : Option Float :=
  let (negative, rest) := match text with
    | '-' :: rest => (true, rest)
    | '+' :: rest => (false, rest)
    | _ => (false, text)
  let word := String.ofList (rest.map Char.toLower)
  let magnitude? :=
    if word == "inf" || word == "infinity" then some (1.0 / 0.0)
    else if word == "nan" then some (0.0 / 0.0)
    else (read? rest).map toFloat
  magnitude?.map fun magnitude => if negative then -magnitude else magnitude

end DecodePipeline.Decimal
