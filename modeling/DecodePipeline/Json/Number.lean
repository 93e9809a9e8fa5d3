import DecodePipeline.Decimal.Reading
import DecodePipeline.Json.Reader

/-!
This module contains the reading of JSON numbers. A number is read as an integer of 64 bits if it is
written like one and fits. Otherwise as many of its digits as fit into 64 bits are scaled by a power
of ten, which is exact for all numbers of usual length.
-/

namespace DecodePipeline.Json

inductive Number where
  | natural (n : UInt64)
  | negative (n : UInt64)
  | real (x : Float)

namespace Number

def toFloat : Number → Float
  | natural n => n.toFloat
  | negative n => -n.toFloat
  | real x => x

def absorb (n : Nat) : List Char → Nat × List Char
  | [] => (n, [])
  | c :: rest =>
    let next := 10 * n + (c.toNat - '0'.toNat)
    if next < UInt64.size then absorb next rest else (n, c :: rest)

def powerOfTen (k : Nat) : Float := Float.ofScientific 1 false k

def scale (n : Nat) (exponent : Int) : Option Float :=
  let x := n.toUInt64.toFloat
  if n == 0 then some 0.0
  else if exponent < -308 then
    some (x / powerOfTen 308 / powerOfTen (min (-exponent - 308).toNat 308))
  else if exponent < 0 then some (x / powerOfTen (-exponent).toNat)
  else if exponent ≤ 308 then some (x * powerOfTen exponent.toNat) |>.filter Float.isFinite
  else none

structure Written where
  whole : List Char
  fraction : Option (List Char)
  exponent : Option Int

namespace Written

def exponentBound : Int := 2147483647

def real? (w : Written) : Option Float :=
  let (whole, excess) := absorb 0 w.whole
  let (n, left) := absorb whole (w.fraction.getD [])
  let shift : Int := excess.length - ((w.fraction.getD []).length - left.length : Nat)
  let exponent := w.exponent.getD 0
  if exponent < -exponentBound then some 0.0
  else if exponentBound < exponent then if n == 0 then some 0.0 else none
  else scale n (shift + exponent)

def value? (w : Written) (minus : Bool) : Option Number :=
  match w.fraction, w.exponent, absorb 0 w.whole with
  | none, none, (n, []) =>
    if !minus then some (.natural n.toUInt64)
    else if n == 0 || Nat.pow 2 63 < n then some (.real (-n.toUInt64.toFloat))
    else some (.negative n.toUInt64)
  | _, _, _ => w.real?.map fun x => .real (if minus then -x else x)

end Written
end Number

namespace Reader

def someDigits : Reader (List Char) := do
  let found ← digits
  if found.isEmpty then unexpected else return found

def wholeDigits : Reader (List Char) := do
  match ← someDigits with
  | '0' :: _ :: _ => throw .malformed
  | found => return found

def exponent : Reader (Option Int) := do
  match ← optional ['e', 'E'] with
  | none => return none
  | some _ =>
    let sign ← optional ['+', '-']
    let size := Decimal.valueOf (← someDigits)
    return some (if sign == some '-' then -size else size)

def number : Reader Number := do
  let sign ← optional ['-']
  let whole ← wholeDigits
  let fraction ← match ← optional ['.'] with
    | none => pure none
    | some _ => some <$> someDigits
  match Number.Written.value? ⟨whole, fraction, ← exponent⟩ sign.isSome with
  | some value => return value
  | none => throw .malformed

end Reader
end DecodePipeline.Json
