import DecodePipeline.Decimal.Layout
import DecodePipeline.Json.Text
import DecodePipeline.Text.Quoted

/-!
This module contains the writing of JSON texts, without white space.
-/

namespace DecodePipeline.Json

def numberLayout : Decimal.Layout where
  tie := .toEven
  positional := some (-5, 16)
  pointZero := true
  exponentPlus := true

def escape (c : Char) : List Char :=
  if c == '/' then [c]
  else
    match escapes.find? (·.2 == c) with
    | some (letter, _) => ['\\', letter]
    | none =>
      if c < ' ' then
        let digits := Text.hexDigits c.toNat
        '\\' :: 'u' :: Decimal.zeros (4 - digits.length) ++ digits
      else [c]

def string (text : String) : String :=
  String.ofList ('"' :: text.toList.flatMap escape ++ ['"'])

def bool (b : Bool) : String := if b then "true" else "false"

def float (x : Float) : String :=
  if x.isFinite then (Binary.ofFloat x).text numberLayout else "null"

def option {α : Type} (write : α → String) : Option α → String
  | some value => write value
  | none => "null"

def record (members : List (String × String)) : String :=
  let body := ",".intercalate (members.map fun (name, value) => string name ++ ":" ++ value)
  "\x7b" ++ body ++ "\x7d"

end DecodePipeline.Json
