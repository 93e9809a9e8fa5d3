import DecodePipeline.Decimal.Layout

/-!
This module contains points on the presentation timeline. Zero and negative times are ordinary
times; a time that is not known is `none : Option Timestamp` everywhere.
-/

namespace DecodePipeline

/--
A presentation or decode time in seconds. Comparisons follow the numbers: a time that is not a
number equals no time, not even itself, and stands in no order to any.
-/
structure Timestamp where
  seconds : Float
  deriving DecidableEq, Inhabited

namespace Timestamp

instance : BEq Timestamp := ⟨fun a b => a.seconds == b.seconds⟩

instance : LT Timestamp := ⟨fun a b => a.seconds < b.seconds⟩

instance : LE Timestamp := ⟨fun a b => a.seconds ≤ b.seconds⟩

instance (a b : Timestamp) : Decidable (a < b) := inferInstanceAs (Decidable (a.seconds < b.seconds))

instance (a b : Timestamp) : Decidable (a ≤ b) := inferInstanceAs (Decidable (a.seconds ≤ b.seconds))

def zero : Timestamp := ⟨0.0⟩

def ofMillis (millis : Int) : Timestamp := ⟨Float.ofInt millis / 1000.0⟩

def offset (t : Timestamp) (seconds : Float) : Timestamp := ⟨t.seconds + seconds⟩

def compare? (a b : Timestamp) : Option Ordering :=
  if a < b then some .lt
  else if b < a then some .gt
  else if a == b then some .eq
  else none

def text (t : Timestamp) : String := (Binary.ofFloat t.seconds).fixed 3 ++ "s"

def diagnostic (t : Timestamp) : String :=
  "Timestamp \x7b secs: " ++ (Binary.ofFloat t.seconds).text .diagnostic ++ " \x7d"

def diagnostic? : Option Timestamp → String
  | none => "None"
  | some t => "Some(" ++ t.diagnostic ++ ")"

end Timestamp
end DecodePipeline
