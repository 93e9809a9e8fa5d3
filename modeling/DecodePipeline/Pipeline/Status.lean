/-!
This module contains what a pipeline reports to whoever drives it.
-/

namespace DecodePipeline

inductive Status where
  | ready
  | waiting
  | ended
  | again
  deriving DecidableEq

namespace Status

instance : Inhabited Status := ⟨.again⟩

def text : Status → String
  | ready => "Ok"
  | waiting => "Wait"
  | ended => "Eof"
  | again => "Again"

def all : List Status := [ready, waiting, ended, again]

end Status
end DecodePipeline
