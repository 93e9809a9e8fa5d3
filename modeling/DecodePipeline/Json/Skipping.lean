import DecodePipeline.Json.Text

/-!
This module contains the skipping of values that are not wanted. They only have to be JSON; they may
be nested as deep and be as large as they like.
-/

namespace DecodePipeline.Json.Reader

def skipDigits : Reader Unit := do
  if (← digits).isEmpty then throw .malformed

def skipNumber : Reader Unit := do
  discard <| optional ['-']
  match ← digits with
  | [] | '0' :: _ :: _ => throw .malformed
  | _ => pure ()
  if (← optional ['.']).isSome then skipDigits
  if (← optional ['e', 'E']).isSome then
    discard <| optional ['+', '-']
    skipDigits

mutual

def skipValueWithin : Nat → Reader Unit
  | 0 => throw .unfinished
  | bound + 1 => do
    match ← valueStart with
    | 'n' => word "null"
    | 't' => word "true"
    | 'f' => word "false"
    | '"' => skipText
    | '[' =>
      advance
      skipSpace
      if (← peek) == some ']' then advance else skipItemsWithin bound
    | '{' =>
      advance
      skipSpace
      if (← peek) == some '\x7d' then advance else skipMembersWithin bound
    | c => if c == '-' || c.isDigit then skipNumber else throw .malformed

def skipItemsWithin : Nat → Reader Unit
  | 0 => throw .unfinished
  | bound + 1 => do
    skipValueWithin bound
    skipSpace
    match ← peek with
    | some ',' =>
      advance
      skipItemsWithin bound
    | _ => symbol ']'

def skipMembersWithin : Nat → Reader Unit
  | 0 => throw .unfinished
  | bound + 1 => do
    skipSpace
    if (← peek) == some '"' then skipText else unexpected
    symbol ':'
    skipValueWithin bound
    skipSpace
    match ← peek with
    | some ',' =>
      advance
      skipMembersWithin bound
    | _ => symbol '\x7d'

end

def skipValue : Reader Unit := do
  skipValueWithin (2 * (← get).length + 2)

end DecodePipeline.Json.Reader
