import DecodePipeline.Json.Reader

/-!
This module contains the reading of JSON strings. A character can be written as one or two 16 bit
units behind `\u`. Two units are a character above U+FFFF, a leading one and a trailing one.
-/

namespace DecodePipeline.Json

def escapes : List (Char × Char) :=
  [('"', '"'), ('\\', '\\'), ('/', '/'), ('b', '\x08'), ('f', '\x0c'), ('n', '\n'), ('r', '\r'),
   ('t', '\t')]

def hexDigit? (c : Char) : Option Nat :=
  if '0' ≤ c && c ≤ '9' then some (c.toNat - '0'.toNat)
  else if 'a' ≤ c && c ≤ 'f' then some (c.toNat - 'a'.toNat + 10)
  else if 'A' ≤ c && c ≤ 'F' then some (c.toNat - 'A'.toNat + 10)
  else none

def unit (text : List Char) : Except Fault Nat :=
  -- there have to be four bytes at least before the four characters are looked at
  if (text.take 4).foldl (fun bytes c => bytes + c.utf8Size) 0 < 4 then .error .unfinished
  else
    match (text.take 4).mapM hexDigit? with
    | some [a, b, c, d] => .ok (((a * 16 + b) * 16 + c) * 16 + d)
    | _ => .error .malformed

def isLeadingUnit (n : Nat) : Bool := 0xD800 ≤ n && n < 0xDC00

def isTrailingUnit (n : Nat) : Bool := 0xDC00 ≤ n && n < 0xE000

def ofUnits (leading trailing : Nat) : Char :=
  Char.ofNat (0x10000 + (leading - 0xD800) * 0x400 + (trailing - 0xDC00))

def consRead (c : Char) (read : Except Fault (List Char × List Char)) :
    Except Fault (List Char × List Char) :=
  read.map fun (chars, rest) => (c :: chars, rest)

def stringBody (leading : Option Nat) (text : List Char) : Except Fault (List Char × List Char) :=
  -- after a leading unit there has to be a trailing one
  match leading, text with
  | _, [] => .error .unfinished
  | none, '\\' :: 'u' :: rest => do
    let n ← unit rest
    if isTrailingUnit n then throw .malformed
    else if isLeadingUnit n then stringBody (some n) (rest.drop 4)
    else consRead (Char.ofNat n) (stringBody none (rest.drop 4))
  | some leading, '\\' :: 'u' :: rest => do
    let n ← unit rest
    if isTrailingUnit n then consRead (ofUnits leading n) (stringBody none (rest.drop 4))
    else throw .malformed
  | _, ['\\'] => .error .unfinished
  | some _, _ => .error .malformed
  | none, '\\' :: c :: rest =>
    match escapes.lookup c with
    | some c => consRead c (stringBody none rest)
    | none => .error .malformed
  | none, c :: rest =>
    if c == '"' then .ok ([], rest)
    else if c < ' ' then .error .malformed
    else consRead c (stringBody none rest)
termination_by text.length
decreasing_by all_goals simp <;> omega

def skippedBody (text : List Char) : Except Fault (List Char) :=
  -- the units of a string that is not wanted need not be characters
  match text with
  | [] | ['\\'] => .error .unfinished
  | '\\' :: 'u' :: rest => do
    let _ ← unit rest
    skippedBody (rest.drop 4)
  | '\\' :: c :: rest => if (escapes.lookup c).isSome then skippedBody rest else .error .malformed
  | c :: rest =>
    if c == '"' then .ok rest
    else if c < ' ' then .error .malformed
    else skippedBody rest
termination_by text.length
decreasing_by all_goals simp <;> omega

namespace Reader

def text : Reader String := do
  advance
  let (chars, rest) ← stringBody none (← get)
  set rest
  return String.ofList chars

def skipText : Reader Unit := do
  advance
  set (← skippedBody (← get))

end Reader
end DecodePipeline.Json
