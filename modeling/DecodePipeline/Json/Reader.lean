/-!
This module contains the ground on which JSON texts are read: readers, which take characters from
the front of a text, and the faults with which they stop. Reading stops at the first fault in the
text, whether the text is broken there or has a value of another kind than wanted.
-/

namespace DecodePipeline.Json

inductive Fault where
  | malformed
  | mistyped
  | unfinished
  deriving DecidableEq

abbrev Reader := StateT (List Char) (Except Fault)

namespace Reader

def isSpace (c : Char) : Bool := c == ' ' || c == '\t' || c == '\n' || c == '\r'

def skipSpace : Reader Unit := modify (·.dropWhile isSpace)

def peek : Reader (Option Char) := return (← get).head?

def advance : Reader Unit := modify (·.drop 1)

def unexpected {α : Type} : Reader α := do
  match ← peek with
  | some _ => throw .malformed
  | none => throw .unfinished

def valueStart : Reader Char := do
  skipSpace
  match ← peek with
  | some c => return c
  | none => throw .unfinished

def symbol (c : Char) : Reader Unit := do
  skipSpace
  if (← peek) == some c then advance else unexpected

def word (w : String) : Reader Unit :=
  go w.toList
where
  go : List Char → Reader Unit
    | [] => return
    | c :: rest => do
      if (← peek) == some c then
        advance
        go rest
      else
        unexpected

def digits : Reader (List Char) := modifyGet (·.span Char.isDigit)

def optional (choices : List Char) : Reader (Option Char) := do
  match ← peek with
  | some c =>
    if choices.contains c then
      advance
      return some c
    else
      return none
  | none => return none

end Reader

def read {α : Type} (reader : Reader α) (text : String) : Except Fault α := do
  let (value, rest) ← StateT.run reader text.toList
  if rest.all Reader.isSpace then return value else throw .malformed

end DecodePipeline.Json
