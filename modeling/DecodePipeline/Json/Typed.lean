import DecodePipeline.Json.Number
import DecodePipeline.Json.Skipping

/-!
This module contains the reading of JSON values of a wanted kind.
-/

namespace DecodePipeline.Json.Reader

variable {α : Type}

def mistyped : Reader α := do
  -- There is a value of another kind than wanted, which is a fault unless it has one itself.
  match ← valueStart with
  | 'n' => word "null"
  | 't' => word "true"
  | 'f' => word "false"
  | '"' => discard text
  | '[' | '{' => pure ()
  | c => if c == '-' || c.isDigit then discard number else throw .malformed
  throw .mistyped

def bool : Reader Bool := do
  match ← valueStart with
  | 't' =>
    word "true"
    return true
  | 'f' =>
    word "false"
    return false
  | _ => mistyped

def anyNumber : Reader Number := do
  let c ← valueStart
  if c == '-' || c.isDigit then number else mistyped

def float : Reader Float := return (← anyNumber).toFloat

def uint32 : Reader UInt32 := do
  match ← anyNumber with
  | .natural n => if n.toNat < UInt32.size then return n.toUInt32 else throw .mistyped
  | _ => throw .mistyped

def string : Reader String := do
  if (← valueStart) == '"' then text else mistyped

def option (reader : Reader α) : Reader (Option α) := do
  if (← valueStart) == 'n' then
    word "null"
    return none
  else
    return some (← reader)

def named (names : List (String × α)) : Reader α := do
  match names.lookup (← string) with
  | some value => return value
  | none => throw .mistyped

def choice (names : List (String × α)) : Reader α := do
  match ← valueStart with
  | '"' => named names
  | '{' =>
    advance
    let value ← if (← valueStart) == '"' then named names else throw .malformed
    symbol ':'
    if (← valueStart) == 'n' then word "null" else mistyped
    symbol '\x7d'
    return value
  | _ => throw .malformed

def nextItem (isFirst : Bool) : Reader Bool := do
  skipSpace
  match ← peek with
  | none => throw .unfinished
  | some ']' => return false
  | some c =>
    if isFirst then return true
    else if c == ',' then
      advance
      if (← valueStart) == ']' then throw .malformed else return true
    else throw .malformed

def itemsWithin (item : Reader α) : Nat → Bool → Reader (List α)
  | 0, _ => throw .unfinished
  | bound + 1, isFirst => do
    if ← nextItem isFirst then
      let value ← item
      return value :: (← itemsWithin item bound false)
    else
      return []

def list (item : Reader α) : Reader (List α) := do
  if (← valueStart) == '[' then
    advance
    let values ← itemsWithin item ((← get).length + 1) true
    symbol ']'
    return values
  else
    mistyped

structure Member (α : Type) where
  name : String
  read : α → Reader α

def nextMember (isFirst : Bool) : Reader Bool := do
  skipSpace
  match ← peek with
  | none => throw .unfinished
  | some '\x7d' => return false
  | some c =>
    if !isFirst then
      if c == ',' then advance else throw .malformed
    if (← valueStart) == '"' then return true else throw .malformed

def membersWithin (members : List (Member α)) :
    Nat → Bool → List String → α → Reader α
  -- unknown members are skipped, and known ones must not be repeated
  | 0, _, _, _ => throw .unfinished
  | bound + 1, isFirst, seen, value => do
    if ← nextMember isFirst then
      let name ← text
      match members.find? (·.name == name) with
      | some member =>
        if seen.contains name then throw .mistyped
        symbol ':'
        membersWithin members bound false (name :: seen) (← member.read value)
      | none =>
        symbol ':'
        skipValue
        membersWithin members bound false seen value
    else
      return value

def positions : List (Member α) → Bool → α → Reader α
  | [], _, value => return value
  | member :: members, isFirst, value => do
    if ← nextItem isFirst then positions members false (← member.read value) else return value

def listEnd : Reader Unit := do
  skipSpace
  match ← peek with
  | some ']' => advance
  | _ => unexpected

/--
Read a record: its members by their names, or in a list by their positions. Members that are missing
are as in `value`.
-/
def record (members : List (Member α)) (value : α) : Reader α := do
  match ← valueStart with
  | '{' =>
    advance
    let value ← membersWithin members ((← get).length + 1) true [] value
    symbol '\x7d'
    return value
  | '[' =>
    advance
    let value ← positions members true value
    listEnd
    return value
  | _ => mistyped

end DecodePipeline.Json.Reader
