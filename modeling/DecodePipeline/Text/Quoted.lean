import DecodePipeline.Text.Hidden

/-!
This module contains the quoting of names in diagnostic texts.
-/

namespace DecodePipeline.Text

def hexDigits (n : Nat) : List Char := Nat.toDigits 16 n

/--
One character of a quoted name. Quotes and backslashes stand behind a backslash, characters that
are not seen are written by their letter or their number, and all others stand for themselves.
-/
def quoteChar (c : Char) : List Char :=
  if c == '"' then ['\\', '"']
  else if c == '\\' then ['\\', '\\']
  else if c == '\n' then ['\\', 'n']
  else if c == '\r' then ['\\', 'r']
  else if c == '\t' then ['\\', 't']
  else if c == '\x00' then ['\\', '0']
  else if isHidden c then "\\u\x7b".toList ++ hexDigits c.toNat ++ "\x7d".toList
  else [c]

def quoted (name : String) : String :=
  String.ofList ('"' :: name.toList.flatMap quoteChar ++ ['"'])

end DecodePipeline.Text
