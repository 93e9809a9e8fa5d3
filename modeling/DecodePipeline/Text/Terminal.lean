import DecodePipeline.Text.Blank
import DecodePipeline.Text.Quoted

/-!
This module contains the form in which texts are shown on a terminal. A text from outside must not
control the terminal, so the characters with which it could are written by their number.
-/

namespace DecodePipeline.Text

def terminalControls : List Char := ['\x07', '\x08', '\x0c', '\x1b', '\x7f']

def isUpperControl (c : Char) : Bool := 0x80 ≤ c.toNat && c.toNat ≤ 0x9F

def terminalChar (c : Char) : List Char :=
  if terminalControls.contains c then
    '\\' :: 'x' :: (if c.toNat < 16 then ['0'] else []) ++ hexDigits c.toNat
  else if isUpperControl c then "\\u\x7b".toList ++ hexDigits c.toNat ++ "\x7d".toList
  else [c]

def forTerminal (text : String) : String := String.ofList (text.toList.flatMap terminalChar)

def withoutReturn (line : List Char) : List Char :=
  if line.getLast? == some '\r' then line.dropLast else line

def lines (text : String) : List String :=
  (pieces '\n' text.toList).map fun line => String.ofList (withoutReturn line)

end DecodePipeline.Text
