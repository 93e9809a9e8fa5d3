import DecodePipeline.Player.MemoryFiles
import DecodePipeline.Player.Run

/-!
This module contains the program: it gives the player access to the files of the system and shows
what the player reports.
-/

namespace DecodePipeline.Player

def faultOf : IO.Error → FileFault
  | .noFileOrDirectory .. => .notFound
  | .permissionDenied .. => .permissionDenied
  | .inappropriateType _ 20 _ => .notDirectory
  | .inappropriateType .. => .isDirectory
  | .invalidArgument _ 36 _ => .nameTooLong
  | .resourceExhausted _ code details => .other s!"{details} (os error {code})"
  | error => .other (toString error)

def readText (path : String) : IO (Except FileFault String) := do
  try
    let file ← IO.FS.Handle.mk path .read
    return MemoryFiles.textOf (← file.readBinToEnd)
  catch error => return .error (faultOf error)

def write (path : String) (content : ByteArray) : IO Unit := do
  let file ← IO.FS.Handle.mk path .write
  file.write content
  file.flush

def createFile (path : String) : IO (Except FileFault MemorySink) := do
  try
    write path .empty
    return .ok (.file [])
  catch error => return .error (faultOf error)

def save (dump : StreamDump MemorySink) : IO Unit := do
  try
    write dump.path dump.buffer.sink.content
  catch error => IO.println (Notice.flushFailed dump.path (faultOf error).message).entry

end DecodePipeline.Player

open DecodePipeline in
def main (arguments : List String) : IO UInt32 := do
  let now ← IO.monoNanosNow
  let outcome ← Player.run ⟨Player.readText, Player.createFile⟩ arguments (now / 1000).toUInt64
  for notice in outcome.journal do
    if notice.isShown then IO.println notice.entry
  outcome.recording.forM Player.save
  for line in outcome.output do
    if outcome.exitCode == 0 then IO.println line else IO.eprintln line
  return outcome.exitCode.toUInt32
