import DecodePipeline.Recorder.Basic

/-!
This module contains the recorder that writes the payloads of all packets to a file, one behind the
other. Payloads are gathered in a buffer, so that small ones do not cost a write each.
-/

namespace DecodePipeline

class ByteSink (σ : Type) where
  write : σ → ByteArray → Except String Unit × σ

structure SinkBuffer (σ : Type) where
  sink : σ
  waiting : ByteArray := .empty

namespace SinkBuffer

variable {σ : Type} [ByteSink σ]

def capacity : Nat := 8192

def flush (b : SinkBuffer σ) : Except String Unit × SinkBuffer σ :=
  if b.waiting.isEmpty then (.ok (), b)
  else
    match ByteSink.write b.sink b.waiting with
    | (.ok (), sink) => (.ok (), { sink })
    | (.error reason, sink) => (.error reason, { b with sink })

def makeRoom (b : SinkBuffer σ) (size : Nat) : Except String Unit × SinkBuffer σ :=
  if capacity < b.waiting.size + size then b.flush else (.ok (), b)

def append (b : SinkBuffer σ) (bytes : ByteArray) : Except String Unit × SinkBuffer σ :=
  -- Let bytes wait, or write them at once if there is never room for them.
  if bytes.size < capacity then (.ok (), { b with waiting := b.waiting ++ bytes })
  else
    let (result, sink) := ByteSink.write b.sink bytes
    (result, { b with sink })

def write (b : SinkBuffer σ) (bytes : ByteArray) : Except String Unit × SinkBuffer σ :=
  match b.makeRoom bytes.size with
  | (.ok (), b) => b.append bytes
  | (.error reason, b) => (.error reason, b)

end SinkBuffer

structure StreamDump (σ : Type) where
  path : String
  buffer : SinkBuffer σ
  saving : Bool := true
  packets : Nat := 0
  bytes : Nat := 0

namespace StreamDump

variable {σ : Type}

def start (path : String) (sink : σ) : List Notice × StreamDump σ :=
  ([.recording path], { path, buffer := { sink } })

variable [ByteSink σ]

def feed (d : StreamDump σ) (packet : Packet) : List Notice × StreamDump σ :=
  -- the first failure ends the recording, after a last attempt to write what is waiting
  if !d.saving then ([], d)
  else
    match d.buffer.write packet.payload with
    | (.ok (), buffer) =>
      ([], { d with buffer, packets := d.packets + 1, bytes := d.bytes + packet.size })
    | (.error reason, buffer) =>
      ([.writeFailed d.path reason], { d with buffer := buffer.flush.2, saving := false })

def stop (d : StreamDump σ) : List Notice × StreamDump σ :=
  if !d.saving then ([], d)
  else
    let finished := Notice.recorded d.packets d.bytes
    match d.buffer.flush with
    | (.ok (), buffer) => ([finished], { d with buffer, saving := false })
    | (.error reason, buffer) =>
      ([.flushFailed d.path reason, finished], { d with buffer := buffer.flush.2, saving := false })

instance : PacketRecorder (StreamDump σ) where
  feed := feed
  stop := stop

end StreamDump
end DecodePipeline
