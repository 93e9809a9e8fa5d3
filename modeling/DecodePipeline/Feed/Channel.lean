import DecodePipeline.Feed.Basic

/-!
This module contains the feed through a channel. The reader of a feed may sleep while there is
nothing to read, so whoever sends a packet or stops sending wakes it up. At most one wake-up is
stored for a reader that does not sleep yet. Both operations of a sender are also given by their
single steps, between which the reader may act.
-/

namespace DecodePipeline

structure PacketChannel where
  packets : Channel Packet
  wakeup : Bool := false
  deriving DecidableEq, Inhabited

namespace PacketChannel

def ofCapacity (capacity : Nat) : PacketChannel := { packets := .ofCapacity capacity }

def wake (c : PacketChannel) : PacketChannel := { c with wakeup := true }

def push (c : PacketChannel) (packet : Packet) : SendOutcome × PacketChannel :=
  -- The first step of sending: the packet is in the channel, and the reader may still sleep.
  let (outcome, packets) := c.packets.send packet
  (outcome, { c with packets })

def send (c : PacketChannel) (packet : Packet) : SendOutcome × PacketChannel :=
  match c.push packet with
  | (.sent, c) => (.sent, c.wake)
  | (outcome, c) => (outcome, c)

def addSender (c : PacketChannel) : PacketChannel := { c with packets := c.packets.addSender }

/-- The first step of a sender's leaving: the reader may still sleep. -/
def release (c : PacketChannel) : PacketChannel := { c with packets := c.packets.removeSender }

/-- A sender leaves. This may be the end of the stream, so it wakes the reader up as well. -/
def removeSender (c : PacketChannel) : PacketChannel := c.release.wake

def close (c : PacketChannel) : PacketChannel := { c with packets := c.packets.close }

def takeWakeup (c : PacketChannel) : Bool × PacketChannel := (c.wakeup, { c with wakeup := false })

instance : PacketFeed PacketChannel where
  tryRead c := let (poll, packets) := c.packets.receive; (poll, { c with packets })

end PacketChannel
end DecodePipeline
