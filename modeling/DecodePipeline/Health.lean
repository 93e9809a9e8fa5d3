import DecodePipeline.Decimal.Layout

/-!
This module contains the counters that tell how well a pipeline does. They count over its whole
life, wrap around at 64 bits, and are read by the rest of the program at any time.
-/

namespace DecodePipeline

structure Health where
  framesDecoded : UInt64 := 0
  framesDelivered : UInt64 := 0
  framesDiscarded : UInt64 := 0
  decoderDrops : UInt64 := 0
  packetsSent : UInt64 := 0
  sendRetries : UInt64 := 0
  segmentSwitches : UInt64 := 0
  decoderReinits : UInt64 := 0
  synthesizedPts : UInt64 := 0
  bytesSent : UInt64 := 0
  lastFrameTime : UInt64 := 0
  deriving DecidableEq, Inhabited

namespace Health

def starting (now : UInt64) : Health := { lastFrameTime := now }

def recordDecoded (h : Health) (synthesized : Bool) : Health :=
  { h with
    framesDecoded := h.framesDecoded + 1
    synthesizedPts := h.synthesizedPts + if synthesized then 1 else 0 }

def recordDelivered (h : Health) (now : UInt64) : Health :=
  { h with framesDelivered := h.framesDelivered + 1, lastFrameTime := now }

def recordDiscarded (h : Health) : Health :=
  { h with framesDiscarded := h.framesDiscarded + 1 }

def recordDecoderDrop (h : Health) : Health :=
  { h with decoderDrops := h.decoderDrops + 1 }

def recordPacket (h : Health) (size : Nat) : Health :=
  { h with packetsSent := h.packetsSent + 1, bytesSent := h.bytesSent + size.toUInt64 }

def recordSendRetry (h : Health) : Health :=
  { h with sendRetries := h.sendRetries + 1 }

def recordSegmentSwitch (h : Health) (reinit : Bool) : Health :=
  { h with
    segmentSwitches := h.segmentSwitches + 1
    decoderReinits := h.decoderReinits + if reinit then 1 else 0 }

def frameDropRate (h : Health) : Float :=
  let total := h.framesDecoded + h.decoderDrops
  if total == 0 then 0
  else h.decoderDrops.toFloat / total.toFloat * 100

def isStalled (h : Health) (now : UInt64) (threshold : Nat) : Bool :=
  -- No frame was handed on for longer than a number of microseconds, of which the last 64 bits
  -- count. A last frame in the future is none at all.
  threshold.toUInt64 < if now < h.lastFrameTime then 0 else now - h.lastFrameTime

def text (h : Health) : String :=
  let rate := (Binary.ofFloat h.frameDropRate).fixed 2
  s!"Health: {h.packetsSent} packets ({h.bytesSent} bytes, {h.sendRetries} retries), "
    ++ s!"{h.framesDecoded} frames decoded, {h.framesDelivered} delivered, "
    ++ s!"{h.framesDiscarded} discarded, {h.decoderDrops} drops ({rate}%), "
    ++ s!"{h.segmentSwitches} segment switches ({h.decoderReinits} reinits), "
    ++ s!"{h.synthesizedPts} synthesized pts"

end Health
end DecodePipeline
