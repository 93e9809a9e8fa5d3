import DecodePipeline.Health.Counter

/-!
This module contains counters as sums: everything that is recorded adds something to them, so what was
counted since some time is a difference, which wraps around with the counters.
-/

namespace DecodePipeline

namespace Health

def add (h more : Health) : Health where
  framesDecoded := h.framesDecoded + more.framesDecoded
  framesDelivered := h.framesDelivered + more.framesDelivered
  framesDiscarded := h.framesDiscarded + more.framesDiscarded
  decoderDrops := h.decoderDrops + more.decoderDrops
  packetsSent := h.packetsSent + more.packetsSent
  sendRetries := h.sendRetries + more.sendRetries
  segmentSwitches := h.segmentSwitches + more.segmentSwitches
  decoderReinits := h.decoderReinits + more.decoderReinits
  synthesizedPts := h.synthesizedPts + more.synthesizedPts
  bytesSent := h.bytesSent + more.bytesSent
  lastFrameTime := h.lastFrameTime + more.lastFrameTime

theorem get_add (h more : Health) (counter : Counter)
    : (h.add more).get counter = h.get counter + more.get counter := by
  cases counter <;> rfl

theorem add_right_comm (h more most : Health) : (h.add more).add most = (h.add most).add more := by
  unfold add
  dsimp only
  congr 1 <;> ac_rfl

theorem get_add_sendRetries (h : Health) (retries : UInt64) {counter : Counter}
    (hcounter : counter ≠ .sendRetries)
    : (h.add { sendRetries := retries }).get counter = h.get counter := by
  rw [get_add]
  cases counter with
  | sendRetries => exact absurd rfl hcounter
  | _ => exact UInt64.add_zero _

theorem recordDecoded_eq (h : Health) (synthesized : Bool)
    : h.recordDecoded synthesized
        = h.add { framesDecoded := 1, synthesizedPts := if synthesized then 1 else 0 } := by
  simp [recordDecoded, add]

theorem recordDiscarded_eq (h : Health) : h.recordDiscarded = h.add { framesDiscarded := 1 } := by
  simp [recordDiscarded, add]

theorem recordDecoderDrop_eq (h : Health) : h.recordDecoderDrop = h.add { decoderDrops := 1 } := by
  simp [recordDecoderDrop, add]

theorem recordPacket_eq (h : Health) (size : Nat)
    : h.recordPacket size = h.add { packetsSent := 1, bytesSent := size.toUInt64 } := by
  simp [recordPacket, add]

theorem recordSendRetry_eq (h : Health) : h.recordSendRetry = h.add { sendRetries := 1 } := by
  simp [recordSendRetry, add]

theorem recordSegmentSwitch_eq (h : Health) (reinit : Bool)
    : h.recordSegmentSwitch reinit
        = h.add { segmentSwitches := 1, decoderReinits := if reinit then 1 else 0 } := by
  simp [recordSegmentSwitch, add]

theorem recordDelivered_eq (h : Health) (now : UInt64)
    : h.recordDelivered now = (h.add { framesDelivered := 1 }).set now .lastFrameTime := by
  simp [recordDelivered, add, set]

def SameCount (start start' h h' : Health) : Prop :=
  ∀ counter, counter ≠ .lastFrameTime →
    h.get counter - start.get counter = h'.get counter - start'.get counter

section Counts

variable {start start' h h' : Health}

theorem sameCount_self (start start' : Health) : SameCount start start' start start' := by
  intro counter _
  rw [UInt64.sub_self, UInt64.sub_self]

theorem SameCount.add (hcount : SameCount start start' h h') (more : Health)
    : SameCount start start' (h.add more) (h'.add more) := by
  intro counter hcounter
  have hsame := hcount counter hcounter
  rw [get_add, get_add]
  grind

theorem SameCount.setTime (hcount : SameCount start start' h h') (now now' : UInt64)
    : SameCount start start' (h.set now .lastFrameTime) (h'.set now' .lastFrameTime) := by
  intro counter hcounter
  rw [get_set_of_ne h now (Ne.symm hcounter), get_set_of_ne h' now' (Ne.symm hcounter)]
  exact hcount counter hcounter

end Counts

end Health

end DecodePipeline
