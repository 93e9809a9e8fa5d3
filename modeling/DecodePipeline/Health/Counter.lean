import DecodePipeline.Health

/-!
This module contains the counters of a pipeline one by one, for those who read or set them by name.
-/

namespace DecodePipeline

inductive Counter where
  | framesDecoded
  | framesDelivered
  | framesDiscarded
  | decoderDrops
  | packetsSent
  | sendRetries
  | segmentSwitches
  | decoderReinits
  | synthesizedPts
  | bytesSent
  | lastFrameTime
  deriving DecidableEq

namespace Counter

def names : List (String × Counter) :=
  [("frames_decoded", framesDecoded), ("frames_delivered", framesDelivered),
   ("frames_discarded", framesDiscarded), ("decoder_drops", decoderDrops),
   ("packets_sent", packetsSent), ("send_retries", sendRetries),
   ("segment_switches", segmentSwitches), ("decoder_reinits", decoderReinits),
   ("synthesized_pts", synthesizedPts), ("bytes_sent", bytesSent),
   ("last_frame_time", lastFrameTime)]

end Counter

namespace Health

def get (h : Health) : Counter → UInt64
  | .framesDecoded => h.framesDecoded
  | .framesDelivered => h.framesDelivered
  | .framesDiscarded => h.framesDiscarded
  | .decoderDrops => h.decoderDrops
  | .packetsSent => h.packetsSent
  | .sendRetries => h.sendRetries
  | .segmentSwitches => h.segmentSwitches
  | .decoderReinits => h.decoderReinits
  | .synthesizedPts => h.synthesizedPts
  | .bytesSent => h.bytesSent
  | .lastFrameTime => h.lastFrameTime

def set (h : Health) (n : UInt64) : Counter → Health
  | .framesDecoded => { h with framesDecoded := n }
  | .framesDelivered => { h with framesDelivered := n }
  | .framesDiscarded => { h with framesDiscarded := n }
  | .decoderDrops => { h with decoderDrops := n }
  | .packetsSent => { h with packetsSent := n }
  | .sendRetries => { h with sendRetries := n }
  | .segmentSwitches => { h with segmentSwitches := n }
  | .decoderReinits => { h with decoderReinits := n }
  | .synthesizedPts => { h with synthesizedPts := n }
  | .bytesSent => { h with bytesSent := n }
  | .lastFrameTime => { h with lastFrameTime := n }

theorem get_set (h : Health) (n : UInt64) (counter : Counter) :
    (h.set n counter).get counter = n := by cases counter <;> rfl

theorem get_set_of_ne (h : Health) (n : UInt64) {a b : Counter} (hab : a ≠ b) :
    (h.set n a).get b = h.get b := by
  cases a <;> cases b <;> first | rfl | exact absurd rfl hab

end Health
end DecodePipeline
