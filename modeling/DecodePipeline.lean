import DecodePipeline.Channel
import DecodePipeline.Codec
import DecodePipeline.Decimal.Binary
import DecodePipeline.Decimal.Layout
import DecodePipeline.Decimal.Reading
import DecodePipeline.Decimal.Shortest
import DecodePipeline.Decoder.Engine
import DecodePipeline.Decoder.Entry
import DecodePipeline.Decoder.RawVideo
import DecodePipeline.Decoder.Selection
import DecodePipeline.Feed.Basic
import DecodePipeline.Feed.Channel
import DecodePipeline.Health
import DecodePipeline.Health.Counter
import DecodePipeline.Image.Cache
import DecodePipeline.Image.Color
import DecodePipeline.Image.Derivation
import DecodePipeline.Image.Params
import DecodePipeline.Image.Ratio
import DecodePipeline.Json.Number
import DecodePipeline.Json.Reader
import DecodePipeline.Json.Skipping
import DecodePipeline.Json.Text
import DecodePipeline.Json.Typed
import DecodePipeline.Json.Writer
import DecodePipeline.Main
import DecodePipeline.Notice
import DecodePipeline.Options
import DecodePipeline.Options.Json
import DecodePipeline.Packet
import DecodePipeline.Pipeline.Basic
import DecodePipeline.Pipeline.Input
import DecodePipeline.Pipeline.Opening
import DecodePipeline.Pipeline.Output
import DecodePipeline.Pipeline.Status
import DecodePipeline.Pipeline.Work
import DecodePipeline.Playback.Basic
import DecodePipeline.Playback.Stall
import DecodePipeline.Player.CommandLine
import DecodePipeline.Player.Documents
import DecodePipeline.Player.Files
import DecodePipeline.Player.Log
import DecodePipeline.Player.MemoryFiles
import DecodePipeline.Player.Run
import DecodePipeline.Recorder.Basic
import DecodePipeline.Recorder.StreamDump
import DecodePipeline.Script.Basic
import DecodePipeline.Script.Json
import DecodePipeline.Segment.Bounds
import DecodePipeline.Segment.Tracker
import DecodePipeline.Simulation.Engine
import DecodePipeline.Simulation.Feed
import DecodePipeline.Text.Blank
import DecodePipeline.Text.Hidden
import DecodePipeline.Text.Quoted
import DecodePipeline.Text.Terminal
import DecodePipeline.Timeline.Reconciler
import DecodePipeline.Timestamp
import DecodePipeline.Proofs.Decimal.Binary
import DecodePipeline.Proofs.Decimal.Shortest
import DecodePipeline.Proofs.Decimal.Texts
import DecodePipeline.Proofs.Decoder.Queueing
import DecodePipeline.Proofs.Decoder.Selection
import DecodePipeline.Proofs.Float.Addition
import DecodePipeline.Proofs.Float.Division
import DecodePipeline.Proofs.Float.Nearest
import DecodePipeline.Proofs.Float.Order
import DecodePipeline.Proofs.Float.Packing
import DecodePipeline.Proofs.Float.Rounding
import DecodePipeline.Proofs.Float.Scaling
import DecodePipeline.Proofs.Float.Times
import DecodePipeline.Proofs.Float.Truncation
import DecodePipeline.Proofs.Image.Approximation
import DecodePipeline.Proofs.Image.Caching
import DecodePipeline.Proofs.Image.Convergents
import DecodePipeline.Proofs.Image.Derivation
import DecodePipeline.Proofs.Image.DisplaySize
import DecodePipeline.Proofs.Image.Ratio
import DecodePipeline.Proofs.Json.Floats
import DecodePipeline.Proofs.Json.Numbers
import DecodePipeline.Proofs.Json.Readers
import DecodePipeline.Proofs.Json.Records
import DecodePipeline.Proofs.Json.Strings
import DecodePipeline.Proofs.Options.Roundtrip
import DecodePipeline.Proofs.Pipeline.Accounting
import DecodePipeline.Proofs.Pipeline.Boundaries
import DecodePipeline.Proofs.Pipeline.Conservation
import DecodePipeline.Proofs.Pipeline.Derivation
import DecodePipeline.Proofs.Pipeline.Detachment
import DecodePipeline.Proofs.Pipeline.Discarding
import DecodePipeline.Proofs.Pipeline.Exhaustion
import DecodePipeline.Proofs.Pipeline.Feeding
import DecodePipeline.Proofs.Pipeline.Finishing
import DecodePipeline.Proofs.Pipeline.Holding
import DecodePipeline.Proofs.Pipeline.Image
import DecodePipeline.Proofs.Pipeline.Isolation
import DecodePipeline.Proofs.Pipeline.Lifecycle
import DecodePipeline.Proofs.Pipeline.Likeness
import DecodePipeline.Proofs.Pipeline.Logging
import DecodePipeline.Proofs.Pipeline.Missing
import DecodePipeline.Proofs.Pipeline.Observation
import DecodePipeline.Proofs.Pipeline.Offering
import DecodePipeline.Proofs.Pipeline.Opening
import DecodePipeline.Proofs.Pipeline.Operation
import DecodePipeline.Proofs.Pipeline.Outline
import DecodePipeline.Proofs.Pipeline.Pacing
import DecodePipeline.Proofs.Pipeline.Phases
import DecodePipeline.Proofs.Pipeline.Proceeding
import DecodePipeline.Proofs.Pipeline.Reading
import DecodePipeline.Proofs.Pipeline.Recording
import DecodePipeline.Proofs.Pipeline.Renewal
import DecodePipeline.Proofs.Pipeline.Reopening
import DecodePipeline.Proofs.Pipeline.Reporting
import DecodePipeline.Proofs.Pipeline.Retrying
import DecodePipeline.Proofs.Pipeline.Selection
import DecodePipeline.Proofs.Pipeline.Skipping
import DecodePipeline.Proofs.Pipeline.StartCut
import DecodePipeline.Proofs.Pipeline.Stepping
import DecodePipeline.Proofs.Pipeline.Tracing
import DecodePipeline.Proofs.Pipeline.Trying
import DecodePipeline.Proofs.Pipeline.Upholding
import DecodePipeline.Proofs.Pipeline.Window
import DecodePipeline.Proofs.Playback.Completion
import DecodePipeline.Proofs.Playback.Decoding
import DecodePipeline.Proofs.Playback.Ending
import DecodePipeline.Proofs.Playback.FirstSegment
import DecodePipeline.Proofs.Playback.Invariant
import DecodePipeline.Proofs.Playback.Pictures
import DecodePipeline.Proofs.Playback.Reporting
import DecodePipeline.Proofs.Playback.Script
import DecodePipeline.Proofs.Playback.Stage
import DecodePipeline.Proofs.Playback.StartCut
import DecodePipeline.Proofs.Playback.Stream
import DecodePipeline.Proofs.Playback.Switching
import DecodePipeline.Proofs.Playback.Wakeup
import DecodePipeline.Proofs.Player.Seeking
import DecodePipeline.Proofs.Recorder.Dumping
import DecodePipeline.Proofs.Simulation.Refusals
import DecodePipeline.Proofs.Simulation.Refusing
import DecodePipeline.Proofs.Simulation.Scenario
import DecodePipeline.Proofs.Text.Splitting
import DecodePipeline.Proofs.Timeline.Counting
import DecodePipeline.Proofs.Timeline.History
import DecodePipeline.Proofs.Timeline.Pacing
import DecodePipeline.Proofs.Timeline.Probing
