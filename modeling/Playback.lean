import Playback.Decimal.Layout
import Playback.Json.Number
import Playback.Json.Parse
import Playback.Json.Print
import Playback.Scalar
import Playback.TextScalar
import Playback.Exact
import Playback.Media.Ratio
import Playback.Media.Format
import Playback.Media.Packet
import Playback.Media.Frame
import Playback.Media.Info
import Playback.Config.Text
import Playback.Snapshot
import Playback.Audio.Mix
import Playback.Audio.Resampler
import Playback.Ring
import Playback.Clock.Media
import Playback.PacketQueue.Take
import Playback.Schedule.Loop
import Playback.Scripted.Decode
import Playback.Schedule.Program
import Playback.Render.Pacing
import Playback.Text.ThreadLabel
import Playback.Render.Video
import Playback.Render.Audio
import Playback.Scripted.Render
import Playback.Demux.Demuxer
import Playback.Scripted.Source
import Playback.Scripted.Demux
import Playback.Player.Run
import Playback.Player.Registry
import Playback.Proofs.Decode.Stale
import Playback.Proofs.Decode.Isolation
import Playback.Proofs.Player.Acts
import Playback.Proofs.Player.StateGraph
import Playback.Proofs.Player.Requests
import Playback.Scripted.Player
import Playback.Proofs.Player.Stall
import Playback.Proofs.Ring
import Playback.Proofs.Render.EndOfStream
import Playback.Proofs.Render.Flush
import Playback.Proofs.Render.Writing
import Playback.Proofs.Render.Position
import Playback.Proofs.Render.Pictures
import Playback.Proofs.Demux.Content
import Playback.Proofs.Schedule.Order
import Playback.Proofs.Schedule.Fates
import Playback.Proofs.Player.Released
import Playback.Proofs.Player.Output
import Playback.Proofs.Demux.Reading
import Playback.Proofs.Demux.Bounded
import Playback.Proofs.Player.Refusal
import Playback.Proofs.Player.Ranges
import Playback.Proofs.Snapshots
import Playback.Proofs.Configurations
import Playback.Proofs.Decode.Delivery
import Playback.Proofs.Decode.Termination
import Playback.Proofs.Ring.Refinement
import Playback.Proofs.PacketQueue.Accounts
import Playback.Proofs.PacketQueue.Waiting
import Playback.Proofs.Clock.Reading
import Playback.Proofs.Render.Pacing
import Playback.Proofs.Render.Timing
import Playback.Proofs.Clock.Synchronisation
import Playback.Proofs.Clock.Regulation
import Playback.Proofs.Render.TargetDelay
import Playback.Proofs.Render.Drift
import Playback.Proofs.Media.Rescaling
import Playback.Proofs.Audio.Conversion
import Playback.Proofs.Decode.Timestamps
import Playback.Proofs.Render.ReadRequests
import Playback.Proofs.Audio.Rate
