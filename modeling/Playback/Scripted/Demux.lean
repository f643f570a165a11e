import Playback.Demux.Demuxer
import Playback.Schedule.Rest

/-!
# Demuxers by themselves

A demuxer with its queues and clocks, and no decoders that take the packets.
-/

namespace Playback

structure DemuxRun (R σ : Type) where
  demuxer : Demuxer R σ
  queues : List StreamQueue
  clock : MediaClock R
  now : Nat
  /-- Newest first. -/
  events : List (DemuxEvent R)

/-- A step of the demuxer's thread, if it has something to do. -/
def DemuxRun.step? {R σ : Type} [Scalar R] [Source σ R] (r : DemuxRun R σ) : Option (DemuxRun R σ) :=
  if r.demuxer.isResting r.now then none
  else
    let d := r.demuxer.step r.queues r.clock r.now
    some { r with
      demuxer := d.demuxer
      queues := d.queues
      clock := d.clock
      events := d.event.toList ++ r.events }

end Playback
