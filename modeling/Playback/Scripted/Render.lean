import Playback.Render.Audio
import Playback.Render.Video
import Playback.Schedule.Rest
import Playback.Scripted.Decode

/-!
# Renderers with scripted codecs

One stream by itself: a pipeline with its clocks, in a world where the other stream is no more than a
serial. Nobody fills the queue when the decoder gives notice.
-/

namespace Playback

/-- A stream by itself, whose pipeline is a `π`. -/
structure StreamRun (R π : Type) where
  pipeline : π
  clock : MediaClock R
  /-- The serial of the other stream. -/
  other : Serial
  now : Nat
  /-- Newest first. -/
  events : List RendererEvent

namespace StreamRun

variable {R π : Type} [Scalar R]

/-- A stream that has just been set up, at time zero. -/
def new (pipeline : π) (sync : SyncType) : StreamRun R π :=
  ⟨pipeline, .new sync id (Scalar.ofNanos 0), 1, 0, []⟩

/-- Adds reports, oldest first. -/
def report (r : StreamRun R π) (events : List RendererEvent) : StreamRun R π :=
  { r with events := events.reverse ++ r.events }

end StreamRun

variable {R : Type} [Scalar R]

namespace VideoPipeline

/-- Aborts the decoder. -/
def abort {κ : Type} (p : VideoPipeline R κ) : VideoPipeline R κ :=
  let (decoder, queue) := p.decoder.abort p.queue
  { p with decoder, queue }

/-- Aborts the decoder and waits for its thread. -/
def join {κ : Type} (p : VideoPipeline R κ) : VideoPipeline R κ :=
  let p := p.abort
  { p with decoder := p.decoder.join }

end VideoPipeline

namespace AudioPipeline

/-- Aborts the decoder. -/
def abort {κ : Type} (p : AudioPipeline R κ) : AudioPipeline R κ :=
  let (decoder, queue) := p.decoder.abort p.queue
  { p with decoder, queue }

/-- Aborts the decoder and waits for its thread. -/
def join {κ : Type} (p : AudioPipeline R κ) : AudioPipeline R κ :=
  let p := p.abort
  { p with decoder := p.decoder.join }

end AudioPipeline

/-- A video stream by itself. -/
abbrev VideoRun (R : Type) := StreamRun R (VideoPipeline R (ScriptedCodec RawVideoFrame))

namespace VideoRun

def live (r : VideoRun R) : LiveSerials := ⟨r.other, r.pipeline.queue.published⟩

/-- A step of the first thread that has something to do. -/
def step? (r : VideoRun R) : Option (VideoRun R) :=
  let p := r.pipeline
  if !p.decoder.isResting p.queue r.now then
    some { r with pipeline := (p.afterDecoding r.now (p.decoder.stepScripted p.queue r.now)).2 }
  else if !p.isResting r.now then
    let (events, pipeline, clock) := p.step r.clock (live r) r.now
    some ({ r with pipeline, clock }.report events)
  else none

end VideoRun

/-- An audio stream by itself. -/
abbrev AudioRun (R : Type) := StreamRun R (AudioPipeline R (ScriptedCodec RawAudioFrame))

namespace AudioRun

def live (r : AudioRun R) : LiveSerials := ⟨r.pipeline.queue.published, r.other⟩

/-- A step of the first thread that has something to do. -/
def step? (r : AudioRun R) : Option (AudioRun R) :=
  let p := r.pipeline
  if !p.decoder.isResting p.queue r.now then
    some { r with pipeline := (p.afterDecoding r.now (p.decoder.stepScripted p.queue r.now)).2 }
  else if !p.isResting r.now then
    let (events, pipeline) := p.step r.now
    some ({ r with pipeline }.report events)
  else none

/-- Takes the result of a callback or a pull; gives the output. -/
def take (r : AudioRun R)
    (result : Bytes × List RendererEvent × AudioPipeline R (ScriptedCodec RawAudioFrame) × MediaClock R) :
    Bytes × AudioRun R :=
  let (output, events, pipeline, clock) := result
  (output, { r with pipeline, clock }.report events)

end AudioRun
end Playback
