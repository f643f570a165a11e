import Playback.Demux.Demuxer
import Playback.Render.Audio
import Playback.Render.Video
import Playback.Snapshot

/-!
# Sessions

A session is all that works on one opened medium: the demuxer, up to two pipelines and the clocks that they
share. `Session.ofMedia` sets it up; a stream takes part if the source has it and there is a codec for it.
-/

namespace Playback

/-- A medium to play: a source and the codecs for its streams. -/
structure Media (κa κv σ : Type) where
  source : σ
  audioCodec : Option κa
  videoCodec : Option κv

structure Session (R κa κv σ : Type) where
  clock : MediaClock R
  demuxer : Demuxer R σ
  audio : Option (AudioPipeline R κa)
  video : Option (VideoPipeline R κv)
  /-- What the source said about itself. -/
  info : MediaInfo R

namespace Session

variable {R κa κv σ : Type}

/-- The serials that the queues are in; that of a missing stream is zero. -/
def live (s : Session R κa κv σ) : LiveSerials :=
  ⟨(s.audio.map (·.queue.published)).getD 0, (s.video.map (·.queue.published)).getD 0⟩

/-- The queues in the order in which the demuxer has them. -/
def queues (s : Session R κa κv σ) : List StreamQueue :=
  (s.audio.map fun a => ⟨a.queue, a.timeBase⟩).toList ++ (s.video.map fun v => ⟨v.queue, v.timeBase⟩).toList

/-- Gives the queues back to the pipelines. -/
def setQueues (s : Session R κa κv σ) (queues : List StreamQueue) : Session R κa κv σ :=
  match s.audio, s.video, queues with
  | some a, some v, [qa, qv] =>
    { s with audio := some { a with queue := qa.queue }, video := some { v with queue := qv.queue } }
  | some a, none, [qa] => { s with audio := some { a with queue := qa.queue } }
  | none, some v, [qv] => { s with video := some { v with queue := qv.queue } }
  | _, _, _ => s

def bufferStatus (s : Session R κa κv σ) : BufferStatus where
  videoPackets := (s.video.map (·.queue.length)).getD 0
  audioPackets := (s.audio.map (·.queue.length)).getD 0
  videoFrames := (s.video.map (·.renderer.ring.length)).getD 0
  audioFrames := (s.audio.map (·.renderer.ring.length)).getD 0
  framesDropped := (s.video.map (·.renderer.dropped)).getD 0
  audioUnderruns := (s.audio.map (·.renderer.underruns)).getD 0

/-- Whether every stream was put out to the end of its present generation. -/
def allEnded (s : Session R κa κv σ) : Bool :=
  s.audio.all (fun a => a.ended == some a.queue.serial)
    && s.video.all (fun v => v.ended == some v.queue.serial)

/-- Whether one of the streams has no data left at all. -/
def isStarving (s : Session R κa κv σ) : Bool :=
  s.audio.any (fun a => a.queue.isEmpty && a.renderer.ring.length == 0)
    || s.video.any (fun v => v.queue.isEmpty && v.renderer.ring.length == 0)

variable [Scalar R]

/-- Whether there is enough to go on playing: reading is without limits or at the end, or every queue has
enough. -/
def hasEnough (s : Session R κa κv σ) (config : BufferConfig R) : Bool :=
  config.infinite || s.demuxer.eof
    || s.queues.all fun q => q.queue.hasEnough q.timeBase config.minFrames config.minDuration

/-- Lets everything run or stops it: the pacing of pictures before the clocks, then the audio output. -/
def setPaused (s : Session R κa κv σ) (paused : Bool) (now : Nat) : Session R κa κv σ :=
  let time : R := Scalar.ofNanos now
  { s with
    video := s.video.map fun v => { v with renderer := v.renderer.setPaused s.clock paused time }
    clock := s.clock.setPaused s.live paused time
    audio := s.audio.map fun a => { a with renderer := a.renderer.setPaused paused } }

/-- After a seek: the renderers drop what is past. -/
def flush (s : Session R κa κv σ) (now : Nat) : Session R κa κv σ :=
  { s with audio := s.audio.map (·.flush now), video := s.video.map (·.flush now) }

/-- The calls that the outputs get when the session ends, after those they have had: each is stopped.
Newest first. -/
def finalCalls (s : Session R κa κv σ) : List (AudioCall R) × List (VideoCall R) :=
  (((s.audio.map fun a => a.stop.renderer.sink.calls).getD []),
    ((s.video.map fun v => v.stop.renderer.calls).getD []))

/-- The master that can be had: video only with a video stream, audio only with an audio stream. -/
def confirm (hasAudio hasVideo : Bool) : SyncType → SyncType
  | .videoMaster =>
    if hasVideo then .videoMaster else if hasAudio then .audioMaster else .externalClock
  | .audioMaster => if hasAudio then .audioMaster else .externalClock
  | .externalClock => .externalClock

/-- What a new session takes over from the player. -/
structure Settings (R : Type) where
  config : PlayerConfig R
  device : AudioDevice
  filter : RateFilter R
  volume : R
  muted : Bool
  now : Nat

/-- Sets an audio stream up. The decoder puts out what the device takes. If the device cannot be opened or
started, the pipeline with its calls comes back beside the error. -/
def openAudio (c : Settings R) (codec : κa) (info : StreamInfo) :
    Except PlayerError Unit × AudioPipeline R κa :=
  let wanted := c.config.audio.wanted
  let finisher : AudioFinisher R := .new info.timeBase wanted c.filter
  let finisher := (info.startPts.map finisher.withStart).getD finisher
  let core := DecodeCore.new codec finisher c.config.audio.continueOnDecodeError
  let p : AudioPipeline R κa :=
    .new core info.timeBase c.config.audio c.config.sync c.config.buffer.audioRingCapacity c.device c.filter
  match p.setUp wanted with
  | (.error e, p) => (.error (.audioOutput e.message), p)
  | (.ok params, p) =>
    match { p with decoder := p.decoder.setOutput params }.start c.now with
    | (.error e, p) => (.error e, p)
    | (.ok _, p) => (.ok (), { p with renderer := (p.renderer.setVolume c.volume).setMuted c.muted })

/-- Sets a video stream up, paused. -/
def openVideo (c : Settings R) (m : MediaClock R) (codec : κv) (info : StreamInfo) :
    VideoPipeline R κv :=
  let finisher : VideoFinisher R := ⟨info.timeBase, info.frameRate⟩
  let core := DecodeCore.new codec finisher c.config.audio.continueOnDecodeError
  let p : VideoPipeline R κv := .new core info.timeBase c.config.sync c.config.buffer.videoRingCapacity
  { p with renderer := p.renderer.setPaused m true (Scalar.ofNanos c.now) }.start c.now

/-- What comes of opening a medium. -/
inductive Opened (R κa κv σ : Type) where
  | session (s : Session R κa κv σ)
  /-- The calls that the audio output got nevertheless, newest first. -/
  | failed (e : PlayerError) (calls : List (AudioCall R))

variable [Source σ R]

/-- Sets up a session whose demuxer has not started to read. -/
def ofMedia (c : Settings R) (media : Media κa κv σ) : Opened R κa κv σ :=
  let audio := media.audioCodec.bind fun codec =>
    (Source.stream? media.source .audio).map fun info => (codec, info)
  let video := media.videoCodec.bind fun codec =>
    (Source.stream? media.source .video).map fun info => (codec, info)
  if audio.isNone && video.isNone then .failed .noStream []
  else
    let clock : MediaClock R :=
      .new c.config.sync.syncType (confirm audio.isSome video.isSome) (Scalar.ofNanos c.now)
    let finish (audio : Option (AudioPipeline R κa)) : Opened R κa κv σ :=
      .session {
        clock
        demuxer := .new media.source c.config.buffer
        audio
        video := video.map fun (codec, info) => openVideo c clock codec info
        info := Source.info media.source }
    match audio with
    | none => finish none
    | some (codec, info) =>
      match openAudio c codec info with
      | (.error e, p) => .failed e p.renderer.sink.calls
      | (.ok _, p) => finish (some p)

end Session
end Playback
