import Playback.Config.Validate
import Playback.Player.Session

/-!
# Players

A player opens media, plays, seeks and stops. Most of what its users ask for happens later, on the
player's own thread: the request is posted there as a task, and so are the reports of the demuxer and of the
renderers. `PlayerTask` names these tasks and `Player.run` carries one out.

The playback state goes from `idle` through `opening` to `buffering`, changes between `buffering` and
`ready` with the level of the queues, and comes to `ended` when everything was put out. Output and clocks
run exactly while the state is `ready` and playing is wished for; `applyPlayback` brings them there after
every change.
-/

namespace Playback

/-- What a player reports to its users. -/
inductive PlayerEvent (R : Type) where
  | stateChanged (state : PlaybackState)
  | prepared (duration : R)
  | sizeChanged (width height : Nat)
  | seekCompleted (position : R)
  | error (text : String)
deriving Repr

/-- A task of the player's thread. -/
inductive PlayerTask (R κa κv σ : Type) where
  | openMedia (media : Media κa κv σ)
  | applyPlayback
  | seek (position : R)
  | setVolume (volume : R)
  | setMuted (muted : Bool)
  | demuxed (event : DemuxEvent R)
  | rendered (stream : StreamKind) (event : RendererEvent)
  | checkBuffering
  | reportStatus

/-- The id of the task that reports the status. -/
def PlayerTask.statusId : Nat := 1

/-- The id of the task that checks the buffers. -/
def PlayerTask.bufferingId : Nat := 2

/-- The milliseconds between two checks of the buffers. -/
def PlayerTask.bufferingInterval : Nat := 50

structure Player (R κa κv σ : Type) where
  config : PlayerConfig R
  /-- The device that every audio output gets. -/
  device : AudioDevice
  /-- The library that changes the rate of audio. -/
  filter : RateFilter R
  /-- The present time in nanoseconds. -/
  now : Nat
  loop : Loop (PlayerTask R κa κv σ)
  /-- The runner of the player's tasks. -/
  runner : Nat
  state : PlaybackState
  playWhenReady : Bool
  volume : R
  muted : Bool
  mediaInfo : Option (MediaInfo R)
  /-- The target of the last seek, which is the position while the master clock is not valid. -/
  seekTarget : Option R
  session : Option (Session R κa κv σ)
  /-- Newest first. -/
  events : List (PlayerEvent R)
  /-- The calls of audio outputs of past sessions, newest first. -/
  audioCalls : List (AudioCall R)
  /-- The calls of video outputs of past sessions, newest first. -/
  videoCalls : List (VideoCall R)

namespace Player

variable {R κa κv σ : Type} [Scalar R]

/-- A player with an accepted configuration. -/
def make (config : PlayerConfig R) (device : AudioDevice) (filter : RateFilter R) : Player R κa κv σ :=
  let (runner, loop) := (Loop.new "player").attach
  { config, device, filter, now := 0, loop, runner
    state := .idle
    playWhenReady := false
    volume := Scalar.clamp config.audio.volume 0.0 1.0
    muted := config.audio.muted
    mediaInfo := none
    seekTarget := none
    session := none
    events := []
    audioCalls := []
    videoCalls := [] }

/-- A player, unless the configuration has a fault. -/
def new {R : Type} [TextScalar R] (config : PlayerConfig R) (device : AudioDevice)
    (filter : RateFilter R := .silent) : Except PlayerError (Player R κa κv σ) :=
  config.validate.map fun config => make config device filter

/-- Posts a task to the player's thread; tells whether it was accepted. -/
def post (p : Player R κa κv σ) (task : PlayerTask R κa κv σ) (delay : Nat := 0) (taskId : Nat := 0) :
    Bool × Player R κa κv σ :=
  let (accepted, loop) := p.loop.post p.now delay task (some p.runner) taskId
  (accepted, { p with loop })

def emit (p : Player R κa κv σ) (e : PlayerEvent R) : Player R κa κv σ :=
  { p with events := e :: p.events }

/-- Goes to a state and reports it if it is another one. -/
def enter (p : Player R κa κv σ) (state : PlaybackState) : Player R κa κv σ :=
  if p.state = state then p else { p with state }.emit (.stateChanged state)

/-- Whether output and clocks should run. -/
def isPlaying (p : Player R κa κv σ) : Bool :=
  p.state = .ready && p.playWhenReady

/-- Lets output and clocks run or stops them, as it should be. -/
def applyPlayback (p : Player R κa κv σ) : Player R κa κv σ :=
  { p with session := p.session.map fun s => s.setPaused (!p.isPlaying) p.now }

/-- Goes to a state together with output and clocks. -/
def setState (p : Player R κa κv σ) (state : PlaybackState) : Player R κa κv σ :=
  (p.enter state).applyPlayback

/-- Reports an error and goes to the state for it. -/
def fail (p : Player R κa κv σ) (e : PlayerError) : Player R κa κv σ :=
  (p.emit (.error e.message)).setState .error

/-- Checks the buffers again after a while. -/
def scheduleBufferingCheck (p : Player R κa κv σ) : Player R κa κv σ :=
  (p.post .checkBuffering (millis PlayerTask.bufferingInterval) PlayerTask.bufferingId).2

/-- Reports the status again after a while, unless that is turned off. -/
def scheduleStatus (p : Player R κa κv σ) : Player R κa κv σ :=
  if p.config.scheduler.statusInterval = 0 then p
  else (p.post .reportStatus (millis p.config.scheduler.statusInterval) PlayerTask.statusId).2

/-! ## The tasks -/

/-- Opens a medium, unless the player was stopped since that was asked for. -/
def openMedia [Source σ R] (p : Player R κa κv σ) (media : Media κa κv σ) : Player R κa κv σ :=
  if p.state ≠ .opening then p
  else
    match Session.ofMedia ⟨p.config, p.device, p.filter, p.volume, p.muted, p.now⟩ media with
    | .failed e calls => { p with audioCalls := calls ++ p.audioCalls }.fail e
    | .session s =>
      let p := { p with
        mediaInfo := some s.info
        seekTarget := none
        session := some { s with demuxer := s.demuxer.start p.now } }
      (((p.emit (.prepared s.info.duration)).setState .buffering).scheduleBufferingCheck).scheduleStatus

/-- Seeks on the demuxer's thread; what was playing has to buffer again. -/
def runSeek (p : Player R κa κv σ) (position : R) : Player R κa κv σ :=
  match p.session with
  | none => p
  | some _ =>
    let p := if p.state = .ready ∨ p.state = .ended then p.setState .buffering else p
    let seek (s : Session R κa κv σ) : Session R κa κv σ :=
      { s with demuxer := s.demuxer.requestSeek p.now position }
    { p with session := p.session.map seek }

/-- Takes a report of the demuxer. -/
def onDemuxed (p : Player R κa κv σ) (event : DemuxEvent R) : Player R κa κv σ :=
  match p.session with
  | none => p
  | some s =>
    match event with
    | .seekCompleted position =>
      { p with session := some (s.flush p.now), seekTarget := some position }.emit
        (.seekCompleted position)
    | .endOfFile => p
    | .error text => p.fail (.other text)

/-- Notes that a stream was put out to the end of a generation. -/
def markEnded (s : Session R κa κv σ) (stream : StreamKind) (serial : Serial) : Session R κa κv σ :=
  match stream with
  | .audio => { s with audio := s.audio.map fun a => { a with ended := some serial } }
  | .video => { s with video := s.video.map fun v => { v with ended := some serial } }

/-- Takes a report of a renderer. -/
def onRendered (p : Player R κa κv σ) (stream : StreamKind) (event : RendererEvent) :
    Player R κa κv σ :=
  match p.session with
  | none => p
  | some s =>
    match event with
    | .ended serial =>
      let s := markEnded s stream serial
      let p := { p with session := some s }
      if s.allEnded then p.setState .ended else p
    | .firstFrame width height =>
      let sized (m : MediaInfo R) : MediaInfo R := { m with width, height }
      { p with mediaInfo := p.mediaInfo.map sized }.emit (.sizeChanged width height)
    | .error text =>
      match stream with
      | .audio => p.fail (.audioOutput text)
      | .video => p.fail (.render text)

/-- Goes from buffering to ready when there is enough, and back when a stream has nothing left. -/
def checkBuffering (p : Player R κa κv σ) : Player R κa κv σ :=
  match p.session with
  | none => p
  | some s =>
    match p.state with
    | .buffering => if s.hasEnough p.config.buffer then p.setState .ready else p
    | .ready => if !s.demuxer.eof && s.isStarving then p.setState .buffering else p
    | _ => p

/-- Adjusts the external clock to the level of the queues if it is the master of a live source. -/
def reportStatus (p : Player R κa κv σ) : Player R κa κv σ :=
  let adjust (s : Session R κa κv σ) : Session R κa κv σ :=
    if s.info.realtime && s.clock.masterType = .externalClock then
      let clock := s.clock.checkExternalSpeed s.live (s.video.map (·.queue.length))
        (s.audio.map (·.queue.length)) (Scalar.ofNanos p.now)
      { s with clock }
    else s
  { p with session := p.session.map adjust }

/-- Applies a change to the audio renderer, if there is one. -/
def onAudioRenderer (p : Player R κa κv σ) (f : AudioRenderer R → AudioRenderer R) :
    Player R κa κv σ :=
  { p with session := p.session.map fun s =>
      { s with audio := s.audio.map fun a => { a with renderer := f a.renderer } } }

/-- Carries out a task of the player's thread. -/
def run [Source σ R] (p : Player R κa κv σ) : PlayerTask R κa κv σ → Player R κa κv σ
  | .openMedia media => p.openMedia media
  | .applyPlayback => p.applyPlayback
  | .seek position => p.runSeek position
  | .setVolume volume => p.onAudioRenderer (·.setVolume volume)
  | .setMuted muted => p.onAudioRenderer (·.setMuted muted)
  | .demuxed event => p.onDemuxed event
  | .rendered stream event => p.onRendered stream event
  | .checkBuffering => p.checkBuffering.scheduleBufferingCheck
  | .reportStatus => p.reportStatus.scheduleStatus

/-! ## What users ask for -/

/-- Ends the session and forgets what belongs to it. -/
def stopSession (p : Player R κa κv σ) : Player R κa κv σ :=
  let loop := (p.loop.remove p.runner (some PlayerTask.statusId)).2
  let loop := (loop.remove p.runner (some PlayerTask.bufferingId)).2
  let (audio, video) := (p.session.map Session.finalCalls).getD ([], [])
  { p with
    loop
    session := none
    mediaInfo := none
    seekTarget := none
    audioCalls := audio ++ p.audioCalls
    videoCalls := video ++ p.videoCalls }

/-- Opens a medium; only an idle player and one that has ended or failed does so. The medium is opened on
the player's thread, and what comes of it is reported. -/
def requestOpen (p : Player R κa κv σ) (media : Media κa κv σ) :
    Except PlayerError Unit × Player R κa κv σ :=
  if p.state = .idle ∨ p.state = .ended ∨ p.state = .error then
    match (p.stopSession.enter .opening).post (.openMedia media) with
    | (true, p) => (.ok (), p)
    | (false, p) => (.error (.loopGone "播放器线程已退出"), p)
  else (.error (.state ("当前状态 " ++ p.state.title ++ " 不能打开新的媒体")), p)

/-- Says whether to play as soon as the player is ready. -/
def setPlayWhenReady (p : Player R κa κv σ) (playWhenReady : Bool) : Player R κa κv σ :=
  ({ p with playWhenReady }.post .applyPlayback).2

/-- Seeks to a position in seconds. -/
def seek (p : Player R κa κv σ) (position : R) : Player R κa κv σ :=
  ({ p with seekTarget := some (Scalar.max position 0.0) }.post (.seek position)).2

/-- Sets the volume, kept between 0 and 1. -/
def setVolume (p : Player R κa κv σ) (volume : R) : Player R κa κv σ :=
  let volume := Scalar.clamp volume 0.0 1.0
  ({ p with volume }.post (.setVolume volume)).2

def setMuted (p : Player R κa κv σ) (muted : Bool) : Player R κa κv σ :=
  ({ p with muted }.post (.setMuted muted)).2

/-- Ends playing; the player is idle. -/
def stop (p : Player R κa κv σ) : Player R κa κv σ :=
  p.stopSession.enter .idle

/-- Ends playing and the player's thread. -/
def release (p : Player R κa κv σ) : Player R κa κv σ :=
  let p := p.stop
  { p with loop := p.loop.quit }

/-- The position in seconds: that of the master clock, or else the target of the last seek. -/
def position (p : Player R κa κv σ) : R :=
  let master : R := (p.session.map fun s => s.clock.readMaster s.live (Scalar.ofNanos p.now)).getD Scalar.nan
  if Scalar.isNaN master then p.seekTarget.getD 0.0 else Scalar.max master 0.0

/-- The duration in seconds; undefined if unknown. -/
def duration (p : Player R κa κv σ) : R :=
  (p.mediaInfo.map (·.duration)).getD Scalar.nan

/-- What the player reports about itself. -/
def snapshot (p : Player R κa κv σ) : PlayerState R where
  state := p.state
  playWhenReady := p.playWhenReady
  position := p.position
  duration := p.duration
  volume := p.volume
  muted := p.muted
  mediaInfo := p.mediaInfo
  buffer := (p.session.map Session.bufferStatus).getD .empty

end Player
end Playback
