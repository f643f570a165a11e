import Playback.Player.Basic
import Playback.Schedule.Rest

/-!
# Runs of a player

Six threads work on a player: its own, the demuxer's, and two for each stream, the decoder's and the
renderer's. `Player.step` is one step of one of them, and a run is any order of such steps, of calls of
users and of time going by. `Player.settle` is the run in which the threads work until all of them wait.
-/

namespace Playback

inductive PlayerThread where
  | player
  | demuxer
  | audioDecoder
  | audioRenderer
  | videoDecoder
  | videoRenderer
deriving Repr, DecidableEq

/-- All threads. Where several have something to do at once, the renderers come first, then the player. -/
def PlayerThread.all : List PlayerThread :=
  [.audioRenderer, .videoRenderer, .player, .demuxer, .audioDecoder, .videoDecoder]

namespace Player

variable {R κa κv σ : Type} [Scalar R]

/-- Posts the reports of a renderer. -/
def postRendered (p : Player R κa κv σ) (stream : StreamKind) (events : List RendererEvent) :
    Player R κa κv σ :=
  events.foldl (fun p e => (p.post (.rendered stream e)).2) p

/-- Wakes the demuxer if a decoder found its queue empty. -/
def wakeDemuxer (s : Session R κa κv σ) (starving : Bool) (now : Nat) : Session R κa κv σ :=
  if starving then { s with demuxer := s.demuxer.notify now } else s

/-- A pull at the audio output: so many bytes, given what the buffer holds before. -/
def pull (p : Player R κa κv σ) (out : Bytes) : Bytes × Player R κa κv σ :=
  let silence := (List.replicate out.length 0, p)
  match p.session with
  | none => silence
  | some s =>
    match s.audio with
    | none => silence
    | some a =>
      let (output, events, a, clock) := a.pull s.clock s.live p.now out
      (output, { p with session := some { s with audio := some a, clock } }.postRendered .audio events)

/-- Lets time pass. -/
def advance (p : Player R κa κv σ) (nanos : Nat) : Player R κa κv σ :=
  { p with now := p.now + nanos }

/-- What a player has shown to the outside: its reports and the calls of its outputs, oldest first. -/
structure Shown (R : Type) where
  events : List (PlayerEvent R)
  videoCalls : List (VideoCall R)
  audioCalls : List (AudioCall R)

/-- Takes what the player has shown since the last time. -/
def takeShown (p : Player R κa κv σ) : Shown R × Player R κa κv σ :=
  let audio := (p.session.bind (·.audio)).map (·.renderer.sink.calls)
  let video := (p.session.bind (·.video)).map (·.renderer.calls)
  let quietAudio (a : AudioPipeline R κa) : AudioPipeline R κa :=
    { a with renderer := { a.renderer with sink := { a.renderer.sink with calls := [] } } }
  let quietVideo (v : VideoPipeline R κv) : VideoPipeline R κv :=
    { v with renderer := { v.renderer with calls := [] } }
  let quiet (s : Session R κa κv σ) : Session R κa κv σ :=
    { s with audio := s.audio.map quietAudio, video := s.video.map quietVideo }
  (⟨p.events.reverse, (video.getD [] ++ p.videoCalls).reverse, (audio.getD [] ++ p.audioCalls).reverse⟩,
    { p with session := p.session.map quiet, events := [], audioCalls := [], videoCalls := [] })

variable [Codec κa RawAudioFrame] [Codec κv RawVideoFrame] [Source σ R]

/-- One step of a thread of a session, with what it reports to the player. -/
def stepSession (s : Session R κa κv σ) (now : Nat) : PlayerThread →
    List (PlayerTask R κa κv σ) × Session R κa κv σ
  | .player => ([], s)
  | .demuxer =>
    let d := s.demuxer.step s.queues s.clock now
    ((d.event.map PlayerTask.demuxed).toList,
      { s with demuxer := d.demuxer, clock := d.clock }.setQueues d.queues)
  | .audioDecoder =>
    match s.audio with
    | none => ([], s)
    | some a =>
      let (starving, a) := a.stepDecoder now
      ([], wakeDemuxer { s with audio := some a } starving now)
  | .videoDecoder =>
    match s.video with
    | none => ([], s)
    | some v =>
      let (starving, v) := v.stepDecoder now
      ([], wakeDemuxer { s with video := some v } starving now)
  | .audioRenderer =>
    match s.audio with
    | none => ([], s)
    | some a =>
      let (events, a) := a.step now
      (events.map (.rendered .audio), { s with audio := some a })
  | .videoRenderer =>
    match s.video with
    | none => ([], s)
    | some v =>
      let (events, v, clock) := v.step s.clock s.live now
      (events.map (.rendered .video), { s with video := some v, clock })

/-- Whether a thread of a session has nothing to do. -/
def sessionRests (s : Session R κa κv σ) (now : Nat) : PlayerThread → Bool
  | .player => true
  | .demuxer => s.demuxer.isResting now
  | .audioDecoder => s.audio.all fun a => a.decoder.isResting a.queue now
  | .videoDecoder => s.video.all fun v => v.decoder.isResting v.queue now
  | .audioRenderer => s.audio.all (·.isResting now)
  | .videoRenderer => s.video.all (·.isResting now)

/-- Whether a thread has nothing to do. -/
def isResting (p : Player R κa κv σ) : PlayerThread → Bool
  | .player => !p.loop.isEnding && (p.loop.next? p.now).isNone
  | t => p.session.all fun s => sessionRests s p.now t

/-- One step of a thread. -/
def step (p : Player R κa κv σ) : PlayerThread → Player R κa κv σ
  | .player =>
    match p.loop.next? p.now with
    | some (task, loop) => { p with loop }.run task
    | none => if p.loop.isEnding then { p with loop := p.loop.finish } else p
  | t =>
    match p.session with
    | none => p
    | some s =>
      let (tasks, s) := stepSession s p.now t
      tasks.foldl (fun p task => (p.post task).2) { p with session := some s }

/-- A step of the first thread that has something to do. -/
def step? (p : Player R κa κv σ) : Option (Player R κa κv σ) :=
  (PlayerThread.all.find? fun t => !p.isResting t).map p.step

/-- Lets the threads work until all of them wait, for at most so many steps. -/
def settle (p : Player R κa κv σ) (fuel : Nat) : Player R κa κv σ :=
  Playback.settle step? fuel p

end Player
end Playback
