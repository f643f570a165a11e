import Playback.Audio.Mix
import Playback.Clock.Media
import Playback.Decode.Decoder
import Playback.Render.Sink
import Playback.Ring

/-!
# Audio renderers

An audio renderer keeps a few decoded blocks in a ring, and the device calls back for bytes. A callback
never waits: what is missing is silence (an underrun). From the number of bytes not played yet follows the
position that is heard now, to which the audio clock is set.

Where audio is not the master its blocks are stretched or shortened a little (`synchronize`) when it is,
on average, too far from the master.
-/

namespace Playback

/-- A block that is being played: the bytes still to play. -/
structure PlayingBlock where
  rest : Bytes
  serial : Serial
deriving Repr

structure AudioRenderer (R : Type) where
  config : AudioConfig R
  syncConfig : SyncConfig R
  /-- The blocks that wait to be played. -/
  ring : Ring (AudioBlock R)
  playing : Option PlayingBlock
  /-- Whether a request to the decoder is under way. -/
  reading : Bool
  /-- The generation that was decoded to its end. -/
  endSerial : Option Serial
  /-- Whether the end was reported. -/
  endReported : Bool
  /-- The position at the end of the block that is being played; undefined if unknown. -/
  clockPts : R
  clockSerial : Option Serial
  /-- The weighted sum of the differences to the master. -/
  diffSum : R
  /-- How many differences were summed up, up to the number that is averaged. -/
  diffCount : Nat
  compensator : Compensator R
  paused : Bool
  stopped : Bool
  deviceParams : AudioParams
  /-- The bytes that the device asked for the last time. -/
  requestSize : Nat
  volume : R
  muted : Bool
  underruns : Nat
  sink : AudioSink R

/-- What a callback of the device leads to. -/
structure Rendered (R : Type) where
  renderer : AudioRenderer R
  clock : MediaClock R
  output : Bytes
  /-- Whether more blocks are to be requested. -/
  wantsMore : Bool
  /-- Whether everything of the generation was played. -/
  ended : Bool

namespace AudioRenderer

variable {R : Type} [Scalar R]

def new (config : AudioConfig R) (syncConfig : SyncConfig R) (capacity : Nat) (device : AudioDevice)
    (filter : RateFilter R) : AudioRenderer R where
  config
  syncConfig
  ring := .new capacity
  playing := none
  reading := false
  endSerial := none
  endReported := false
  clockPts := Scalar.nan
  clockSerial := none
  diffSum := 0.0
  diffCount := 0
  compensator := .new filter
  paused := true
  stopped := true
  deviceParams := default
  requestSize := 0
  volume := Scalar.clamp config.volume 0.0 1.0
  muted := config.muted
  underruns := 0
  sink := .new device

/-- Whether a request to the decoder is in order. -/
def wantsRead (a : AudioRenderer R) (serial : Serial) : Bool :=
  !a.stopped && !a.reading && !a.ring.isFull && a.endSerial != some serial

/-- Takes the result of a request; blocks of past generations are dropped. -/
def deliver (a : AudioRenderer R) (serial : Serial) (result : ReadResult (AudioBlock R)) :
    List RendererEvent × AudioRenderer R :=
  let a := { a with reading := false }
  match result with
  | .frame block =>
    ([], if block.serial = serial then { a with ring := (a.ring.pushBack block).2 } else a)
  | .endOfStream serial => ([], { a with endSerial := some serial })
  | .aborted => ([], { a with stopped := true })
  | .error text => ([.error text], { a with stopped := true })

/-- The number of samples that a block of so many should have after it was stretched or shortened, given
the difference of audio to the master: changed by that difference, within the limits of correction. -/
def correctedCount (a : AudioRenderer R) (sampleCount sampleRate : Nat) (diff : R) : Nat :=
  let percent := a.config.correctionPercentMax
  let wanted : Int := wrap64 (sampleCount + Scalar.toInt64 (diff * Scalar.ofInt sampleRate))
  let low : Int := (sampleCount * (100 - percent) / 100 : Nat)
  let high : Int := (sampleCount * (100 + percent) / 100 : Nat)
  (max low (min high wanted)).toNat

/-- How many samples a block should have so that audio comes closer to the master. Nothing is corrected
before enough differences were seen, nor while the average is below what the device asks for at once;
a difference that is undefined or too large starts the average anew. -/
def synchronize (a : AudioRenderer R) (m : MediaClock R) (live : LiveSerials) (now : R)
    (sampleCount : Nat) (params : AudioParams) : Nat × AudioRenderer R :=
  if m.masterType = .audioMaster then (sampleCount, a)
  else
    let averaged := max a.config.diffAverageCount 1
    let coefficient : R := Scalar.fade averaged
    let diff := m.readAt .audio live now - m.readMaster live now
    if Scalar.isNaN diff ∨ a.syncConfig.nosyncThreshold ≤ Scalar.abs diff then
      (sampleCount, { a with diffCount := 0, diffSum := 0.0 })
    else
      let a := { a with diffSum := diff + coefficient * a.diffSum }
      if a.diffCount < averaged then (sampleCount, { a with diffCount := a.diffCount + 1 })
      else
        let average := a.diffSum * (1.0 - coefficient)
        let threshold : R :=
          Scalar.ofInt a.requestSize / Scalar.ofInt (max params.bytesPerSecond 1)
        if Scalar.abs average < threshold then (sampleCount, a)
        else (a.correctedCount sampleCount params.sampleRate diff, a)

/-- Takes the next block of a generation out of the ring; blocks of others are dropped. At most `fuel`
blocks are looked at. -/
def takeBlock (serial : Serial) : Nat → Ring (AudioBlock R) → Option (AudioBlock R) × Ring (AudioBlock R)
  | 0, ring => (none, ring)
  | fuel + 1, ring =>
    match ring.popFront with
    | (none, ring) => (none, ring)
    | (some block, ring) =>
      if block.serial = serial then (some block, ring) else takeBlock serial fuel ring

/-- Makes the next block the one that is played, brought closer to the master; tells whether there was
one. -/
def nextBlock (a : AudioRenderer R) (m : MediaClock R) (live : LiveSerials) (now : R) :
    Bool × AudioRenderer R :=
  match takeBlock live.audio a.ring.length a.ring with
  | (none, ring) => (false, { a with ring, playing := none })
  | (some block, ring) =>
    let a := { a with ring }
    let (data, a) :=
      if m.masterType = .audioMaster then (block.data, a)
      else
        let (wanted, a) := a.synchronize m live now block.sampleCount block.params
        let (data, compensator) := a.compensator.process block.data block.params wanted
        (data, { a with compensator })
    (true, { a with
      playing := some ⟨data, block.serial⟩
      clockPts := if Scalar.isNaN block.pts then Scalar.nan else block.pts + block.duration
      clockSerial := some block.serial })

/-- The bytes still to play of the present block. -/
def unplayed (a : AudioRenderer R) : Bytes :=
  (a.playing.map (·.rest)).getD []

/-- Fills the output `out`, block by block, and gives what it holds afterwards; tells whether data was
missing. At most `fuel` blocks are begun. -/
def fill (a : AudioRenderer R) (m : MediaClock R) (live : LiveSerials) (now : R) (out : Bytes) :
    Nat → Bytes × Bool × AudioRenderer R
  | 0 => (List.replicate out.length 0, true, { a with playing := none })
  | fuel + 1 =>
    let data := a.unplayed
    let count := min data.length out.length
    let written := mix (out.take count) (data.take count) a.deviceParams.format a.volume a.muted
    let a := { a with playing := a.playing.map fun p => { p with rest := p.rest.drop count } }
    let out := out.drop count
    if out.isEmpty then (written, false, a)
    else
      match a.nextBlock m live now with
      | (false, a) => (written ++ List.replicate out.length 0, true, a)
      | (true, a) =>
        let (rest, missing, a) := fill a m live now out fuel
        (written ++ rest, missing, a)

/-- Sets the audio clock to what is heard now, given the bytes asked for at once and the delay of the
device: twice the request is on its way, besides what is left of the block. -/
def updateClock (a : AudioRenderer R) (m : MediaClock R) (live : LiveSerials) (now delay : R)
    (requested : Nat) : MediaClock R :=
  match a.clockSerial with
  | none => m
  | some serial =>
    if Scalar.isNaN a.clockPts then m
    else
      let ahead : R := Scalar.ofInt (2 * requested + a.unplayed.length : Nat)
      let played := a.clockPts
        - ahead / Scalar.ofInt (max a.deviceParams.bytesPerSecond 1) - delay
      ((m.setAt .audio played serial now).sync .external .audio live
        a.syncConfig.nosyncThreshold now).2

/-- A callback of the device, with the delay that the device adds and the output as it was. -/
def render (a : AudioRenderer R) (m : MediaClock R) (live : LiveSerials) (now delay : R)
    (out : Bytes) : Rendered R :=
  let a := { a with requestSize := out.length }
  let (output, missing, a) :=
    if a.paused then (List.replicate out.length 0, false, a)
    else if out.isEmpty then ([], false, a)
    else a.fill m live now out (a.ring.length + 1)
  let ended := missing && !a.endReported && a.endSerial = some live.audio
  let a := { a with
    endReported := a.endReported || ended
    underruns := if missing && !ended then a.underruns + 1 else a.underruns }
  { renderer := a
    clock := a.updateClock m live now delay out.length
    output, ended
    wantsMore := !a.ring.isFull && !a.reading && !a.stopped }

/-- Drops the data of past generations. -/
def flush (a : AudioRenderer R) (serial : Serial) : AudioRenderer R :=
  let a := { a with
    ring := a.ring.retain (·.serial = serial)
    playing := a.playing.filter (·.serial = serial) }
  let a := if a.endSerial = some serial then a else { a with endSerial := none, endReported := false }
  if a.clockSerial = some serial then a
  else { a with
    clockPts := Scalar.nan
    clockSerial := none
    diffSum := 0.0
    diffCount := 0
    compensator := a.compensator.reset }

/-- Opens the device; what is rendered from now on is in the format it has. -/
def setUp (a : AudioRenderer R) (wanted : AudioParams) : Except PlayerError AudioParams × AudioRenderer R :=
  let (answer, sink) := a.sink.setUp wanted
  let a := { a with sink }
  match answer with
  | .error e => (.error e, a)
  | .ok params => (.ok params, { a with deviceParams := params })

/-- Stops the output or lets it go on. -/
def setPaused (a : AudioRenderer R) (paused : Bool) : AudioRenderer R :=
  { a with paused, sink := if paused then a.sink.pause else a.sink.play }

/-- Sets the volume, kept between 0 and 1. -/
def setVolume (a : AudioRenderer R) (volume : R) : AudioRenderer R :=
  let volume := Scalar.clamp volume 0.0 1.0
  { a with volume, sink := a.sink.setVolume volume }

def setMuted (a : AudioRenderer R) (muted : Bool) : AudioRenderer R := { a with muted }

/-- Ends the rendering. -/
def stop (a : AudioRenderer R) : AudioRenderer R :=
  { a with stopped := true, ring := a.ring.clear, playing := none, sink := a.sink.stop }

end AudioRenderer

/-! ## The pipeline of an audio stream -/

/-- A task of the thread that looks after the renderer. -/
inductive AudioTask (R : Type) where
  | attemptRead
  | newBlock (result : ReadResult (AudioBlock R))
deriving Repr

/-- What belongs to an audio stream: its packets, the decoder, and the renderer with its thread. -/
structure AudioPipeline (R κ : Type) where
  queue : PacketQueue
  timeBase : Ratio
  decoder : Decoder κ (AudioFinisher R) Unit
  /-- Through which the renderer requests blocks. -/
  handle : ReadHandle
  loop : Loop (AudioTask R)
  /-- The runner of the renderer's tasks. -/
  runner : Nat
  renderer : AudioRenderer R
  /-- The generation of which everything was played. -/
  ended : Option Serial

namespace AudioPipeline

variable {R κ : Type} [Scalar R]

/-- A pipeline whose decoder has been started. -/
def new (core : DecodeCore κ (AudioFinisher R)) (timeBase : Ratio) (config : AudioConfig R)
    (syncConfig : SyncConfig R) (capacity : Nat) (device : AudioDevice) (filter : RateFilter R := .silent) :
    AudioPipeline R κ :=
  let (handle, decoder) := (Decoder.new "audio_decoder" core).handle
  let (decoder, queue) := decoder.start (.new .audio)
  let (runner, loop) := (Loop.new "audio_render").attach
  { queue, timeBase, decoder, handle, loop, runner
    renderer := .new config syncConfig capacity device filter, ended := none }

/-- Asks the renderer's thread to request a block. -/
def requestMore (p : AudioPipeline R κ) (now : Nat) : AudioPipeline R κ :=
  { p with loop := (p.loop.post now 0 .attemptRead (some p.runner)).2 }

/-- Requests a block, unless there is a reason not to. -/
def attemptRead (p : AudioPipeline R κ) (now : Nat) : AudioPipeline R κ :=
  if p.renderer.wantsRead p.queue.published then
    let (accepted, decoder) := p.decoder.request p.handle now ()
    { p with decoder, renderer := { p.renderer with reading := accepted } }
  else p

/-- Opens the device. -/
def setUp (p : AudioPipeline R κ) (wanted : AudioParams) :
    Except PlayerError AudioParams × AudioPipeline R κ :=
  let (answer, renderer) := p.renderer.setUp wanted
  (answer, { p with renderer })

/-- Starts the device and requests data. -/
def start (p : AudioPipeline R κ) (now : Nat) : Except PlayerError Unit × AudioPipeline R κ :=
  let (answer, sink) := p.renderer.sink.start
  let p := { p with renderer := { p.renderer with stopped := false, sink } }
  match answer with
  | .error e => (.error e, p)
  | .ok _ => (.ok (), p.requestMore now)

/-- Carries out a task of the renderer's thread. -/
def run (p : AudioPipeline R κ) (now : Nat) : AudioTask R → List RendererEvent × AudioPipeline R κ
  | .attemptRead => ([], p.attemptRead now)
  | .newBlock result =>
    let (events, renderer) := p.renderer.deliver p.queue.published result
    let p := { p with renderer }
    match result with
    | .frame _ | .endOfStream _ => (events, p.attemptRead now)
    | .aborted | .error _ => (events, p)

/-- A callback of the device; also gives the output. -/
def render (p : AudioPipeline R κ) (m : MediaClock R) (live : LiveSerials) (now : Nat) (delay : R)
    (out : Bytes) : Bytes × List RendererEvent × AudioPipeline R κ × MediaClock R :=
  let r := p.renderer.render m live (Scalar.ofNanos now) delay out
  let p := { p with renderer := r.renderer }
  let p := if r.wantsMore then p.requestMore now else p
  (r.output, if r.ended then [.ended live.audio] else [], p, r.clock)

/-- A pull at the output's other end: a callback while it plays, and otherwise silence. -/
def pull (p : AudioPipeline R κ) (m : MediaClock R) (live : LiveSerials) (now : Nat) (out : Bytes) :
    Bytes × List RendererEvent × AudioPipeline R κ × MediaClock R :=
  if p.renderer.sink.isPulling then p.render m live now 0.0 out
  else (List.replicate out.length 0, [], p, m)

/-- After a seek: drops what is past and requests blocks again. -/
def flush (p : AudioPipeline R κ) (now : Nat) : AudioPipeline R κ :=
  { p with renderer := p.renderer.flush p.queue.published }.requestMore now

/-- Ends the rendering and takes back what was requested. -/
def stop (p : AudioPipeline R κ) : AudioPipeline R κ :=
  { p with
    renderer := p.renderer.stop
    decoder := p.decoder.cancel p.handle
    loop := (p.loop.remove p.runner).2 }

/-- Whether the renderer's thread has nothing to do at a time. -/
def isResting (p : AudioPipeline R κ) (now : Nat) : Bool :=
  !p.loop.isEnding && (p.loop.next? now).isNone

/-- One step of the renderer's thread. -/
def step (p : AudioPipeline R κ) (now : Nat) : List RendererEvent × AudioPipeline R κ :=
  match p.loop.next? now with
  | some (task, loop) => { p with loop }.run now task
  | none => ([], if p.loop.isEnding then { p with loop := p.loop.finish } else p)

/-- What a step of the decoder's thread leads to: a finished request becomes a task of the renderer, and
an empty queue is reported. -/
def afterDecoding (p : AudioPipeline R κ) (now : Nat)
    (step : DecoderEvent (AudioBlock R) Unit × Decoder κ (AudioFinisher R) Unit × PacketQueue) :
    Bool × AudioPipeline R κ :=
  let p := { p with decoder := step.2.1, queue := step.2.2 }
  match step.1 with
  | .silent => (false, p)
  | .starving => (true, p)
  | .finished _ result =>
    (false, { p with loop := (p.loop.post now 0 (.newBlock result) (some p.runner)).2 })

/-- One step of the decoder's thread; tells whether the queue should be filled. -/
def stepDecoder [Codec κ RawAudioFrame] (p : AudioPipeline R κ) (now : Nat) :
    Bool × AudioPipeline R κ :=
  p.afterDecoding now (p.decoder.step p.queue now)

end AudioPipeline
end Playback
