import Playback.Clock.Media
import Playback.Decode.Decoder
import Playback.Render.Pacing
import Playback.Render.Sink
import Playback.Ring

/-!
# Video renderers

A video renderer keeps a few decoded pictures in a ring and shows each when its time has come. The time at
which the picture on show should have appeared is `frameTimer`; each refresh compares it with the present
time, corrected by how far video is ahead of the master clock or behind it (`SyncConfig.targetDelay?`), and
either waits, or shows the next picture, or leaves a late one out. Showing a picture sets the video clock.

At most one request to the decoder is under way; `reading` says so.
-/

namespace Playback

structure VideoRenderer (R : Type) where
  config : SyncConfig R
  /-- The pictures that wait to be shown. -/
  ring : Ring (VideoFrame R)
  lastShown : Option (VideoFrame R)
  /-- Whether a request to the decoder is under way. -/
  reading : Bool
  /-- The generation that was decoded to its end. -/
  endSerial : Option Serial
  /-- Whether the end was reported. -/
  endReported : Bool
  /-- The time at which the present picture is due, in seconds. -/
  frameTimer : R
  paused : Bool
  /-- Whether the next refresh shows the last picture in any case. -/
  forceRefresh : Bool
  /-- The size that was last reported. -/
  notifiedSize : Option (Nat × Nat)
  /-- Whether refreshes are scheduled. -/
  running : Bool
  stopped : Bool
  rendered : Nat
  dropped : Nat
  /-- The calls of the output, newest first. -/
  calls : List (VideoCall R)
deriving Repr

/-- What a refresh leads to. -/
structure Refreshed (R : Type) where
  renderer : VideoRenderer R
  clock : MediaClock R
  /-- The time until the next refresh, in seconds. -/
  wait : R
  /-- The new size of the picture that was shown. -/
  size : Option (Nat × Nat)
  /-- Whether more pictures are to be requested. -/
  wantsMore : Bool
  /-- Whether everything of the generation was shown. -/
  ended : Bool

namespace VideoRenderer

variable {R : Type} [Scalar R]

def new (config : SyncConfig R) (capacity : Nat) : VideoRenderer R where
  config
  ring := .new capacity
  lastShown := none
  reading := false
  endSerial := none
  endReported := false
  frameTimer := 0.0
  paused := false
  forceRefresh := false
  notifiedSize := none
  running := false
  stopped := false
  rendered := 0
  dropped := 0
  calls := []

/-- Whether a request to the decoder is in order. -/
def wantsRead (v : VideoRenderer R) (serial : Serial) : Bool :=
  !v.stopped && !v.reading && !v.ring.isFull && v.endSerial != some serial

/-- Takes the result of a request; pictures of past generations are dropped. -/
def deliver (v : VideoRenderer R) (serial : Serial) (result : ReadResult (VideoFrame R)) :
    List RendererEvent × VideoRenderer R :=
  let v := { v with reading := false }
  match result with
  | .frame frame =>
    ([], if frame.serial = serial then { v with ring := (v.ring.pushBack frame).2 } else v)
  | .endOfStream serial => ([], { v with endSerial := some serial })
  | .aborted => ([], { v with stopped := true })
  | .error text => ([.error text], { v with stopped := true })

/-- Whether late pictures are left out. -/
def dropsLate (v : VideoRenderer R) (m : MediaClock R) : Bool :=
  match v.config.frameDrop with
  | .always => true
  | .never => false
  | .auto => m.masterType != .videoMaster

/-- The wait before a picture, given its nominal wait. -/
def targetDelay (v : VideoRenderer R) (m : MediaClock R) (live : LiveSerials) (now delay : R) : R :=
  let diff : R :=
    if m.masterType = .videoMaster then Scalar.nan
    else m.readAt .video live now - m.readMaster live now
  (v.config.targetDelay? delay diff).getD delay

/-- Sets the video clock to a picture that is due, and pulls the external clock to it. -/
def updateClock (v : VideoRenderer R) (m : MediaClock R) (live : LiveSerials) (now : R)
    (frame : VideoFrame R) : MediaClock R :=
  if Scalar.isNaN frame.pts then m
  else
    ((m.setAt .video frame.pts frame.serial now).sync .external .video live
      v.config.nosyncThreshold now).2

/-- Goes through the waiting pictures: those of past generations and late ones are dropped, and the first
other one is shown if it is due. At most `fuel` pictures are looked at. -/
def select (v : VideoRenderer R) (m : MediaClock R) (live : LiveSerials) (now wait : R) :
    Nat → VideoRenderer R × MediaClock R × R
  | 0 => (v, m, wait)
  | fuel + 1 =>
    match v.ring.front? with
    | none => (v, m, wait)
    | some frame =>
      let rest := { v with ring := v.ring.popFront.2 }
      if frame.serial ≠ live.video then select rest m live now wait fuel
      else
        let last := v.lastShown.filter (·.serial = frame.serial)
        let v := if last.isSome then v else { v with frameTimer := now }
        if v.paused then (v, m, wait)
        else
          let nominal : R := (last.map (·.interval frame v.config.maxFrameDuration)).getD 0.0
          let delay := v.targetDelay m live now nominal
          let due := v.frameTimer + delay
          if now < due then (v, m, Scalar.min (due - now) wait)
          else
            let timer := if 0.0 < delay ∧ v.config.thresholdMax < now - due then now else due
            let v := { v with frameTimer := timer }
            let m := v.updateClock m live now frame
            let late := (v.ring.get? 1).any fun next =>
              v.dropsLate m && timer + frame.interval next v.config.maxFrameDuration < now
            let ring := v.ring.popFront.2
            if late then select { v with ring, dropped := v.dropped + 1 } m live now wait fuel
            else ({ v with ring, lastShown := some frame, forceRefresh := true }, m, wait)

/-- Shows the last picture if that was asked for; also gives its size if it is new. -/
def display (v : VideoRenderer R) : Option (Nat × Nat) × VideoRenderer R :=
  match v.forceRefresh, v.lastShown with
  | true, some frame =>
    let size := (frame.width, frame.height)
    (if v.notifiedSize = some size then none else some size,
      { v with
        forceRefresh := false
        notifiedSize := some size
        rendered := v.rendered + 1
        calls := .show frame :: v.calls })
  | _, _ => (none, { v with forceRefresh := false })

/-- A refresh: chooses the picture to show and tells when to look again. -/
def refresh (v : VideoRenderer R) (m : MediaClock R) (live : LiveSerials) (now : R) : Refreshed R :=
  let (v, clock, wait) :=
    if v.paused && !v.forceRefresh then (v, m, v.config.refreshRate)
    else v.select m live now v.config.refreshRate v.ring.length
  let (size, v) := v.display
  let ended := !v.endReported && v.endSerial = some live.video && v.ring.isEmpty
  { renderer := { v with endReported := v.endReported || ended }
    clock, wait, size, ended
    wantsMore := !v.stopped && !v.reading && !v.ring.isFull }

/-- Stops the pacing or lets it go on; the time of the pause is not held against the next picture. -/
def setPaused (v : VideoRenderer R) (m : MediaClock R) (paused : Bool) (now : R) : VideoRenderer R :=
  if v.paused = paused then v
  else if paused then { v with paused }
  else { v with paused, frameTimer := v.frameTimer + (now - m.video.lastUpdated) }

/-- Drops the pictures of past generations, and the end of one. -/
def flush (v : VideoRenderer R) (serial : Serial) : VideoRenderer R :=
  let v := { v with ring := v.ring.retain (·.serial = serial) }
  if v.endSerial = some serial then v else { v with endSerial := none, endReported := false }

/-- Ends the rendering. -/
def stop (v : VideoRenderer R) : VideoRenderer R :=
  { v with running := false, stopped := true, ring := v.ring.clear, calls := .stop :: v.calls }

end VideoRenderer

/-! ## The pipeline of a video stream -/

/-- A task of the thread that renders pictures. -/
inductive VideoTask (R : Type) where
  | attemptRead
  | newFrame (result : ReadResult (VideoFrame R))
  | refresh
deriving Repr

/-- The id of refreshes. -/
def VideoTask.refreshId : Nat := 1

/-- What belongs to a video stream: its packets, the decoder, and the renderer with its thread. -/
structure VideoPipeline (R κ : Type) where
  queue : PacketQueue
  timeBase : Ratio
  decoder : Decoder κ (VideoFinisher R) Unit
  /-- Through which the renderer requests pictures. -/
  handle : ReadHandle
  loop : Loop (VideoTask R)
  /-- The runner of the renderer's tasks. -/
  runner : Nat
  renderer : VideoRenderer R
  /-- The generation of which everything was shown. -/
  ended : Option Serial

namespace VideoPipeline

variable {R κ : Type} [Scalar R]

/-- A pipeline whose decoder has been started. -/
def new (core : DecodeCore κ (VideoFinisher R)) (timeBase : Ratio) (config : SyncConfig R)
    (capacity : Nat) : VideoPipeline R κ :=
  let (handle, decoder) := (Decoder.new "video_decoder" core).handle
  let (decoder, queue) := decoder.start (.new .video)
  let (runner, loop) := (Loop.new "video_render").attach
  { queue, timeBase, decoder, handle, loop, runner, renderer := .new config capacity, ended := none }

/-- Posts a task of the renderer. -/
def post (p : VideoPipeline R κ) (now delay : Nat) (task : VideoTask R) (taskId : Nat := 0) :
    VideoPipeline R κ :=
  { p with loop := (p.loop.post now delay task (some p.runner) taskId).2 }

/-- Requests a picture, unless there is a reason not to. -/
def attemptRead (p : VideoPipeline R κ) (now : Nat) : VideoPipeline R κ :=
  if p.renderer.wantsRead p.queue.published then
    let (accepted, decoder) := p.decoder.request p.handle now ()
    { p with decoder, renderer := { p.renderer with reading := accepted } }
  else p

/-- Starts the output and the refreshes. -/
def start (p : VideoPipeline R κ) (now : Nat) : VideoPipeline R κ :=
  if p.renderer.running then p
  else
    let renderer := { p.renderer with running := true, calls := .start :: p.renderer.calls }
    ({ p with renderer }.post now 0 .attemptRead).post now 0 .refresh VideoTask.refreshId

/-- The delay for a time in seconds; times without a number of nanoseconds wait as long as possible. -/
def delayOf (wait : R) : Nat := (Scalar.toNanos? wait).getD maxDelay

/-- Carries out a task of the renderer. -/
def run (p : VideoPipeline R κ) (m : MediaClock R) (live : LiveSerials) (now : Nat) :
    VideoTask R → List RendererEvent × VideoPipeline R κ × MediaClock R
  | .attemptRead => ([], p.attemptRead now, m)
  | .newFrame result =>
    let (events, renderer) := p.renderer.deliver live.video result
    let p := { p with renderer }
    match result with
    | .frame _ | .endOfStream _ => (events, p.attemptRead now, m)
    | .aborted | .error _ => (events, p, m)
  | .refresh =>
    if !p.renderer.running then ([], p, m)
    else
      let r := p.renderer.refresh m live (Scalar.ofNanos now)
      let p := { p with renderer := r.renderer }
      let p := if r.wantsMore then p.attemptRead now else p
      let sized : List RendererEvent := (r.size.map fun (w, h) => .firstFrame w h).toList
      let ended : List RendererEvent := if r.ended then [.ended live.video] else []
      (sized ++ ended, p.post now (delayOf r.wait) .refresh VideoTask.refreshId, r.clock)

/-- After a seek: drops what is past and requests pictures again. -/
def flush (p : VideoPipeline R κ) (now : Nat) : VideoPipeline R κ :=
  { p with renderer := p.renderer.flush p.queue.published }.post now 0 .attemptRead

/-- Ends the rendering and takes back what was requested and scheduled. -/
def stop (p : VideoPipeline R κ) : VideoPipeline R κ :=
  { p with
    renderer := p.renderer.stop
    loop := (p.loop.remove p.runner (some VideoTask.refreshId)).2
    decoder := p.decoder.cancel p.handle }

/-- Whether the renderer's thread has nothing to do at a time. -/
def isResting (p : VideoPipeline R κ) (now : Nat) : Bool :=
  !p.loop.isEnding && (p.loop.next? now).isNone

/-- One step of the renderer's thread. -/
def step (p : VideoPipeline R κ) (m : MediaClock R) (live : LiveSerials) (now : Nat) :
    List RendererEvent × VideoPipeline R κ × MediaClock R :=
  match p.loop.next? now with
  | some (task, loop) => { p with loop }.run m live now task
  | none => ([], if p.loop.isEnding then { p with loop := p.loop.finish } else p, m)

/-- What a step of the decoder's thread leads to: a finished request becomes a task of the renderer, and
an empty queue is reported. -/
def afterDecoding (p : VideoPipeline R κ) (now : Nat)
    (step : DecoderEvent (VideoFrame R) Unit × Decoder κ (VideoFinisher R) Unit × PacketQueue) :
    Bool × VideoPipeline R κ :=
  let p := { p with decoder := step.2.1, queue := step.2.2 }
  match step.1 with
  | .silent => (false, p)
  | .starving => (true, p)
  | .finished _ result => (false, p.post now 0 (.newFrame result))

/-- One step of the decoder's thread; tells whether the queue should be filled. -/
def stepDecoder [Codec κ RawVideoFrame] (p : VideoPipeline R κ) (now : Nat) :
    Bool × VideoPipeline R κ :=
  p.afterDecoding now (p.decoder.step p.queue now)

end VideoPipeline
end Playback
