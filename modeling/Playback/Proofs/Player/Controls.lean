import Playback.Player.Run
import Playback.Proofs.Render.Playing

/-!
# What a session is told from outside

The clocks and the video renderer can be stopped and let go on, the audio renderer moreover has a volume and
can be muted. `Session.controls` is the view of a session that shows these settings and nothing else.

> the threads of a session, and pulls at its output, leave the settings alone (`stepSession_controls`).

So whatever the settings of a session are, the player has made them.
-/

namespace Playback

variable {R κ κa κv σ : Type} [Scalar R]

/-! ## Clocks and video -/

namespace Clock

@[simp] theorem setPaused_paused (c : Clock R) (live : Option Serial) (paused : Bool) (time : R) :
    (c.setPaused live paused time).paused = paused := by
  unfold setPaused
  split
  next h => exact h
  next =>
    cases paused <;> rfl

@[simp] theorem syncTo_paused (c : Clock R) (live : Option Serial) (other : Clock R)
    (otherLive : Option Serial) (threshold time : R) :
    (c.syncTo live other otherLive threshold time).2.paused = c.paused := by
  unfold syncTo
  dsimp only
  split
  next => rfl
  next =>
    split
    next => rfl
    next => rfl

end Clock

namespace MediaClock

/-- Which of the clocks stand. -/
def pauses (m : MediaClock R) : List Bool :=
  [m.audio.paused, m.video.paused, m.external.paused]

omit [Scalar R] in
theorem setClock_pauses {m : MediaClock R} {name : ClockName} {c : Clock R}
    (h : c.paused = (m.clock name).paused) : (m.setClock name c).pauses = m.pauses := by
  cases name <;> simp [pauses, setClock, h, clock]

@[simp] theorem setAt_pauses (m : MediaClock R) (name : ClockName) (pts : R) (serial : Serial) (time : R) :
    (m.setAt name pts serial time).pauses = m.pauses :=
  setClock_pauses rfl

@[simp] theorem sync_pauses (m : MediaClock R) (name other : ClockName) (live : LiveSerials)
    (threshold time : R) : (m.sync name other live threshold time).2.pauses = m.pauses :=
  setClock_pauses (Clock.syncTo_paused ..)

@[simp] theorem checkExternalSpeed_pauses (m : MediaClock R) (live : LiveSerials)
    (videoPackets audioPackets : Option Nat) (time : R) :
    (m.checkExternalSpeed live videoPackets audioPackets time).pauses = m.pauses := by
  unfold checkExternalSpeed
  split
  next => rfl
  next => exact setClock_pauses rfl

@[simp] theorem setPaused_pauses (m : MediaClock R) (live : LiveSerials) (paused : Bool) (time : R) :
    (m.setPaused live paused time).pauses = [paused, paused, paused] := by
  simp [pauses, setPaused, pauseOne, setClock, clock]

end MediaClock

namespace VideoRenderer

@[simp] theorem updateClock_pauses (v : VideoRenderer R) (m : MediaClock R) (live : LiveSerials) (now : R)
    (frame : VideoFrame R) : (v.updateClock m live now frame).pauses = m.pauses := by
  unfold updateClock
  split
  next => rfl
  next => simp

omit [Scalar R] in
theorem timed_paused (v : VideoRenderer R) (c : Prop) [Decidable c] (frameTimer : R) :
    (if c then v else { v with frameTimer }).paused = v.paused := by
  split <;> rfl

/-- Choosing a picture sets clocks, but lets none run and stops none. -/
theorem select_controls (fuel : Nat) (v : VideoRenderer R) (m : MediaClock R) (live : LiveSerials)
    (now wait : R) : (v.select m live now wait fuel).1.paused = v.paused ∧
      (v.select m live now wait fuel).2.1.pauses = m.pauses := by
  fun_induction select v m live now wait fuel with
  | case1 | case2 => exact ⟨rfl, rfl⟩
  | case3 _ _ _ _ _ _ _ ih => exact ih
  | case4 | case5 => exact ⟨timed_paused .., rfl⟩
  | case6 =>
    rename_i ih
    exact ⟨ih.1.trans (timed_paused ..), ih.2.trans (updateClock_pauses ..)⟩
  | case7 => exact ⟨timed_paused .., updateClock_pauses ..⟩

omit [Scalar R] in
@[simp] theorem display_paused (v : VideoRenderer R) : v.display.2.paused = v.paused := by
  unfold display
  split <;> rfl

theorem refresh_controls (v : VideoRenderer R) (m : MediaClock R) (live : LiveSerials) (now : R) :
    (v.refresh m live now).renderer.paused = v.paused ∧ (v.refresh m live now).clock.pauses = m.pauses := by
  unfold refresh
  dsimp only
  rw [display_paused]
  split
  next => exact ⟨rfl, rfl⟩
  next => exact v.select_controls ..

omit [Scalar R] in
@[simp] theorem deliver_paused (v : VideoRenderer R) (serial : Serial) (result : ReadResult (VideoFrame R)) :
    (v.deliver serial result).2.paused = v.paused := by
  unfold deliver
  cases result with
  | frame frame =>
    dsimp only
    split <;> rfl
  | _ => rfl

omit [Scalar R] in
@[simp] theorem flush_paused (v : VideoRenderer R) (serial : Serial) : (v.flush serial).paused = v.paused := by
  unfold flush
  dsimp only
  split <;> rfl

@[simp] theorem setPaused_paused (v : VideoRenderer R) (m : MediaClock R) (paused : Bool) (now : R) :
    (v.setPaused m paused now).paused = paused := by
  unfold setPaused
  split
  next h => exact h
  next => split <;> rfl

end VideoRenderer

namespace VideoPipeline

omit [Scalar R] in
@[simp] theorem attemptRead_paused (v : VideoPipeline R κ) (now : Nat) :
    (v.attemptRead now).renderer.paused = v.renderer.paused := by
  unfold attemptRead
  split <;> rfl

/-- The renderer's thread. -/
theorem step_controls (v : VideoPipeline R κ) (m : MediaClock R) (live : LiveSerials) (now : Nat) :
    (v.step m live now).2.1.renderer.paused = v.renderer.paused ∧
      (v.step m live now).2.2.pauses = m.pauses := by
  unfold step
  split
  next task loop _ =>
    cases task with
    | attemptRead => exact ⟨attemptRead_paused { v with loop } now, rfl⟩
    | newFrame result =>
      have hdeliver := v.renderer.deliver_paused live.video result
      unfold run
      dsimp only
      split
      next => exact ⟨(attemptRead_paused _ now).trans hdeliver, rfl⟩
      next => exact ⟨(attemptRead_paused _ now).trans hdeliver, rfl⟩
      next => exact ⟨hdeliver, rfl⟩
      next => exact ⟨hdeliver, rfl⟩
    | refresh =>
      obtain ⟨hpaused, hclock⟩ := v.renderer.refresh_controls m live (Scalar.ofNanos now)
      unfold run
      dsimp only
      split
      next => exact ⟨rfl, rfl⟩
      next =>
        have hread (v : VideoPipeline R κ) (c : Prop) [Decidable c] :
            (if c then v.attemptRead now else v).renderer.paused = v.renderer.paused := by
          split
          next => exact v.attemptRead_paused now
          next => rfl
        exact ⟨(hread ..).trans hpaused, hclock⟩
  next => exact ⟨by split <;> rfl, rfl⟩

omit [Scalar R] in
@[simp] theorem afterDecoding_paused (v : VideoPipeline R κ) (now : Nat)
    (step : DecoderEvent (VideoFrame R) Unit × Decoder κ (VideoFinisher R) Unit × PacketQueue) :
    (v.afterDecoding now step).2.renderer = v.renderer := by
  unfold afterDecoding
  dsimp only
  split <;> rfl

end VideoPipeline

/-! ## Audio -/

/-- What an audio renderer is told from outside. -/
structure AudioControls (R : Type) where
  paused : Bool
  volume : R
  muted : Bool

namespace AudioRenderer

def controls (a : AudioRenderer R) : AudioControls R :=
  ⟨a.paused, a.volume, a.muted⟩

omit [Scalar R] in
theorem Plays.controls {a a' : AudioRenderer R} (h : a.Plays a') : a'.controls = a.controls := by
  obtain ⟨_, _, _, _, _, _, _, rfl⟩ := h
  rfl

theorem updateClock_pauses (a : AudioRenderer R) (m : MediaClock R) (live : LiveSerials) (now delay : R)
    (requested : Nat) : (a.updateClock m live now delay requested).pauses = m.pauses := by
  unfold updateClock
  split
  next => rfl
  next =>
    split
    next => rfl
    next => simp

theorem render_controls (a : AudioRenderer R) (m : MediaClock R) (live : LiveSerials) (now delay : R)
    (out : Bytes) : (a.render m live now delay out).renderer.controls = a.controls ∧
      (a.render m live now delay out).clock.pauses = m.pauses := by
  have hfill := (fill_plays { a with requestSize := out.length } m live now out (a.ring.length + 1)).controls
  refine ⟨?_, updateClock_pauses ..⟩
  unfold render
  dsimp only
  split
  next => rfl
  next =>
    split
    next => rfl
    next => exact hfill

omit [Scalar R] in
@[simp] theorem deliver_controls (a : AudioRenderer R) (serial : Serial) (result : ReadResult (AudioBlock R)) :
    (a.deliver serial result).2.controls = a.controls := by
  unfold deliver
  cases result with
  | frame block =>
    dsimp only
    split <;> rfl
  | _ => rfl

@[simp] theorem flush_controls (a : AudioRenderer R) (serial : Serial) :
    (a.flush serial).controls = a.controls := by
  unfold flush
  dsimp only
  repeat' split
  all_goals rfl

end AudioRenderer

namespace AudioPipeline

omit [Scalar R] in
@[simp] theorem attemptRead_controls (a : AudioPipeline R κ) (now : Nat) :
    (a.attemptRead now).renderer.controls = a.renderer.controls := by
  unfold attemptRead
  split <;> rfl

omit [Scalar R] in
/-- The renderer's thread. -/
theorem step_controls (a : AudioPipeline R κ) (now : Nat) :
    (a.step now).2.renderer.controls = a.renderer.controls := by
  unfold step
  split
  next task loop _ =>
    cases task with
    | attemptRead => exact attemptRead_controls { a with loop } now
    | newBlock result =>
      have hdeliver := a.renderer.deliver_controls a.queue.published result
      unfold run
      dsimp only
      split
      next => exact (attemptRead_controls _ now).trans hdeliver
      next => exact (attemptRead_controls _ now).trans hdeliver
      next => exact hdeliver
      next => exact hdeliver
  next => split <;> rfl

/-- A pull at the output. -/
theorem pull_controls (a : AudioPipeline R κ) (m : MediaClock R) (live : LiveSerials) (now : Nat)
    (out : Bytes) : (a.pull m live now out).2.2.1.renderer.controls = a.renderer.controls ∧
      (a.pull m live now out).2.2.2.pauses = m.pauses := by
  unfold pull
  split
  next =>
    obtain ⟨hcontrols, hclock⟩ := a.renderer.render_controls m live (Scalar.ofNanos now) 0.0 out
    refine ⟨?_, hclock⟩
    rw [← hcontrols]
    unfold render
    dsimp only
    split <;> rfl
  next => exact ⟨rfl, rfl⟩

omit [Scalar R] in
@[simp] theorem afterDecoding_renderer (a : AudioPipeline R κ) (now : Nat)
    (step : DecoderEvent (AudioBlock R) Unit × Decoder κ (AudioFinisher R) Unit × PacketQueue) :
    (a.afterDecoding now step).2.renderer = a.renderer := by
  unfold afterDecoding
  dsimp only
  split <;> rfl

end AudioPipeline

/-! ## The demuxer -/

/-- A seek sets the external clock; nothing else of the demuxer has to do with clocks. -/
theorem Demuxer.step_pauses [Source σ R] (d : Demuxer R σ) (queues : List StreamQueue) (m : MediaClock R)
    (now : Nat) : (d.step queues m now).clock.pauses = m.pauses := by
  unfold step
  split
  next left _ =>
    unfold readOne
    dsimp only
    split
    next => rfl
    next =>
      split
      next => rfl
      next =>
        split
        next => rfl
        next => split <;> rfl
        next => rfl
  next =>
    split
    next => rfl
    next position loop _ =>
      unfold seek
      split
      next => rfl
      next =>
        dsimp only
        split
        next => rfl
        next => exact MediaClock.setAt_pauses ..
    next => rfl

/-! ## Sessions -/

/-- What a session is told from outside. -/
structure Controls (R : Type) where
  /-- Which of the three clocks stand. -/
  clocks : List Bool
  /-- Whether the pacing of pictures stands. -/
  video : Option Bool
  audio : Option (AudioControls R)

/-- Everything is to stand, or to run. -/
def Controls.setPaused (c : Controls R) (paused : Bool) : Controls R where
  clocks := c.clocks.map fun _ => paused
  video := c.video.map fun _ => paused
  audio := c.audio.map fun a => { a with paused }

namespace Session

def controls (s : Session R κa κv σ) : Controls R :=
  ⟨s.clock.pauses, s.video.map (·.renderer.paused), s.audio.map (·.renderer.controls)⟩

omit [Scalar R] in
@[simp] theorem setQueues_controls (s : Session R κa κv σ) (queues : List StreamQueue) :
    (s.setQueues queues).controls = s.controls := by
  unfold setQueues
  split <;> simp [controls, *]

theorem setPaused_controls (s : Session R κa κv σ) (paused : Bool) (now : Nat) :
    (s.setPaused paused now).controls = s.controls.setPaused paused := by
  simp only [controls, setPaused, MediaClock.setPaused_pauses, Controls.setPaused, Option.map_map]
  congr 1
  simp [Function.comp_def]

theorem flush_controls (s : Session R κa κv σ) (now : Nat) : (s.flush now).controls = s.controls := by
  simp [controls, flush, Function.comp_def, AudioPipeline.flush, AudioPipeline.requestMore,
    VideoPipeline.flush, VideoPipeline.post]

end Session

namespace Player

omit [Scalar R] in
theorem markEnded_controls (s : Session R κa κv σ) (stream : StreamKind) (serial : Serial) :
    (markEnded s stream serial).controls = s.controls := by
  cases stream <;> simp [markEnded, Session.controls, Function.comp_def]

variable [Codec κa RawAudioFrame] [Codec κv RawVideoFrame] [Source σ R]

/-- The threads of a session leave alone what it was told. -/
theorem stepSession_controls (s : Session R κa κv σ) (now : Nat) (thread : PlayerThread) :
    (stepSession s now thread).2.controls = s.controls := by
  have hwake (s : Session R κa κv σ) (starving : Bool) :
      (wakeDemuxer s starving now).controls = s.controls := by
    unfold wakeDemuxer
    split <;> rfl
  cases thread with
  | player => rfl
  | demuxer =>
    have hclock := s.demuxer.step_pauses s.queues s.clock now
    exact (Session.setQueues_controls ..).trans (congrArg (Controls.mk · _ _) hclock)
  | audioDecoder =>
    cases h : s.audio with
    | none => simp [stepSession, h]
    | some a =>
      simp only [stepSession, h]
      refine (hwake ..).trans ?_
      simp [Session.controls, h, AudioPipeline.stepDecoder]
  | videoDecoder =>
    cases h : s.video with
    | none => simp [stepSession, h]
    | some v =>
      simp only [stepSession, h]
      refine (hwake ..).trans ?_
      simp [Session.controls, h, VideoPipeline.stepDecoder]
  | audioRenderer =>
    cases h : s.audio with
    | none => simp [stepSession, h]
    | some a => simp [stepSession, h, Session.controls, a.step_controls]
  | videoRenderer =>
    cases h : s.video with
    | none => simp [stepSession, h]
    | some v =>
      obtain ⟨hpaused, hclock⟩ := v.step_controls s.clock s.live now
      simp [stepSession, h, Session.controls, hpaused, hclock]

end Player
end Playback
