import Playback.Exact
import Playback.Proofs.Render.Flush
import Playback.Proofs.Render.VideoReservation

/-!
# Nothing is lost between a decoder and its renderer

An audio renderer moves as `RequestView` says, like a video renderer. What its callbacks take out of the ring only adds
to the room (`fill_loses`), so the ring takes every block that comes (`block_enters`).
-/

namespace Playback

variable {R κ : Type}

/-! ## Audio -/

def AudioTask.isResult : AudioTask R → Bool
  | .newBlock _ => true
  | .attemptRead => false

namespace AudioRenderer

variable [Scalar R]

omit [Scalar R] in
theorem takeBlock_loses (serial : Serial) (fuel : Nat) (ring : Ring (AudioBlock R)) :
    ring.Loses (takeBlock serial fuel ring).2 := by
  induction fuel generalizing ring with
  | zero => exact .refl ring
  | succ fuel ih =>
    have hpop := ring.popFront_loses
    unfold takeBlock
    split
    next heq => rwa [heq] at hpop
    next heq =>
      rw [heq] at hpop
      split
      next => exact hpop
      next => exact hpop.trans (ih _)

theorem nextBlock_loses (a : AudioRenderer R) (m : MediaClock R) (live : LiveSerials) (now : R) :
    a.ring.Loses (a.nextBlock m live now).2.ring := by
  have htake := takeBlock_loses live.audio a.ring.length a.ring
  unfold nextBlock
  split
  next heq => rwa [heq] at htake
  next heq =>
    rw [heq] at htake
    dsimp only
    split
    next => exact htake
    next =>
      dsimp only
      rwa [(synchronize_keeps ..).1]

theorem fill_loses (m : MediaClock R) (live : LiveSerials) (now : R) (fuel : Nat) (a : AudioRenderer R) (out : Bytes) :
    a.ring.Loses (a.fill m live now out fuel).2.2.ring := by
  induction fuel generalizing a out with
  | zero => exact .refl _
  | succ fuel ih =>
    unfold fill
    dsimp only
    generalize hplayed : ({ a with
      playing := a.playing.map fun p =>
        { p with rest := p.rest.drop (min a.unplayed.length out.length) } } : AudioRenderer R) = played
    have hring : played.ring = a.ring := by rw [← hplayed]
    have hnext := played.nextBlock_loses m live now
    rw [hring] at hnext
    split
    next =>
      rw [hring]
      exact .refl _
    next =>
      split
      next heq => rwa [heq] at hnext
      next heq =>
        rw [heq] at hnext
        exact hnext.trans (ih _ _)

omit [Scalar R] in
theorem Plays.reading {a a' : AudioRenderer R} (h : a.Plays a') : a'.reading = a.reading := by
  obtain ⟨_, _, _, _, _, _, _, rfl⟩ := h
  rfl

/-- A callback of the device takes blocks out of the ring, and lets requests be. -/
theorem render_loses (a : AudioRenderer R) (m : MediaClock R) (live : LiveSerials) (now delay : R) (out : Bytes) :
    (a.render m live now delay out).renderer.reading = a.reading ∧
      a.ring.Loses (a.render m live now delay out).renderer.ring := by
  have hloses := fill_loses m live now (a.ring.length + 1) { a with requestSize := out.length } out
  have hplays := fill_plays { a with requestSize := out.length } m live now out (a.ring.length + 1)
  unfold render
  dsimp only
  generalize ({ a with requestSize := out.length } : AudioRenderer R).fill m live now out
    (a.ring.length + 1) = filled at hloses hplays ⊢
  by_cases hpaused : a.paused = true
  · rw [if_pos hpaused]
    exact ⟨rfl, .refl _⟩
  rw [if_neg hpaused]
  by_cases hempty : out.isEmpty = true
  · rw [if_pos hempty]
    exact ⟨rfl, .refl _⟩
  rw [if_neg hempty]
  exact ⟨hplays.reading, hloses⟩

omit [Scalar R] in
theorem setUp_loses (a : AudioRenderer R) (wanted : AudioParams) :
    (a.setUp wanted).2.reading = a.reading ∧ a.ring.Loses (a.setUp wanted).2.ring := by
  unfold setUp
  dsimp only
  split <;> exact ⟨rfl, .refl _⟩

theorem flush_loses (a : AudioRenderer R) (serial : Serial) :
    (a.flush serial).reading = a.reading ∧ a.ring.Loses (a.flush serial).ring := by
  have hretain := a.ring.retain_loses (·.serial = serial)
  unfold flush
  dsimp only
  split <;> split <;> exact ⟨rfl, hretain⟩

end AudioRenderer

namespace AudioPipeline

section Requests

def requestView (p : AudioPipeline R κ) : RequestView (AudioBlock R) where
  requests := p.decoder.requests
  results := p.loop.waiting AudioTask.isResult
  quitting := p.loop.queue.quitting
  reading := p.renderer.reading
  ring := p.renderer.ring

/-- The first half of an attempt to request a block: the renderer is marked, unless there is a reason not to. -/
def reserve (p : AudioPipeline R κ) : Bool × AudioPipeline R κ :=
  if p.renderer.wantsRead p.queue.published then
    (true, { p with renderer := { p.renderer with reading := true } })
  else (false, p)

/-- The second half: the decoder is asked, and the mark is taken off if it refuses. -/
def submit (p : AudioPipeline R κ) (now : Nat) : AudioPipeline R κ :=
  let (accepted, decoder) := p.decoder.request p.handle now ()
  if accepted then { p with decoder }
  else { p with decoder, renderer := { p.renderer with reading := false } }

/-- What a task of the renderer's thread does besides attempting to request a block. -/
def perform (p : AudioPipeline R κ) : AudioTask R → AudioPipeline R κ
  | .attemptRead => p
  | .newBlock result => { p with renderer := (p.renderer.deliver p.queue.published result).2 }

/-- The renderer's thread takes a task and performs it, and has yet to attempt to request a block. -/
def takeTask (p : AudioPipeline R κ) (now : Nat) : AudioPipeline R κ :=
  match p.loop.next? now with
  | some (task, loop) => { p with loop }.perform task
  | none => p

theorem attemptRead_eq (p : AudioPipeline R κ) (now : Nat) :
    p.attemptRead now = if p.reserve.1 then p.reserve.2.submit now else p := by
  unfold attemptRead reserve submit
  split
  next =>
    dsimp only
    rw [if_pos rfl]
    cases (p.decoder.request p.handle now ()).1 <;> rfl
  next => rfl

variable {p : AudioPipeline R κ} {n : Nat}

theorem requestMore_reserves (h : p.requestView.Reserves n) (now : Nat) :
    (p.requestMore now).requestView.Reserves n := by
  have hpost := p.loop.waiting_post AudioTask.isResult now 0 .attemptRead (some p.runner) 0
  rw [show AudioTask.isResult (.attemptRead : AudioTask R) = false from rfl, Bool.and_false] at hpost
  exact h.keeps (Nat.le_refl _) (Nat.le_of_eq hpost) (p.loop.post_quitting ..) rfl (.refl _)

theorem reserve_reserves (h : p.requestView.Reserves n) :
    p.reserve.2.requestView.Reserves (n + p.reserve.1.toNat) := by
  unfold reserve
  split
  next hwants =>
    simp only [AudioRenderer.wantsRead, Bool.and_eq_true, Bool.not_eq_true'] at hwants
    obtain ⟨⟨⟨-, hidle⟩, hroom⟩, -⟩ := hwants
    exact h.begun hidle hroom
  next => exact h

theorem submit_reserves (h : p.requestView.Reserves (n + 1)) (now : Nat) : (p.submit now).requestView.Reserves n := by
  have hrequests := p.decoder.request_requests p.handle now ()
  unfold submit
  generalize p.decoder.request p.handle now () = answer at hrequests ⊢
  obtain ⟨accepted, decoder⟩ := answer
  have hsubmitted := h.submitted hrequests
  cases accepted with
  | true => exact hsubmitted
  | false => exact hsubmitted

theorem attemptRead_reserves (h : p.requestView.Reserves n) (now : Nat) :
    (p.attemptRead now).requestView.Reserves n := by
  have hreserve := reserve_reserves h
  rw [attemptRead_eq]
  split
  next hmarked =>
    rw [hmarked] at hreserve
    exact submit_reserves hreserve now
  next => exact h

/-- A task that was taken is no longer under way once it is performed. -/
theorem perform_reserves (h : p.requestView.Reserves n) {now : Nat} {task : AudioTask R} {loop : Loop (AudioTask R)}
    (hnext : p.loop.next? now = some (task, loop)) : ({ p with loop }.perform task).requestView.Reserves n := by
  have hwaiting := Loop.waiting_next? AudioTask.isResult hnext
  have hquitting := Loop.next?_quitting hnext
  cases task with
  | attemptRead => exact h.keeps (Nat.le_refl _) (Nat.le_of_eq hwaiting.symm) hquitting rfl (.refl _)
  | newBlock result =>
    -- the mark is taken off whatever the result is, and the ring changes only if it takes the block
    have hdelivered {ring : Ring (AudioBlock R)} (intact : ring.Intact) := h.delivered hwaiting intact
    have hintact := h.reserved.intact
    rw [show p.requestView.quitting = loop.queue.quitting from hquitting.symm] at hdelivered
    cases result with
    | frame block =>
      unfold perform AudioRenderer.deliver
      dsimp only
      split
      next => exact hdelivered (hintact.pushBack block)
      next => exact hdelivered hintact
    | endOfStream serial => exact hdelivered hintact
    | aborted => exact hdelivered hintact
    | error text => exact hdelivered hintact

theorem takeTask_reserves (h : p.requestView.Reserves n) (now : Nat) : (p.takeTask now).requestView.Reserves n := by
  unfold takeTask
  split
  next hnext => exact perform_reserves h hnext
  next => exact h

end Requests

/-! ### What the threads do -/

variable [Scalar R] {p : AudioPipeline R κ} {n : Nat}

omit [Scalar R] in
theorem run_reserves (h : p.requestView.Reserves n) {now : Nat} {task : AudioTask R} {loop : Loop (AudioTask R)}
    (hnext : p.loop.next? now = some (task, loop)) : ({ p with loop }.run now task).2.requestView.Reserves n := by
  have hperformed := perform_reserves h hnext
  cases task with
  | attemptRead => exact attemptRead_reserves hperformed now
  | newBlock result =>
    cases result with
    | frame block => exact attemptRead_reserves hperformed now
    | endOfStream serial => exact attemptRead_reserves hperformed now
    | aborted => exact hperformed
    | error text => exact hperformed

omit [Scalar R] in
theorem step_reserves (h : p.requestView.Reserves n) (now : Nat) : (p.step now).2.requestView.Reserves n := by
  unfold step
  split
  next hnext => exact run_reserves h hnext
  next =>
    dsimp only
    split
    next => exact h.keeps (Nat.le_refl _) (Nat.le_refl _) rfl rfl (.refl _)
    next => exact h

theorem render_reserves (h : p.requestView.Reserves n) (m : MediaClock R) (live : LiveSerials) (now : Nat) (delay : R)
    (out : Bytes) : (p.render m live now delay out).2.2.1.requestView.Reserves n := by
  obtain ⟨hreading, hring⟩ := p.renderer.render_loses m live (Scalar.ofNanos now) delay out
  have hrendered : { p with
      renderer := (p.renderer.render m live (Scalar.ofNanos now) delay out).renderer }.requestView.Reserves n :=
    h.keeps (Nat.le_refl _) (Nat.le_refl _) rfl hreading hring
  unfold render
  dsimp only
  split
  next => exact requestMore_reserves hrendered now
  next => exact hrendered

theorem pull_reserves (h : p.requestView.Reserves n) (m : MediaClock R) (live : LiveSerials) (now : Nat) (out : Bytes) :
    (p.pull m live now out).2.2.1.requestView.Reserves n := by
  unfold pull
  split
  next => exact render_reserves h m live now _ out
  next => exact h

omit [Scalar R] in
theorem start_reserves (h : p.requestView.Reserves n) (now : Nat) : (p.start now).2.requestView.Reserves n := by
  have hstarted : { p with
      renderer := { p.renderer with stopped := false, sink := p.renderer.sink.start.2 } }.requestView.Reserves n :=
    h.keeps (Nat.le_refl _) (Nat.le_refl _) rfl rfl (.refl _)
  unfold start
  dsimp only
  split
  next => exact hstarted
  next => exact requestMore_reserves hstarted now

theorem flush_reserves (h : p.requestView.Reserves n) (now : Nat) : (p.flush now).requestView.Reserves n := by
  obtain ⟨hreading, hring⟩ := p.renderer.flush_loses p.queue.published
  have hflushed : { p with renderer := p.renderer.flush p.queue.published }.requestView.Reserves n :=
    h.keeps (Nat.le_refl _) (Nat.le_refl _) rfl hreading hring
  exact requestMore_reserves hflushed now

omit [Scalar R] in
theorem stop_reserves (h : p.requestView.Reserves n) : p.stop.requestView.Reserves n :=
  h.keeps (p.decoder.cancel_requests_le p.handle) (p.loop.waiting_remove_le _ p.runner none) rfl rfl
    p.renderer.ring.clear_loses

theorem stepDecoder_reserves [Codec κ RawAudioFrame] (h : p.requestView.Reserves n) (now : Nat) :
    (p.stepDecoder now).2.requestView.Reserves n := by
  have hrequests := p.decoder.step_requests p.queue now
  unfold stepDecoder afterDecoding
  generalize p.decoder.step p.queue now = answer at hrequests ⊢
  obtain ⟨event, decoder, queue⟩ := answer
  dsimp only at hrequests ⊢
  cases event with
  | silent => exact h.decoded hrequests
  | starving => exact h.decoded hrequests
  | finished tag result =>
    have hpost := p.loop.waiting_post AudioTask.isResult now 0 (.newBlock result) (some p.runner) 0
    rw [p.loop.post_accepted, show p.loop.queue.quitting = false from h.running] at hpost
    have hdecoded := h.decoded hrequests
    exact hdecoded.keeps (Nat.le_refl _) (Nat.le_of_eq hpost) (p.loop.post_quitting ..) rfl (.refl _)

/-- What the decoder's thread finishes waits for the renderer's thread. -/
theorem finished_waits [Codec κ RawAudioFrame] (running : p.loop.queue.quitting = false) {now : Nat}
    {result : ReadResult (AudioBlock R)} {decoder : Decoder κ (AudioFinisher R) Unit} {queue : PacketQueue}
    (finished : p.decoder.step p.queue now = (.finished () result, decoder, queue)) :
    ∃ m ∈ (p.stepDecoder now).2.loop.queue.messages, m.task = .newBlock result := by
  unfold stepDecoder afterDecoding
  rw [finished]
  dsimp only
  rw [Loop.post_running running]
  exact ⟨_, MessageQueue.mem_insert.mpr (.inl rfl), rfl⟩

theorem new_reserves (core : DecodeCore κ (AudioFinisher R)) (timeBase : Ratio) (config : AudioConfig R)
    (syncConfig : SyncConfig R) (capacity : Nat) (device : AudioDevice) (filter : RateFilter R) :
    (new core timeBase config syncConfig capacity device filter).requestView.Reserves 0 :=
  .of_empty ⟨[], Ring.new_holds capacity⟩ rfl rfl rfl

omit [Scalar R] in
theorem attemptRead_ring (p : AudioPipeline R κ) (now : Nat) : (p.attemptRead now).renderer.ring = p.renderer.ring := by
  unfold attemptRead
  split <;> rfl

omit [Scalar R] in
/-- The ring takes every block that comes, and one of the present generation is its last one then. -/
theorem block_enters (h : p.requestView.Reserves n) {now : Nat} {block : AudioBlock R} {loop : Loop (AudioTask R)}
    (hnext : p.loop.next? now = some (.newBlock (.frame block), loop)) :
    (p.renderer.ring.pushBack block).1 = true ∧ (block.serial = p.queue.published →
      (p.takeTask now).renderer.ring.toList = p.renderer.ring.toList ++ [block] ∧
        (p.step now).2.renderer.ring.toList = p.renderer.ring.toList ++ [block]) := by
  obtain ⟨haccepted, hlist⟩ := h.takes (Loop.waiting_next? AudioTask.isResult hnext) block
  refine ⟨haccepted, fun present => ?_⟩
  have hring : ({ p with loop }.perform (.newBlock (.frame block))).renderer.ring
      = (p.renderer.ring.pushBack block).2 := by
    unfold perform AudioRenderer.deliver
    dsimp only
    rw [if_pos present]
  have htake : p.takeTask now = { p with loop }.perform (.newBlock (.frame block)) := by
    rw [takeTask, hnext]
  have hstep : (p.step now).2 = ({ p with loop }.perform (.newBlock (.frame block))).attemptRead now := by
    rw [step, hnext]
    rfl
  rw [htake, hstep, attemptRead_ring, hring]
  exact ⟨hlist, hlist⟩

end AudioPipeline

/-- What happens to an audio pipeline. -/
inductive AudioReadAct (R : Type) where
  /-- A whole step of the renderer's thread. -/
  | step (now : Nat)
  /-- A step of the renderer's thread up to its attempt to request a block. -/
  | takeTask (now : Nat)
  | attemptRead (now : Nat)
  /-- A thread begins an attempt. -/
  | reserve
  /-- A thread goes on with the attempt that it has begun. -/
  | submit (now : Nat)
  | stepDecoder (now : Nat)
  | render (clock : MediaClock R) (live : LiveSerials) (now : Nat) (delay : R) (out : Bytes)
  | pull (clock : MediaClock R) (live : LiveSerials) (now : Nat) (out : Bytes)
  | start (now : Nat)
  | flush (now : Nat)
  | stop
  | setUp (wanted : AudioParams)
  | setOutput (target : AudioParams)
  | setPaused (paused : Bool)
  | setVolume (volume : R)
  | setMuted (muted : Bool)
  /-- The decoder is aborted. -/
  | abort
  /-- The decoder is aborted and its loop ends. -/
  | join
  /-- Others have changed the packets. -/
  | packets (queue : PacketQueue)

namespace AudioPipeline

variable [Scalar R] [Codec κ RawAudioFrame]

def act (s : Requesting (AudioPipeline R κ)) : AudioReadAct R → Requesting (AudioPipeline R κ)
  | .step now => { s with pipeline := (s.pipeline.step now).2 }
  | .takeTask now => { s with pipeline := s.pipeline.takeTask now }
  | .attemptRead now => { s with pipeline := s.pipeline.attemptRead now }
  | .reserve => ⟨s.pipeline.reserve.2, s.begun + s.pipeline.reserve.1.toNat⟩
  | .submit now => if s.begun = 0 then s else ⟨s.pipeline.submit now, s.begun - 1⟩
  | .stepDecoder now => { s with pipeline := (s.pipeline.stepDecoder now).2 }
  | .render clock live now delay out => { s with pipeline := (s.pipeline.render clock live now delay out).2.2.1 }
  | .pull clock live now out => { s with pipeline := (s.pipeline.pull clock live now out).2.2.1 }
  | .start now => { s with pipeline := (s.pipeline.start now).2 }
  | .flush now => { s with pipeline := s.pipeline.flush now }
  | .stop => { s with pipeline := s.pipeline.stop }
  | .setUp wanted => { s with pipeline := (s.pipeline.setUp wanted).2 }
  | .setOutput target => { s with pipeline := { s.pipeline with decoder := s.pipeline.decoder.setOutput target } }
  | .setPaused paused => { s with pipeline := { s.pipeline with renderer := s.pipeline.renderer.setPaused paused } }
  | .setVolume volume => { s with pipeline := { s.pipeline with renderer := s.pipeline.renderer.setVolume volume } }
  | .setMuted muted => { s with pipeline := { s.pipeline with renderer := s.pipeline.renderer.setMuted muted } }
  | .abort => { s with pipeline := s.pipeline.abort }
  | .join => { s with pipeline := s.pipeline.join }
  | .packets queue => { s with pipeline := { s.pipeline with queue } }

def acts (s : Requesting (AudioPipeline R κ)) (as : List (AudioReadAct R)) : Requesting (AudioPipeline R κ) :=
  as.foldl act s

theorem act_reserves {s : Requesting (AudioPipeline R κ)} (h : s.pipeline.requestView.Reserves s.begun)
    (a : AudioReadAct R) : (act s a).pipeline.requestView.Reserves (act s a).begun := by
  cases a with
  | step now => exact step_reserves h now
  | takeTask now => exact takeTask_reserves h now
  | attemptRead now => exact attemptRead_reserves h now
  | reserve => exact reserve_reserves h
  | submit now =>
    unfold act
    dsimp only
    split
    next => exact h
    next hbegun =>
      rw [← Nat.succ_pred_eq_of_ne_zero hbegun] at h
      exact submit_reserves h now
  | stepDecoder now => exact stepDecoder_reserves h now
  | render clock live now delay out => exact render_reserves h clock live now delay out
  | pull clock live now out => exact pull_reserves h clock live now out
  | start now => exact start_reserves h now
  | flush now => exact flush_reserves h now
  | stop => exact stop_reserves h
  | setUp wanted =>
    obtain ⟨hreading, hring⟩ := s.pipeline.renderer.setUp_loses wanted
    exact h.keeps (Nat.le_refl _) (Nat.le_refl _) rfl hreading hring
  | abort =>
    have hrequests := s.pipeline.decoder.abort_requests_le s.pipeline.queue
    exact h.keeps hrequests (Nat.le_refl _) rfl rfl (.refl _)
  | join =>
    have hrequests := s.pipeline.decoder.abort_requests_le s.pipeline.queue
    have hjoined := (s.pipeline.decoder.abort s.pipeline.queue).1.join_requests_le
    exact h.keeps (Nat.le_trans hjoined hrequests) (Nat.le_refl _) rfl rfl (.refl _)
  | _ => exact h.keeps (Nat.le_refl _) (Nat.le_refl _) rfl rfl (.refl _)

theorem acts_reserves {s : Requesting (AudioPipeline R κ)} (h : s.pipeline.requestView.Reserves s.begun)
    (as : List (AudioReadAct R)) : (acts s as).pipeline.requestView.Reserves (acts s as).begun := by
  induction as generalizing s with
  | nil => exact h
  | cons a as ih => exact ih (act_reserves h a)

end AudioPipeline
/-- **Nothing is lost between a decoder and its renderer.** Let threads work on an audio or a video pipeline in any
order, so that an attempt to request something may be interrupted after it has marked the renderer. Then

* at most one request is under way, from the mark until the renderer has its result in hand;
* while one is, the renderer is marked, and its ring is not full;
* what the decoder finishes waits for the renderer's thread;
* the ring refuses nothing that comes, and what comes of the present generation is its last element then. -/
theorem results_find_room [Scalar R] {χ : Type} [Codec κ RawAudioFrame] [Codec χ RawVideoFrame] :
    (∀ (core : DecodeCore κ (AudioFinisher R)) (timeBase : Ratio) (config : AudioConfig R) (syncConfig : SyncConfig R)
        (capacity : Nat) (device : AudioDevice) (filter : RateFilter R) (as : List (AudioReadAct R)),
      let s := AudioPipeline.acts ⟨.new core timeBase config syncConfig capacity device filter, 0⟩ as
      let p := s.pipeline
      let underWay := p.decoder.requests + p.loop.waiting AudioTask.isResult + s.begun
      underWay ≤ 1 ∧
        (0 < underWay → p.renderer.reading = true ∧ p.renderer.ring.isFull = false) ∧
        (∀ now result decoder queue, p.decoder.step p.queue now = (.finished () result, decoder, queue) →
          ∃ m ∈ (p.stepDecoder now).2.loop.queue.messages, m.task = .newBlock result) ∧
        ∀ now block loop, p.loop.next? now = some (.newBlock (.frame block), loop) →
          (p.renderer.ring.pushBack block).1 = true ∧ (block.serial = p.queue.published →
            (p.takeTask now).renderer.ring.toList = p.renderer.ring.toList ++ [block] ∧
              (p.step now).2.renderer.ring.toList = p.renderer.ring.toList ++ [block])) ∧
    (∀ (core : DecodeCore χ (VideoFinisher R)) (timeBase : Ratio) (config : SyncConfig R) (capacity : Nat)
        (as : List (VideoReadAct R)),
      let s := VideoPipeline.acts ⟨.new core timeBase config capacity, 0⟩ as
      let p := s.pipeline
      let underWay := p.decoder.requests + p.loop.waiting VideoTask.isResult + s.begun
      underWay ≤ 1 ∧
        (0 < underWay → p.renderer.reading = true ∧ p.renderer.ring.isFull = false) ∧
        (∀ now result decoder queue, p.decoder.step p.queue now = (.finished () result, decoder, queue) →
          ∃ m ∈ (p.stepDecoder now).2.loop.queue.messages, m.task = .newFrame result) ∧
        ∀ now frame loop, p.loop.next? now = some (.newFrame (.frame frame), loop) → ∀ clock live,
          (p.renderer.ring.pushBack frame).1 = true ∧ (frame.serial = live.video →
            (p.takeTask clock live now).renderer.ring.toList = p.renderer.ring.toList ++ [frame] ∧
              (p.step clock live now).2.1.renderer.ring.toList = p.renderer.ring.toList ++ [frame])) := by
  constructor
  · intro core timeBase config syncConfig capacity device filter as
    have h := AudioPipeline.acts_reserves (s := ⟨_, 0⟩)
      (AudioPipeline.new_reserves core timeBase config syncConfig capacity device filter) as
    exact ⟨h.reserved.single, fun hpos => ⟨h.reserved.marked hpos, h.reserved.room hpos⟩,
      fun _ _ _ _ => AudioPipeline.finished_waits h.running, fun _ _ _ => AudioPipeline.block_enters h⟩
  · intro core timeBase config capacity as
    have h := VideoPipeline.acts_reserves (s := ⟨_, 0⟩)
      (VideoPipeline.new_reserves core timeBase config capacity) as
    exact ⟨h.reserved.single, fun hpos => ⟨h.reserved.marked hpos, h.reserved.room hpos⟩,
      fun _ _ _ _ => VideoPipeline.finished_waits h.running, fun _ _ _ => VideoPipeline.picture_enters h⟩

/-- A codec that gives one picture. -/
def onePicture : DecodeCore (ScriptedCodec RawVideoFrame) (VideoFinisher Exact) :=
  .new (.new [] [.frame ⟨none, 2, 1, default, [0, 0]⟩] fun _ => default) ⟨.millis, none⟩ false

/-- A flush falls into the middle of an attempt to request a picture, and then the decoder works. -/
def untilPicture : List (VideoReadAct Exact) :=
  [.reserve, .flush 0, .submit 0] ++ List.replicate 12 (.stepDecoder 0) ++
    [.step (.new .videoMaster id (.finite 0)) ⟨0, 1⟩ 0]

/-- A video pipeline with a ring of one place, as the picture comes. -/
def pictureComes : VideoPipeline Exact (ScriptedCodec RawVideoFrame) :=
  (VideoPipeline.acts ⟨.new onePicture .millis .default 1, 0⟩ untilPicture).pipeline

/-- The picture is taken although the ring has one place only. -/
theorem picture_after_flush :
    let picture : VideoFrame Exact := ⟨.undefined, 0.0, 1, 2, 1, default, [0, 0]⟩
    (∃ loop, pictureComes.loop.next? 0 = some (.newFrame (.frame picture), loop)) ∧
      pictureComes.renderer.reading = true ∧ pictureComes.renderer.ring.isFull = false ∧
      ∀ clock, (pictureComes.step clock ⟨0, 1⟩ 0).2.1.renderer.ring.toList = [picture] := by
  intro picture
  obtain ⟨-, hroom, -, henters⟩ := (results_find_room (R := Exact) (κ := ScriptedCodec RawAudioFrame)).2
    onePicture .millis .default 1 untilPicture
  -- loops cannot be compared, so it is the picture alone that is computed
  have hcomes : (pictureComes.loop.next? 0).bind (·.1.picture?) = some picture := by decide +kernel
  obtain ⟨⟨task, loop⟩, hnext, hpicture⟩ := Option.bind_eq_some_iff.mp hcomes
  obtain rfl : task = .newFrame (.frame picture) := VideoTask.eq_of_picture? hpicture
  have hempty : pictureComes.renderer.ring.toList = [] := by decide +kernel
  have hreserved := hroom (by decide +kernel)
  refine ⟨⟨loop, hnext⟩, hreserved.1, hreserved.2, fun clock => ?_⟩
  have hlast := ((henters 0 picture loop hnext clock ⟨0, 1⟩).2 rfl).2
  exact hlast.trans (hempty ▸ rfl)

end Playback
