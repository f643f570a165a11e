import Playback.Proofs.Render.Reservation
import Playback.Proofs.Render.VideoEnds
import Playback.Scripted.Render

/-!
# Pictures find room

A video renderer moves as `RequestView` says: what its thread, the thread of its decoder and callers do keeps the room
that its requests were made for (`act_reserves`), so that the ring takes every picture that comes
(`picture_enters`).
-/

namespace Playback

variable {R κ : Type}

def VideoTask.isResult : VideoTask R → Bool
  | .newFrame _ => true
  | .attemptRead | .refresh => false

/-- The picture that a task brings. -/
def VideoTask.picture? : VideoTask R → Option (VideoFrame R)
  | .newFrame (.frame frame) => some frame
  | _ => none

theorem VideoTask.eq_of_picture? {task : VideoTask R} {frame : VideoFrame R} (h : task.picture? = some frame) :
    task = .newFrame (.frame frame) := by
  unfold picture? at h
  split at h
  next => rw [Option.some.inj h]
  next => cases h

namespace VideoRenderer

variable [Scalar R]

/-- A selection takes pictures out of the ring, and lets requests be. -/
theorem select_loses (fuel : Nat) (v : VideoRenderer R) (m : MediaClock R) (live : LiveSerials) (now wait : R) :
    (v.select m live now wait fuel).1.reading = v.reading ∧
      v.ring.Loses (v.select m live now wait fuel).1.ring := by
  induction fuel generalizing v m wait with
  | zero => exact ⟨rfl, .refl _⟩
  | succ fuel ih =>
    cases hfront : v.ring.front? with
    | none =>
      rw [select, hfront]
      exact ⟨rfl, .refl _⟩
    | some frame =>
      have hcases := select_cases hfront m live now wait fuel
      have hpop := v.ring.popFront_loses
      generalize v.select m live now wait (fuel + 1) = result at hcases
      cases hcases with
      | past =>
        obtain ⟨hreading, hring⟩ := ih { v with ring := v.ring.popFront.2 } m wait
        exact ⟨hreading, hpop.trans hring⟩
      | waits => exact ⟨rfl, .refl _⟩
      | late _ _ _ _ timer m' =>
        obtain ⟨hreading, hring⟩ :=
          ih { v with frameTimer := timer, ring := v.ring.popFront.2, dropped := v.dropped + 1 } m' wait
        exact ⟨hreading, hpop.trans hring⟩
      | shown => exact ⟨rfl, hpop⟩

theorem chosen_loses (v : VideoRenderer R) (m : MediaClock R) (live : LiveSerials) (now : R) :
    (v.chosen m live now).reading = v.reading ∧ v.ring.Loses (v.chosen m live now).ring := by
  unfold chosen
  split
  next => exact ⟨rfl, .refl _⟩
  next => exact select_loses _ v m live now _

omit [Scalar R] in
theorem display_reading (v : VideoRenderer R) : v.display.2.reading = v.reading := by
  unfold display
  split <;> rfl

theorem refresh_loses (v : VideoRenderer R) (m : MediaClock R) (live : LiveSerials) (now : R) :
    (v.refresh m live now).renderer.reading = v.reading ∧ v.ring.Loses (v.refresh m live now).renderer.ring := by
  obtain ⟨hreading, hring⟩ := v.chosen_loses m live now
  obtain ⟨-, hrenderer⟩ := v.refresh_displays m live now
  obtain ⟨-, -, -, hshown⟩ := v.refresh_ends m live now
  rw [hshown]
  refine ⟨?_, hring⟩
  rw [hrenderer]
  exact (display_reading _).trans hreading

omit [Scalar R] in
theorem flush_loses (v : VideoRenderer R) (serial : Serial) :
    (v.flush serial).reading = v.reading ∧ v.ring.Loses (v.flush serial).ring := by
  have hretain := v.ring.retain_loses (·.serial = serial)
  unfold flush
  dsimp only
  split <;> exact ⟨rfl, hretain⟩

theorem setPaused_loses (v : VideoRenderer R) (m : MediaClock R) (paused : Bool) (now : R) :
    (v.setPaused m paused now).reading = v.reading ∧ v.ring.Loses (v.setPaused m paused now).ring := by
  unfold setPaused
  split
  next => exact ⟨rfl, .refl _⟩
  next => split <;> exact ⟨rfl, .refl _⟩

end VideoRenderer

namespace VideoPipeline

section Requests

def requestView (p : VideoPipeline R κ) : RequestView (VideoFrame R) where
  requests := p.decoder.requests
  results := p.loop.waiting VideoTask.isResult
  quitting := p.loop.queue.quitting
  reading := p.renderer.reading
  ring := p.renderer.ring

/-- The first half of an attempt to request a picture: the renderer is marked, unless there is a reason not to. -/
def reserve (p : VideoPipeline R κ) : Bool × VideoPipeline R κ :=
  if p.renderer.wantsRead p.queue.published then
    (true, { p with renderer := { p.renderer with reading := true } })
  else (false, p)

/-- The second half: the decoder is asked, and the mark is taken off if it refuses. -/
def submit (p : VideoPipeline R κ) (now : Nat) : VideoPipeline R κ :=
  let (accepted, decoder) := p.decoder.request p.handle now ()
  if accepted then { p with decoder }
  else { p with decoder, renderer := { p.renderer with reading := false } }

theorem attemptRead_eq (p : VideoPipeline R κ) (now : Nat) :
    p.attemptRead now = if p.reserve.1 then p.reserve.2.submit now else p := by
  unfold attemptRead reserve submit
  split
  next =>
    dsimp only
    rw [if_pos rfl]
    cases (p.decoder.request p.handle now ()).1 <;> rfl
  next => rfl

variable {p : VideoPipeline R κ} {n : Nat}

/-- Posting a task that is no result. -/
theorem post_reserves (h : p.requestView.Reserves n) (now delay : Nat) {task : VideoTask R} (taskId : Nat)
    (other : task.isResult = false) : (p.post now delay task taskId).requestView.Reserves n := by
  have hpost := p.loop.waiting_post VideoTask.isResult now delay task (some p.runner) taskId
  rw [other, Bool.and_false] at hpost
  exact h.keeps (Nat.le_refl _) (Nat.le_of_eq hpost) (p.loop.post_quitting ..) rfl (.refl _)

theorem reserve_reserves (h : p.requestView.Reserves n) :
    p.reserve.2.requestView.Reserves (n + p.reserve.1.toNat) := by
  unfold reserve
  split
  next hwants =>
    simp only [VideoRenderer.wantsRead, Bool.and_eq_true, Bool.not_eq_true'] at hwants
    obtain ⟨⟨⟨-, hidle⟩, hroom⟩, -⟩ := hwants
    exact h.begun hidle hroom
  next => exact h

theorem submit_reserves (h : p.requestView.Reserves (n + 1)) (now : Nat) : (p.submit now).requestView.Reserves n := by
  have hrequests := p.decoder.request_requests p.handle now ()
  unfold submit
  generalize p.decoder.request p.handle now () = answer at hrequests ⊢
  obtain ⟨accepted, decoder⟩ := answer
  have hsubmitted := h.submitted hrequests
  cases accepted with
  | true => exact hsubmitted
  | false => exact hsubmitted

theorem attemptRead_reserves (h : p.requestView.Reserves n) (now : Nat) :
    (p.attemptRead now).requestView.Reserves n := by
  have hreserve := reserve_reserves h
  rw [attemptRead_eq]
  split
  next hmarked =>
    rw [hmarked] at hreserve
    exact submit_reserves hreserve now
  next => exact h

theorem attemptRead_ring (p : VideoPipeline R κ) (now : Nat) : (p.attemptRead now).renderer.ring = p.renderer.ring := by
  unfold attemptRead
  split <;> rfl

theorem start_reserves (h : p.requestView.Reserves n) (now : Nat) : (p.start now).requestView.Reserves n := by
  unfold start
  split
  next => exact h
  next =>
    have hstarted : { p with
        renderer := { p.renderer with running := true, calls := .start :: p.renderer.calls } }.requestView.Reserves n :=
      h.keeps (Nat.le_refl _) (Nat.le_refl _) rfl rfl (.refl _)
    exact post_reserves (post_reserves hstarted now 0 0 rfl) now 0 _ rfl

theorem flush_reserves (h : p.requestView.Reserves n) (now : Nat) : (p.flush now).requestView.Reserves n := by
  obtain ⟨hreading, hring⟩ := p.renderer.flush_loses p.queue.published
  have hflushed : { p with renderer := p.renderer.flush p.queue.published }.requestView.Reserves n :=
    h.keeps (Nat.le_refl _) (Nat.le_refl _) rfl hreading hring
  exact post_reserves hflushed now 0 0 rfl

theorem stop_reserves (h : p.requestView.Reserves n) : p.stop.requestView.Reserves n :=
  h.keeps (p.decoder.cancel_requests_le p.handle) (p.loop.waiting_remove_le _ p.runner _) rfl rfl
    p.renderer.ring.clear_loses

end Requests

/-! ### What the threads do -/

variable [Scalar R] {p : VideoPipeline R κ} {n : Nat}

/-- What a task of the renderer does besides attempting to request a picture. -/
def perform (p : VideoPipeline R κ) (m : MediaClock R) (live : LiveSerials) (now : Nat) :
    VideoTask R → VideoPipeline R κ
  | .attemptRead => p
  | .newFrame result => { p with renderer := (p.renderer.deliver live.video result).2 }
  | .refresh =>
    if !p.renderer.running then p
    else
      let r := p.renderer.refresh m live (Scalar.ofNanos now)
      { p with renderer := r.renderer }.post now (delayOf r.wait) .refresh VideoTask.refreshId

/-- The renderer's thread takes a task and performs it, and has yet to attempt to request a picture. -/
def takeTask (p : VideoPipeline R κ) (m : MediaClock R) (live : LiveSerials) (now : Nat) : VideoPipeline R κ :=
  match p.loop.next? now with
  | some (task, loop) => { p with loop }.perform m live now task
  | none => p

theorem refresh_reserves (h : p.requestView.Reserves n) (m : MediaClock R) (live : LiveSerials) (now : Nat) :
    (p.perform m live now .refresh).requestView.Reserves n ∧
      (p.run m live now .refresh).2.1.requestView.Reserves n := by
  obtain ⟨hreading, hring⟩ := p.renderer.refresh_loses m live (Scalar.ofNanos now)
  have hrefreshed : { p with
      renderer := (p.renderer.refresh m live (Scalar.ofNanos now)).renderer }.requestView.Reserves n :=
    h.keeps (Nat.le_refl _) (Nat.le_refl _) rfl hreading hring
  unfold perform run
  dsimp only
  split
  next => exact ⟨h, h⟩
  next =>
    -- the next refresh is posted in either case, after the attempt if there is one
    refine ⟨post_reserves hrefreshed now _ _ rfl, post_reserves ?_ now _ _ rfl⟩
    split
    next => exact attemptRead_reserves hrefreshed now
    next => exact hrefreshed

/-- A task that was taken is no longer under way once it is performed. -/
theorem perform_reserves (h : p.requestView.Reserves n) {now : Nat} {task : VideoTask R} {loop : Loop (VideoTask R)}
    (hnext : p.loop.next? now = some (task, loop)) (m : MediaClock R) (live : LiveSerials) :
    ({ p with loop }.perform m live now task).requestView.Reserves n ∧
      ({ p with loop }.run m live now task).2.1.requestView.Reserves n := by
  have hwaiting := Loop.waiting_next? VideoTask.isResult hnext
  have hquitting := Loop.next?_quitting hnext
  have htaken (other : task.isResult = false) : { p with loop }.requestView.Reserves n := by
    rw [other] at hwaiting
    exact h.keeps (Nat.le_refl _) (Nat.le_of_eq hwaiting.symm) hquitting rfl (.refl _)
  cases task with
  | attemptRead => exact ⟨htaken rfl, attemptRead_reserves (htaken rfl) now⟩
  | refresh => exact refresh_reserves (htaken rfl) m live now
  | newFrame result =>
    -- the mark is taken off whatever the result is, and the ring changes only if it takes the picture
    have hdelivered {ring : Ring (VideoFrame R)} (intact : ring.Intact) := h.delivered hwaiting intact
    have hintact := h.reserved.intact
    rw [show p.requestView.quitting = loop.queue.quitting from hquitting.symm] at hdelivered
    cases result with
    | frame frame =>
      have hperformed : ({ p with loop }.perform m live now (.newFrame (.frame frame))).requestView.Reserves n := by
        unfold perform VideoRenderer.deliver
        dsimp only
        split
        next => exact hdelivered (hintact.pushBack frame)
        next => exact hdelivered hintact
      exact ⟨hperformed, attemptRead_reserves hperformed now⟩
    | endOfStream serial =>
      have hperformed : ({ p with loop }.perform m live now (.newFrame (.endOfStream serial))).requestView.Reserves n :=
        hdelivered hintact
      exact ⟨hperformed, attemptRead_reserves hperformed now⟩
    | aborted => exact ⟨hdelivered hintact, hdelivered hintact⟩
    | error text => exact ⟨hdelivered hintact, hdelivered hintact⟩

theorem takeTask_reserves (h : p.requestView.Reserves n) (m : MediaClock R) (live : LiveSerials) (now : Nat) :
    (p.takeTask m live now).requestView.Reserves n := by
  unfold takeTask
  split
  next hnext => exact (perform_reserves h hnext m live).1
  next => exact h

theorem step_reserves (h : p.requestView.Reserves n) (m : MediaClock R) (live : LiveSerials) (now : Nat) :
    (p.step m live now).2.1.requestView.Reserves n := by
  unfold step
  split
  next hnext => exact (perform_reserves h hnext m live).2
  next =>
    dsimp only
    split
    next => exact h.keeps (Nat.le_refl _) (Nat.le_refl _) rfl rfl (.refl _)
    next => exact h

theorem stepDecoder_reserves [Codec κ RawVideoFrame] (h : p.requestView.Reserves n) (now : Nat) :
    (p.stepDecoder now).2.requestView.Reserves n := by
  have hrequests := p.decoder.step_requests p.queue now
  unfold stepDecoder afterDecoding
  generalize p.decoder.step p.queue now = answer at hrequests ⊢
  obtain ⟨event, decoder, queue⟩ := answer
  dsimp only at hrequests ⊢
  cases event with
  | silent => exact h.decoded hrequests
  | starving => exact h.decoded hrequests
  | finished tag result =>
    have hpost := p.loop.waiting_post VideoTask.isResult now 0 (.newFrame result) (some p.runner) 0
    rw [p.loop.post_accepted, show p.loop.queue.quitting = false from h.running] at hpost
    have hdecoded := h.decoded hrequests
    exact hdecoded.keeps (Nat.le_refl _) (Nat.le_of_eq hpost) (p.loop.post_quitting ..) rfl (.refl _)

/-- What the decoder's thread finishes waits for the renderer's thread. -/
theorem finished_waits [Codec κ RawVideoFrame] (running : p.loop.queue.quitting = false) {now : Nat}
    {result : ReadResult (VideoFrame R)} {decoder : Decoder κ (VideoFinisher R) Unit} {queue : PacketQueue}
    (finished : p.decoder.step p.queue now = (.finished () result, decoder, queue)) :
    ∃ m ∈ (p.stepDecoder now).2.loop.queue.messages, m.task = .newFrame result := by
  unfold stepDecoder afterDecoding
  rw [finished]
  dsimp only [VideoPipeline.post]
  rw [Loop.post_running running]
  exact ⟨_, MessageQueue.mem_insert.mpr (.inl rfl), rfl⟩

/-- The ring takes every picture that comes, and one of the present generation is its last one then. -/
theorem picture_enters (h : p.requestView.Reserves n) {now : Nat} {frame : VideoFrame R} {loop : Loop (VideoTask R)}
    (hnext : p.loop.next? now = some (.newFrame (.frame frame), loop)) (m : MediaClock R) (live : LiveSerials) :
    (p.renderer.ring.pushBack frame).1 = true ∧ (frame.serial = live.video →
      (p.takeTask m live now).renderer.ring.toList = p.renderer.ring.toList ++ [frame] ∧
        (p.step m live now).2.1.renderer.ring.toList = p.renderer.ring.toList ++ [frame]) := by
  obtain ⟨haccepted, hlist⟩ := h.takes (Loop.waiting_next? VideoTask.isResult hnext) frame
  refine ⟨haccepted, fun present => ?_⟩
  have hring : ({ p with loop }.perform m live now (.newFrame (.frame frame))).renderer.ring
      = (p.renderer.ring.pushBack frame).2 := by
    unfold perform VideoRenderer.deliver
    dsimp only
    rw [if_pos present]
  have htake : p.takeTask m live now = { p with loop }.perform m live now (.newFrame (.frame frame)) := by
    rw [takeTask, hnext]
  have hstep : (p.step m live now).2.1
      = ({ p with loop }.perform m live now (.newFrame (.frame frame))).attemptRead now := by
    rw [step, hnext]
    rfl
  rw [htake, hstep, attemptRead_ring, hring]
  exact ⟨hlist, hlist⟩

theorem new_reserves (core : DecodeCore κ (VideoFinisher R)) (timeBase : Ratio) (config : SyncConfig R)
    (capacity : Nat) : (new core timeBase config capacity).requestView.Reserves 0 :=
  .of_empty ⟨[], Ring.new_holds capacity⟩ rfl rfl rfl

end VideoPipeline

/-- What happens to a video pipeline. -/
inductive VideoReadAct (R : Type) where
  /-- A whole step of the renderer's thread. -/
  | step (clock : MediaClock R) (live : LiveSerials) (now : Nat)
  /-- A step of the renderer's thread up to its attempt to request a picture. -/
  | takeTask (clock : MediaClock R) (live : LiveSerials) (now : Nat)
  | attemptRead (now : Nat)
  /-- A thread begins an attempt. -/
  | reserve
  /-- A thread goes on with the attempt that it has begun. -/
  | submit (now : Nat)
  | stepDecoder (now : Nat)
  | refresh (clock : MediaClock R) (live : LiveSerials) (now : Nat)
  | start (now : Nat)
  | flush (now : Nat)
  | stop
  | setPaused (clock : MediaClock R) (paused : Bool) (now : R)
  /-- The decoder is aborted. -/
  | abort
  /-- The decoder is aborted and its loop ends. -/
  | join
  /-- Others have changed the packets. -/
  | packets (queue : PacketQueue)

namespace VideoPipeline

variable [Scalar R] [Codec κ RawVideoFrame]

def act (s : Requesting (VideoPipeline R κ)) : VideoReadAct R → Requesting (VideoPipeline R κ)
  | .step clock live now => { s with pipeline := (s.pipeline.step clock live now).2.1 }
  | .takeTask clock live now => { s with pipeline := s.pipeline.takeTask clock live now }
  | .attemptRead now => { s with pipeline := s.pipeline.attemptRead now }
  | .reserve => ⟨s.pipeline.reserve.2, s.begun + s.pipeline.reserve.1.toNat⟩
  | .submit now => if s.begun = 0 then s else ⟨s.pipeline.submit now, s.begun - 1⟩
  | .stepDecoder now => { s with pipeline := (s.pipeline.stepDecoder now).2 }
  | .refresh clock live now => { s with pipeline := (s.pipeline.run clock live now .refresh).2.1 }
  | .start now => { s with pipeline := s.pipeline.start now }
  | .flush now => { s with pipeline := s.pipeline.flush now }
  | .stop => { s with pipeline := s.pipeline.stop }
  | .setPaused clock paused now =>
    { s with pipeline := { s.pipeline with renderer := s.pipeline.renderer.setPaused clock paused now } }
  | .abort => { s with pipeline := s.pipeline.abort }
  | .join => { s with pipeline := s.pipeline.join }
  | .packets queue => { s with pipeline := { s.pipeline with queue } }

def acts (s : Requesting (VideoPipeline R κ)) (as : List (VideoReadAct R)) : Requesting (VideoPipeline R κ) :=
  as.foldl act s

theorem act_reserves {s : Requesting (VideoPipeline R κ)} (h : s.pipeline.requestView.Reserves s.begun)
    (a : VideoReadAct R) : (act s a).pipeline.requestView.Reserves (act s a).begun := by
  cases a with
  | step clock live now => exact step_reserves h clock live now
  | takeTask clock live now => exact takeTask_reserves h clock live now
  | attemptRead now => exact attemptRead_reserves h now
  | reserve => exact reserve_reserves h
  | submit now =>
    unfold act
    dsimp only
    split
    next => exact h
    next hbegun =>
      rw [← Nat.succ_pred_eq_of_ne_zero hbegun] at h
      exact submit_reserves h now
  | stepDecoder now => exact stepDecoder_reserves h now
  | refresh clock live now => exact (refresh_reserves h clock live now).2
  | start now => exact start_reserves h now
  | flush now => exact flush_reserves h now
  | stop => exact stop_reserves h
  | setPaused clock paused now =>
    obtain ⟨hreading, hring⟩ := s.pipeline.renderer.setPaused_loses clock paused now
    exact h.keeps (Nat.le_refl _) (Nat.le_refl _) rfl hreading hring
  | abort =>
    have hrequests := s.pipeline.decoder.abort_requests_le s.pipeline.queue
    exact h.keeps hrequests (Nat.le_refl _) rfl rfl (.refl _)
  | join =>
    have hrequests := s.pipeline.decoder.abort_requests_le s.pipeline.queue
    have hjoined := (s.pipeline.decoder.abort s.pipeline.queue).1.join_requests_le
    exact h.keeps (Nat.le_trans hjoined hrequests) (Nat.le_refl _) rfl rfl (.refl _)
  | packets queue => exact h.keeps (Nat.le_refl _) (Nat.le_refl _) rfl rfl (.refl _)

theorem acts_reserves {s : Requesting (VideoPipeline R κ)} (h : s.pipeline.requestView.Reserves s.begun)
    (as : List (VideoReadAct R)) : (acts s as).pipeline.requestView.Reserves (acts s as).begun := by
  induction as generalizing s with
  | nil => exact h
  | cons a as ih => exact ih (act_reserves h a)

end VideoPipeline
end Playback
