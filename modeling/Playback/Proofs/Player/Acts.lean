import Playback.Player.Run

/-!
# What can happen to a player

An act is one atomic thing that happens to a player: a call of a user, a pull at its audio output, time that
goes by, or one step of one of its threads. A run is a list of acts in any order. What is said here of one
act is all that the theory of runs needs to know about the player's code:

* `act_works`: what is neither a request to open, nor a stop, nor a turn of the player's own thread leaves
  the state alone, keeps the session, and only posts tasks that open nothing (`Works`);
* `run_turn`: what a task may make of the state, with the reason for it (`Turn`);
* `run_works` and `openMedia_cases`: only the task that opens a medium brings a session, and no task ends
  one;
* `act_does`: what an act comes to, one case for each kind of act (`Does`).
-/

namespace Playback

variable {R κa κv σ : Type}

/-- Something that happens to a player. -/
inductive PlayerAct (R κa κv σ : Type) where
  | requestOpen (media : Media κa κv σ)
  | stop
  | release
  | seek (position : R)
  | setPlayWhenReady (playWhenReady : Bool)
  | setVolume (volume : R)
  | setMuted (muted : Bool)
  | pull (out : Bytes)
  | advance (nanos : Nat)
  | step (thread : PlayerThread)

/-- Whether an act is neither a turn of the player's own thread, nor a call that opens or ends something, nor
time going by. -/
def PlayerAct.isQuiet : PlayerAct R κa κv σ → Bool
  | .requestOpen _ | .stop | .release | .advance _ | .step .player => false
  | _ => true

/-- The medium that a task is to open. -/
def PlayerTask.medium? : PlayerTask R κa κv σ → Option (Media κa κv σ)
  | .openMedia media => some media
  | _ => none

/-- Whether a task is a report of a thread of the session. -/
def PlayerTask.isReport : PlayerTask R κa κv σ → Bool
  | .demuxed _ | .rendered _ _ => true
  | _ => false

theorem PlayerTask.medium?_report {task : PlayerTask R κa κv σ} (h : task.isReport = true) :
    task.medium? = none := by
  cases task with
  | openMedia => cases h
  | _ => rfl

/-- A loop after tasks were posted that open nothing. -/
inductive Grows (now : Nat) (l : Loop (PlayerTask R κa κv σ)) : Loop (PlayerTask R κa κv σ) → Prop where
  | same : Grows now l l
  | post {l' : Loop (PlayerTask R κa κv σ)} (grown : Grows now l l') (delay : Nat)
      (task : PlayerTask R κa κv σ) (runner : Option Nat) (taskId : Nat) (other : task.medium? = none) :
      Grows now l (l'.post now delay task runner taskId).2

theorem Grows.trans {now : Nat} {l₁ l₂ l₃ : Loop (PlayerTask R κa κv σ)} (h₁ : Grows now l₁ l₂)
    (h₂ : Grows now l₂ l₃) : Grows now l₁ l₃ := by
  induction h₂ with
  | same => exact h₁
  | post _ delay task runner taskId other ih => exact .post ih delay task runner taskId other

@[simp] theorem Session.setQueues_info (s : Session R κa κv σ) (queues : List StreamQueue) :
    (s.setQueues queues).info = s.info := by
  unfold setQueues
  split <;> rfl

namespace Player

/-- What the source of the session has said about itself; nothing if there is no session. -/
def playing (p : Player R κa κv σ) : Option (MediaInfo R) :=
  p.session.map (·.info)

theorem playing_eq_none {p : Player R κa κv σ} : p.playing = none ↔ p.session = none :=
  Option.map_eq_none_iff

/-- Work on the present session: tasks may have been posted, at the same time. -/
structure Works (p p' : Player R κa κv σ) : Prop where
  playing : p'.playing = p.playing
  now : p'.now = p.now
  loop : Grows p.now p.loop p'.loop

theorem Works.refl (p : Player R κa κv σ) : p.Works p := ⟨rfl, rfl, .same⟩

theorem Works.alive {p p' : Player R κa κv σ} (h : p.Works p') :
    p'.session.isSome = p.session.isSome := by
  simpa [Player.playing] using congrArg Option.isSome h.playing

theorem Works.trans {p₁ p₂ p₃ : Player R κa κv σ} (h₁ : p₁.Works p₂) (h₂ : p₂.Works p₃) :
    p₁.Works p₃ :=
  ⟨h₂.playing.trans h₁.playing, h₂.now.trans h₁.now, h₁.loop.trans (h₁.now ▸ h₂.loop)⟩

/-! ## Small steps -/

theorem onSession_playing (p : Player R κa κv σ) (f : Session R κa κv σ → Session R κa κv σ)
    (hf : ∀ s, (f s).info = s.info) : { p with session := p.session.map f }.playing = p.playing := by
  simp only [playing, Option.map_map, Function.comp_def, hf]

theorem setSession_playing {p : Player R κa κv σ} {s : Session R κa κv σ} (hs : p.session = some s)
    (s' : Session R κa κv σ) (hinfo : s'.info = s.info) :
    { p with session := some s' }.playing = p.playing := by
  rw [playing, playing, hs, Option.map_some, Option.map_some, hinfo]

theorem post_works (p : Player R κa κv σ) (task : PlayerTask R κa κv σ) (delay taskId : Nat)
    (other : task.medium? = none) : p.Works (p.post task delay taskId).2 :=
  ⟨rfl, rfl, .post .same delay task (some p.runner) taskId other⟩

theorem posts_works (tasks : List (PlayerTask R κa κv σ)) (p : Player R κa κv σ)
    (other : ∀ task ∈ tasks, task.medium? = none) :
    p.Works (tasks.foldl (fun p task => (p.post task).2) p) ∧
      (tasks.foldl (fun p task => (p.post task).2) p).state = p.state := by
  induction tasks generalizing p with
  | nil => exact ⟨.refl p, rfl⟩
  | cons task tasks ih =>
    have hfirst : p.Works (p.post task).2 := p.post_works task 0 0 (other task (List.mem_cons_self ..))
    have hrest := ih (p.post task).2 fun t ht => other t (List.mem_cons_of_mem _ ht)
    exact ⟨hfirst.trans hrest.1, hrest.2⟩

theorem scheduleBufferingCheck_works (p : Player R κa κv σ) : p.Works p.scheduleBufferingCheck :=
  p.post_works _ _ _ rfl

theorem scheduleStatus_works (p : Player R κa κv σ) :
    p.Works p.scheduleStatus ∧ p.scheduleStatus.state = p.state := by
  unfold scheduleStatus
  split
  next => exact ⟨.refl p, rfl⟩
  next => exact ⟨p.post_works _ _ _ rfl, rfl⟩

theorem enter_eq (p : Player R κa κv σ) (state : PlaybackState) :
    ∃ events, p.enter state = { p with state, events } := by
  unfold enter
  split
  next h => exact ⟨p.events, by rw [← h]⟩
  next => exact ⟨_, rfl⟩

/-! ## Opening and stopping -/

/-- Whether a new medium may be opened in the present state. -/
def Closed (p : Player R κa κv σ) : Prop :=
  p.state = .idle ∨ p.state = .ended ∨ p.state = .error

theorem stop_state (p : Player R κa κv σ) : p.stop.state = .idle ∧ p.stop.session = none := by
  obtain ⟨events, henter⟩ := p.stopSession.enter_eq .idle
  rw [stop, henter]
  exact ⟨rfl, rfl⟩

theorem requestOpen_refused {p : Player R κa κv σ} (media : Media κa κv σ) (h : ¬ p.Closed) :
    ∃ e, p.requestOpen media = (.error e, p) :=
  ⟨_, if_neg h⟩

/-- The other players stop what they had and ask their thread to open the medium; they refuse only if it
does not take the task. -/
theorem requestOpen_closed {p : Player R κa κv σ} (media : Media κa κv σ) (h : p.Closed) :
    (p.requestOpen media).2 = ((p.stopSession.enter .opening).post (.openMedia media)).2 ∧
      (p.requestOpen media).1.toBool = ((p.stopSession.enter .opening).post (.openMedia media)).1 := by
  rw [Closed] at h
  rw [requestOpen, if_pos h]
  split
  next hpost => rw [hpost]; exact ⟨rfl, rfl⟩
  next hpost => rw [hpost]; exact ⟨rfl, rfl⟩

/-- A player that was to open something is opening, also if its thread does not take the task. -/
theorem requestOpen_state {p : Player R κa κv σ} (media : Media κa κv σ) (h : p.Closed) :
    (p.requestOpen media).2.state = .opening ∧ (p.requestOpen media).2.session = none := by
  obtain ⟨events, henter⟩ := p.stopSession.enter_eq .opening
  rw [(requestOpen_closed media h).1, henter]
  exact ⟨rfl, rfl⟩

variable [Scalar R]

@[simp] theorem setState_state (p : Player R κa κv σ) (state : PlaybackState) :
    (p.setState state).state = state := by
  obtain ⟨events, henter⟩ := p.enter_eq state
  simp [setState, applyPlayback, henter]

theorem setState_works (p : Player R κa κv σ) (state : PlaybackState) : p.Works (p.setState state) := by
  obtain ⟨events, henter⟩ := p.enter_eq state
  have heq : p.setState state = { p with state, events }.applyPlayback := by
    rw [setState, henter]
  rw [heq]
  exact ⟨onSession_playing _ _ fun _ => rfl, rfl, .same⟩

@[simp] theorem fail_state (p : Player R κa κv σ) (e : PlayerError) : (p.fail e).state = .error :=
  setState_state ..

theorem fail_works (p : Player R κa κv σ) (e : PlayerError) : p.Works (p.fail e) :=
  have h := setState_works (p.emit (.error e.message)) .error
  ⟨h.playing, h.now, h.loop⟩

/-- A pull with an audio renderer: its reports are posted after the session was put back. -/
theorem pull_eq {p : Player R κa κv σ} {s : Session R κa κv σ} {a : AudioPipeline R κa} (hs : p.session = some s)
    (ha : s.audio = some a) (out : Bytes) :
    (p.pull out).2 = ((a.pull s.clock s.live p.now out).2.1.map (PlayerTask.rendered .audio)).foldl
      (fun p task => (p.post task).2) { p with session := some { s with
        audio := some (a.pull s.clock s.live p.now out).2.2.1
        clock := (a.pull s.clock s.live p.now out).2.2.2 } } := by
  simp only [pull, hs, ha, postRendered, List.foldl_map]

/-- Without an audio renderer a pull does nothing. -/
theorem pull_silent {p : Player R κa κv σ} (h : p.session.bind (·.audio) = none) (out : Bytes) :
    (p.pull out).2 = p := by
  unfold pull
  split
  next => rfl
  next s hs =>
    rw [hs, Option.bind_some] at h
    rw [h]

theorem pull_works (p : Player R κa κv σ) (out : Bytes) :
    p.Works (p.pull out).2 ∧ (p.pull out).2.state = p.state := by
  cases h : p.session.bind (·.audio) with
  | none =>
    rw [pull_silent h]
    exact ⟨.refl p, rfl⟩
  | some a =>
    obtain ⟨s, hs, ha⟩ := Option.bind_eq_some_iff.mp h
    rw [pull_eq hs ha]
    obtain ⟨hworks, hstate⟩ := posts_works ((a.pull s.clock s.live p.now out).2.1.map (.rendered .audio))
      { p with session := some _ } fun task ht => by
        obtain ⟨e, -, rfl⟩ := List.mem_map.mp ht
        rfl
    exact ⟨⟨hworks.playing.trans (setSession_playing hs _ rfl), hworks.now, hworks.loop⟩, hstate⟩

/-! ## The tasks -/

/-- What a task may make of the state of a player. -/
inductive Turn (p : Player R κa κv σ) : PlayerTask R κa κv σ → PlaybackState → Prop where
  | stays (task : PlayerTask R κa κv σ) : Turn p task p.state
  | opens (media : Media κa κv σ) (opening : p.state = .opening) : Turn p (.openMedia media) .buffering
  | refuses (media : Media κa κv σ) (opening : p.state = .opening) : Turn p (.openMedia media) .error
  | seeks (position : R) (alive : p.session.isSome = true) (settled : p.state = .ready ∨ p.state = .ended) :
      Turn p (.seek position) .buffering
  | breaks (text : String) (alive : p.session.isSome = true) : Turn p (.demuxed (.error text)) .error
  | fails (stream : StreamKind) (text : String) (alive : p.session.isSome = true) :
      Turn p (.rendered stream (.error text)) .error
  /-- The report of the end of a stream, which makes the end of all streams complete. -/
  | ends (stream : StreamKind) (serial : Serial) (s : Session R κa κv σ) (alive : p.session = some s)
      (complete : (markEnded s stream serial).allEnded = true) :
      Turn p (.rendered stream (.ended serial)) .ended
  | fills (low : p.state = .buffering) : Turn p .checkBuffering .ready
  | starves (going : p.state = .ready) : Turn p .checkBuffering .buffering

section Opening

variable [Source σ R]

theorem openMedia_other (p : Player R κa κv σ) (media : Media κa κv σ) (h : p.state ≠ .opening) :
    p.openMedia media = p :=
  if_pos h

/-- What a session says about its source is what the source said when it was opened. -/
theorem ofMedia_info {c : Session.Settings R} {media : Media κa κv σ} {s : Session R κa κv σ}
    (h : Session.ofMedia c media = .session s) : s.info = Source.info media.source := by
  unfold Session.ofMedia at h
  dsimp only at h
  split at h
  next => cases h
  next =>
    split at h
    next => cases h; rfl
    next =>
      split at h
      next => cases h
      next => cases h; rfl

/-- What comes of opening: a session of the medium that buffers, or a failure. -/
theorem openMedia_cases (p : Player R κa κv σ) (media : Media κa κv σ) (h : p.state = .opening) :
    Grows p.now p.loop (p.openMedia media).loop ∧ (p.openMedia media).now = p.now ∧
      (((p.openMedia media).state = .buffering ∧
          (p.openMedia media).playing = some (Source.info media.source)) ∨
        ((p.openMedia media).state = .error ∧ (p.openMedia media).playing = p.playing)) := by
  unfold openMedia
  rw [if_neg (not_not_intro h)]
  split
  next e calls _ =>
    have hfail := fail_works { p with audioCalls := calls ++ p.audioCalls } e
    exact ⟨hfail.loop, hfail.now, .inr ⟨fail_state .., hfail.playing⟩⟩
  next s hs =>
    -- from the new session on, everything is work that keeps it
    have hstate := setState_works (({ p with
      mediaInfo := some s.info
      seekTarget := none
      session := some { s with demuxer := s.demuxer.start p.now } } : Player R κa κv σ).emit
        (.prepared s.info.duration)) .buffering
    have hcheck := hstate.trans (scheduleBufferingCheck_works _)
    have hall := hcheck.trans (scheduleStatus_works _).1
    have hplaying := hall.playing.trans (congrArg some (show s.info = _ from ofMedia_info hs))
    exact ⟨hall.loop, hall.now, .inl ⟨(scheduleStatus_works _).2.trans (setState_state ..), hplaying⟩⟩

end Opening

theorem runSeek_works (p : Player R κa κv σ) (position : R) :
    p.Works (p.runSeek position) ∧ Turn p (.seek position) (p.runSeek position).state := by
  unfold runSeek
  cases hs : p.session with
  | none => exact ⟨.refl p, .stays _⟩
  | some s =>
    have halive : p.session.isSome = true := by rw [hs]; rfl
    dsimp only
    split
    next hover =>
      have h := setState_works p .buffering
      refine ⟨⟨?_, h.now, h.loop⟩, by rw [setState_state]; exact .seeks _ halive hover⟩
      rw [← h.playing]
      exact onSession_playing (p.setState .buffering) _ fun _ => rfl
    next => exact ⟨⟨onSession_playing p _ fun _ => rfl, rfl, .same⟩, .stays _⟩

theorem onDemuxed_works (p : Player R κa κv σ) (event : DemuxEvent R) :
    p.Works (p.onDemuxed event) ∧ Turn p (.demuxed event) (p.onDemuxed event).state := by
  unfold onDemuxed
  cases hs : p.session with
  | none => exact ⟨.refl p, .stays _⟩
  | some s =>
    have halive : p.session.isSome = true := by rw [hs]; rfl
    cases event with
    | seekCompleted position =>
      exact ⟨⟨setSession_playing hs (s.flush p.now) rfl, rfl, .same⟩, .stays _⟩
    | endOfFile => exact ⟨.refl p, .stays _⟩
    | error text => exact ⟨fail_works .., by rw [fail_state]; exact .breaks text halive⟩

theorem onRendered_works (p : Player R κa κv σ) (stream : StreamKind) (event : RendererEvent) :
    p.Works (p.onRendered stream event) ∧
      Turn p (.rendered stream event) (p.onRendered stream event).state := by
  unfold onRendered
  cases hs : p.session with
  | none => exact ⟨.refl p, .stays _⟩
  | some s =>
    have halive : p.session.isSome = true := by rw [hs]; rfl
    cases event with
    | ended serial =>
      have hmark : p.Works { p with session := some (markEnded s stream serial) } :=
        ⟨setSession_playing hs _ (by cases stream <;> rfl), rfl, .same⟩
      dsimp only
      split
      next hall =>
        exact ⟨hmark.trans (setState_works ..), by
          rw [setState_state]; exact .ends stream serial s hs hall⟩
      next => exact ⟨hmark, .stays _⟩
    | firstFrame width height => exact ⟨⟨setSession_playing hs s rfl, rfl, .same⟩, .stays _⟩
    | error text =>
      cases stream <;> exact ⟨fail_works .., by rw [fail_state]; exact .fails _ text halive⟩

theorem checkBuffering_works (p : Player R κa κv σ) :
    p.Works p.checkBuffering ∧ Turn p .checkBuffering p.checkBuffering.state := by
  unfold checkBuffering
  split
  next => exact ⟨.refl p, .stays _⟩
  next s hs =>
    split
    next hlow =>
      split
      next => exact ⟨setState_works .., by rw [setState_state]; exact .fills hlow⟩
      next => exact ⟨.refl p, .stays _⟩
    next hgoing =>
      split
      next => exact ⟨setState_works .., by rw [setState_state]; exact .starves hgoing⟩
      next => exact ⟨.refl p, .stays _⟩
    next => exact ⟨.refl p, .stays _⟩

variable [Source σ R]

/-- A task that opens nothing keeps the session. -/
theorem run_works (p : Player R κa κv σ) (task : PlayerTask R κa κv σ) (other : task.medium? = none) :
    p.Works (p.run task) := by
  cases task with
  | openMedia media => cases other
  | applyPlayback => exact ⟨onSession_playing p _ fun _ => rfl, rfl, .same⟩
  | seek position => exact (p.runSeek_works position).1
  | setVolume | setMuted => exact ⟨onSession_playing p _ fun _ => rfl, rfl, .same⟩
  | demuxed event => exact (p.onDemuxed_works event).1
  | rendered stream event => exact (p.onRendered_works stream event).1
  | checkBuffering => exact p.checkBuffering_works.1.trans (scheduleBufferingCheck_works _)
  | reportStatus =>
    have hreport : p.Works p.reportStatus :=
      ⟨onSession_playing p _ fun _ => by split <;> rfl, rfl, .same⟩
    exact hreport.trans (scheduleStatus_works _).1

theorem run_turn (p : Player R κa κv σ) (task : PlayerTask R κa κv σ) : Turn p task (p.run task).state := by
  cases task with
  | openMedia media =>
    show Turn p _ (p.openMedia media).state
    by_cases h : p.state = .opening
    · rcases (p.openMedia_cases media h).2.2 with ⟨hstate, -⟩ | ⟨hstate, -⟩
      · rw [hstate]; exact .opens media h
      · rw [hstate]; exact .refuses media h
    · rw [p.openMedia_other media h]
      exact .stays _
  | applyPlayback | setVolume | setMuted => exact .stays _
  | seek position => exact (p.runSeek_works position).2
  | demuxed event => exact (p.onDemuxed_works event).2
  | rendered stream event => exact (p.onRendered_works stream event).2
  | checkBuffering => exact p.checkBuffering_works.2
  | reportStatus =>
    rw [show (p.run .reportStatus).state = p.state from (scheduleStatus_works _).2]
    exact .stays _

/-! ## Calls and threads -/

variable [Codec κa RawAudioFrame] [Codec κv RawVideoFrame]

def act (p : Player R κa κv σ) : PlayerAct R κa κv σ → Player R κa κv σ
  | .requestOpen media => (p.requestOpen media).2
  | .stop => p.stop
  | .release => p.release
  | .seek position => Player.seek p position
  | .setPlayWhenReady playWhenReady => p.setPlayWhenReady playWhenReady
  | .setVolume volume => Player.setVolume p volume
  | .setMuted muted => Player.setMuted p muted
  | .pull out => (p.pull out).2
  | .advance nanos => p.advance nanos
  | .step thread => p.step thread

def acts (p : Player R κa κv σ) (as : List (PlayerAct R κa κv σ)) : Player R κa κv σ :=
  as.foldl act p

theorem stepSession_info (s : Session R κa κv σ) (now : Nat) (thread : PlayerThread) :
    (stepSession s now thread).2.info = s.info := by
  cases thread with
  | player => rfl
  | demuxer => exact Session.setQueues_info _ _
  | audioDecoder => cases h : s.audio <;> simp [stepSession, h, wakeDemuxer, apply_ite]
  | videoDecoder => cases h : s.video <;> simp [stepSession, h, wakeDemuxer, apply_ite]
  | audioRenderer => cases h : s.audio <;> simp [stepSession, h]
  | videoRenderer => cases h : s.video <;> simp [stepSession, h]

/-- What the threads of a session post are reports. -/
theorem stepSession_reports (s : Session R κa κv σ) (now : Nat) (thread : PlayerThread) :
    ∀ task ∈ (stepSession s now thread).1, task.isReport = true := by
  intro task ht
  cases thread with
  | player => cases ht
  | demuxer =>
    obtain ⟨e, -, rfl⟩ := Option.map_eq_some_iff.mp (Option.mem_toList.mp ht)
    rfl
  | audioDecoder => cases h : s.audio <;> simp [stepSession, h] at ht
  | videoDecoder => cases h : s.video <;> simp [stepSession, h] at ht
  | audioRenderer =>
    cases h : s.audio with
    | none => simp [stepSession, h] at ht
    | some a =>
      simp only [stepSession, h] at ht
      obtain ⟨e, -, rfl⟩ := List.mem_map.mp ht
      rfl
  | videoRenderer =>
    cases h : s.video with
    | none => simp [stepSession, h] at ht
    | some v =>
      simp only [stepSession, h] at ht
      obtain ⟨e, -, rfl⟩ := List.mem_map.mp ht
      rfl

theorem step_eq {p : Player R κa κv σ} {s : Session R κa κv σ} (hs : p.session = some s) {thread : PlayerThread}
    (h : thread ≠ .player) :
    p.step thread = (stepSession s p.now thread).1.foldl (fun p task => (p.post task).2)
      { p with session := some (stepSession s p.now thread).2 } := by
  cases thread <;> first | exact absurd rfl h | simp [step, hs]

theorem step_gone {p : Player R κa κv σ} (hs : p.session = none) {thread : PlayerThread}
    (h : thread ≠ .player) : p.step thread = p := by
  cases thread <;> first | exact absurd rfl h | simp [step, hs]

/-- The other threads work on the session and report. -/
theorem step_works (p : Player R κa κv σ) (thread : PlayerThread) (h : thread ≠ .player) :
    p.Works (p.step thread) ∧ (p.step thread).state = p.state := by
  cases hs : p.session with
  | none =>
    rw [step_gone hs h]
    exact ⟨.refl p, rfl⟩
  | some s =>
    rw [step_eq hs h]
    obtain ⟨hworks, hstate⟩ := posts_works (stepSession s p.now thread).1
      { p with session := some (stepSession s p.now thread).2 }
      fun task ht => PlayerTask.medium?_report (stepSession_reports s p.now thread task ht)
    have hinfo := stepSession_info s p.now thread
    exact ⟨⟨hworks.playing.trans (setSession_playing hs _ hinfo), hworks.now, hworks.loop⟩, hstate⟩

/-- What is neither a request to open, nor a stop, nor a turn of the player's thread. -/
theorem act_works (p : Player R κa κv σ) {a : PlayerAct R κa κv σ} (h : a.isQuiet = true) :
    p.Works (p.act a) ∧ (p.act a).state = p.state := by
  cases a with
  | requestOpen | stop | release | advance => cases h
  | seek position =>
    have hw := post_works { p with seekTarget := some (Scalar.max position 0.0) } (.seek position) 0 0 rfl
    exact ⟨⟨hw.playing, hw.now, hw.loop⟩, rfl⟩
  | setPlayWhenReady playWhenReady =>
    have hw := post_works { p with playWhenReady } .applyPlayback 0 0 rfl
    exact ⟨⟨hw.playing, hw.now, hw.loop⟩, rfl⟩
  | setVolume volume =>
    have hw := post_works { p with volume := Scalar.clamp volume 0.0 1.0 }
      (.setVolume (Scalar.clamp volume 0.0 1.0)) 0 0 rfl
    exact ⟨⟨hw.playing, hw.now, hw.loop⟩, rfl⟩
  | setMuted muted =>
    have hw := post_works { p with muted } (.setMuted muted) 0 0 rfl
    exact ⟨⟨hw.playing, hw.now, hw.loop⟩, rfl⟩
  | pull out => exact p.pull_works out
  | step thread => exact p.step_works thread (by rintro rfl; cases h)

/-- What an act comes to. -/
inductive Does (p : Player R κa κv σ) : PlayerAct R κa κv σ → Player R κa κv σ → Prop where
  | works (a : PlayerAct R κa κv σ) (p' : Player R κa κv σ) (quiet : a.isQuiet = true) (works : p.Works p')
      (state : p'.state = p.state) : Does p a p'
  | refuses (media : Media κa κv σ) (opened : ¬ p.Closed) : Does p (.requestOpen media) p
  | requests (media : Media κa κv σ) (closed : p.Closed) :
      Does p (.requestOpen media) (p.requestOpen media).2
  | stops : Does p .stop p.stop
  | releases : Does p .release p.release
  | waits (nanos : Nat) : Does p (.advance nanos) (p.advance nanos)
  | runs (task : PlayerTask R κa κv σ) (loop : Loop (PlayerTask R κa κv σ))
      (next : p.loop.next? p.now = some (task, loop)) : Does p (.step .player) ({ p with loop }.run task)
  /-- There is nothing to do; the thread may notice that it shall end. -/
  | rests (loop : Loop (PlayerTask R κa κv σ)) (idle : p.loop.next? p.now = none)
      (queue : loop.queue = p.loop.queue) : Does p (.step .player) { p with loop }

theorem act_does (p : Player R κa κv σ) (a : PlayerAct R κa κv σ) : p.Does a (p.act a) := by
  -- what is left after the quiet acts has a case of its own
  by_cases hquiet : a.isQuiet = true
  · exact .works a _ hquiet (p.act_works hquiet).1 (p.act_works hquiet).2
  cases a with
  | requestOpen media =>
    by_cases hclosed : p.Closed
    · exact .requests media hclosed
    · obtain ⟨e, hrefused⟩ := requestOpen_refused media hclosed
      show p.Does _ (p.requestOpen media).2
      rw [hrefused]
      exact .refuses media hclosed
  | stop => exact .stops
  | release => exact .releases
  | advance nanos => exact .waits nanos
  | step thread =>
    cases thread with
    | player =>
      show p.Does _ (p.step .player)
      unfold step
      cases hn : p.loop.next? p.now with
      | some next => exact .runs next.1 next.2 hn
      | none =>
        dsimp only
        split
        next => exact .rests p.loop.finish hn rfl
        next => exact .rests p.loop hn rfl
    | demuxer | audioDecoder | audioRenderer | videoDecoder | videoRenderer => exact absurd rfl hquiet
  | seek | setPlayWhenReady | setVolume | setMuted | pull => exact absurd rfl hquiet

end Player
end Playback
