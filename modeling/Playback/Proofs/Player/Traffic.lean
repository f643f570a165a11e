import Playback.Proofs.Demux.Reading
import Playback.Proofs.Player.Output

/-!
# What travels between the threads of a player

Calls and reports become tasks of the player's thread, and seeks become tasks of the demuxer's. `Leaves` says once what
an act makes of the loop, the session and the target of seeks. From it follows where a task in the player's loop comes
from (`Origin`): it waited before, or a call asked for it, or a thread reports, or it is one of those that come again
after a while; and what may become of the demuxer of the session (`Drives`).

Together they carry a property of one task or of one demuxer along a run. The first use is that a demuxer in a session
reads on, as it does by itself, and that what waits for the player's thread may be taken at once, but for the periodic
tasks (`acts_running`).
-/

namespace Playback

variable {R κa κv σ : Type}

@[simp] theorem Session.setQueues_demuxer (s : Session R κa κv σ) (queues : List StreamQueue) :
    (s.setQueues queues).demuxer = s.demuxer := by
  unfold setQueues
  split <;> rfl

/-- The task that a call asks for. -/
def PlayerAct.call? [Scalar R] : PlayerAct R κa κv σ → Option (PlayerTask R κa κv σ)
  | .requestOpen media => some (.openMedia media)
  | .seek position => some (.seek position)
  | .setPlayWhenReady _ => some .applyPlayback
  | .setVolume volume => some (.setVolume (Scalar.clamp volume 0.0 1.0))
  | .setMuted muted => some (.setMuted muted)
  | _ => none

namespace Demuxer

/-- A demuxer that reads on: it was started and not stopped. -/
structure Running (now : Nat) (d : Demuxer R σ) : Prop where
  steady : ∃ config, d.Steady config now
  going : d.Going
  stopped : d.stopped = false

variable {d d' : Demuxer R σ} {now : Nat}

theorem start_running (source : σ) (config : BufferConfig R) (now : Nat) :
    ((new source config).start now).Running now :=
  have h := new_steady source config now
  ⟨⟨config, (h.postRead (Nat.zero_le _)).1⟩, h.going_postRead (Nat.zero_le _), rfl⟩

theorem Running.later (h : d.Running now) {later : Nat} (hle : now ≤ later) : d.Running later :=
  ⟨h.steady.imp fun _ steady => steady.later hle, h.going, h.stopped⟩

theorem Running.notify (h : d.Running now) : (d.notify now).Running now := by
  obtain ⟨config, hsteady⟩ := h.steady
  obtain ⟨hsteady', hgoing⟩ := hsteady.notify
  refine ⟨⟨config, hsteady'⟩, hgoing h.going, ?_⟩
  unfold Demuxer.notify
  split <;> exact h.stopped

theorem Running.requestSeek (h : d.Running now) (position : R) : (d.requestSeek now position).Running now := by
  obtain ⟨config, hsteady⟩ := h.steady
  obtain ⟨hsteady', hgoing⟩ := hsteady.requestSeek position
  exact ⟨⟨config, hsteady'⟩, hgoing h.going, h.stopped⟩

theorem Running.turned (h : d.Running now) (turned : Turned now d d') : d'.Running now := by
  obtain ⟨config, hsteady⟩ := h.steady
  obtain ⟨hsteady', hgoing⟩ := turned.keeps hsteady
  exact ⟨⟨config, hsteady'⟩, hgoing h.going, by cases turned <;> exact h.stopped⟩

end Demuxer

namespace Player

/-! ## Where tasks come from -/

/-- The demuxer of the session. -/
def demuxer? (p : Player R κa κv σ) : Option (Demuxer R σ) :=
  p.session.map (·.demuxer)

@[simp] theorem enter_loop (p : Player R κa κv σ) (state : PlaybackState) : (p.enter state).loop = p.loop := by
  obtain ⟨events, henter⟩ := p.enter_eq state
  rw [henter]

@[simp] theorem enter_session (p : Player R κa κv σ) (state : PlaybackState) :
    (p.enter state).session = p.session := by
  obtain ⟨events, henter⟩ := p.enter_eq state
  rw [henter]

@[simp] theorem enter_now (p : Player R κa κv σ) (state : PlaybackState) : (p.enter state).now = p.now := by
  obtain ⟨events, henter⟩ := p.enter_eq state
  rw [henter]

@[simp] theorem enter_seekTarget (p : Player R κa κv σ) (state : PlaybackState) :
    (p.enter state).seekTarget = p.seekTarget := by
  obtain ⟨events, henter⟩ := p.enter_eq state
  rw [henter]

theorem scheduleBufferingCheck_messages {p : Player R κa κv σ} {m : Message (PlayerTask R κa κv σ)}
    (hm : m ∈ p.scheduleBufferingCheck.loop.queue.messages) :
    m ∈ p.loop.queue.messages ∨ m.task.isPeriodic = true :=
  (Loop.mem_post hm).imp_right fun ⟨htask, _⟩ => by rw [htask]; rfl

theorem scheduleStatus_messages {p : Player R κa κv σ} {m : Message (PlayerTask R κa κv σ)}
    (hm : m ∈ p.scheduleStatus.loop.queue.messages) : m ∈ p.loop.queue.messages ∨ m.task.isPeriodic = true := by
  unfold scheduleStatus at hm
  split at hm
  next => exact .inl hm
  next => exact (Loop.mem_post hm).imp_right fun ⟨htask, _⟩ => by rw [htask]; rfl

theorem scheduleStatus_eq (p : Player R κa κv σ) : ∃ loop, p.scheduleStatus = { p with loop } := by
  unfold scheduleStatus
  split
  next => exact ⟨p.loop, rfl⟩
  next => exact ⟨_, rfl⟩

@[simp] theorem scheduleStatus_demuxer? (p : Player R κa κv σ) : p.scheduleStatus.demuxer? = p.demuxer? := by
  obtain ⟨loop, hschedule⟩ := p.scheduleStatus_eq
  rw [hschedule]
  rfl

variable [Scalar R]

/-- The check of the buffers is a change of the state, if anything. -/
theorem checkBuffering_eq (p : Player R κa κv σ) :
    p.checkBuffering = p ∨ ∃ state, p.checkBuffering = p.setState state := by
  unfold checkBuffering
  repeat' split
  all_goals first | exact .inl rfl | exact .inr ⟨_, rfl⟩

@[simp] theorem setState_loop (p : Player R κa κv σ) (state : PlaybackState) : (p.setState state).loop = p.loop :=
  p.enter_loop state

@[simp] theorem setState_now (p : Player R κa κv σ) (state : PlaybackState) : (p.setState state).now = p.now :=
  p.enter_now state

@[simp] theorem setState_demuxer? (p : Player R κa κv σ) (state : PlaybackState) :
    (p.setState state).demuxer? = p.demuxer? := by
  simp [demuxer?, setState, applyPlayback, Session.setPaused, Function.comp_def]

@[simp] theorem fail_loop (p : Player R κa κv σ) (e : PlayerError) : (p.fail e).loop = p.loop :=
  setState_loop ..

@[simp] theorem fail_demuxer? (p : Player R κa κv σ) (e : PlayerError) : (p.fail e).demuxer? = p.demuxer? :=
  setState_demuxer? ..

/-- What a task makes of the loop and of the demuxer: nothing new waits but what comes again. -/
structure Ran [Source σ R] (p : Player R κa κv σ) (task : PlayerTask R κa κv σ) (p' : Player R κa κv σ) : Prop where
  loop : ∀ m ∈ p'.loop.queue.messages, m ∈ p.loop.queue.messages ∨ m.task.isPeriodic = true
  demuxer : p'.demuxer? = p.demuxer? ∨
    (∃ position, task = .seek position ∧ p'.demuxer? = p.demuxer?.map (·.requestSeek p.now position)) ∨
    ∃ media, task = .openMedia media ∧
      p'.demuxer? = some ((Demuxer.new media.source p.config.buffer).start p.now)

omit [Scalar R] in
theorem Ran.keeps [Source σ R] {p p' : Player R κa κv σ} {task : PlayerTask R κa κv σ} (loop : p'.loop = p.loop)
    (demuxer : p'.demuxer? = p.demuxer?) : p.Ran task p' :=
  ⟨fun _ hm => .inl (loop ▸ hm), .inl demuxer⟩

theorem runSeek_ran [Source σ R] (p : Player R κa κv σ) (position : R) :
    p.Ran (.seek position) (p.runSeek position) := by
  unfold runSeek
  cases hs : p.session with
  | none => exact .keeps rfl rfl
  | some s =>
    dsimp only
    split
    next =>
      refine ⟨fun m hm => .inl (p.setState_loop .buffering ▸ hm), .inr (.inl ⟨position, rfl, ?_⟩)⟩
      rw [← setState_demuxer? p .buffering]
      simp [demuxer?, Function.comp_def]
    next => exact ⟨fun m hm => .inl hm, .inr (.inl ⟨position, rfl, by simp [demuxer?, Function.comp_def]⟩)⟩

theorem ofMedia_demuxer [Source σ R] {c : Session.Settings R} {media : Media κa κv σ} {s : Session R κa κv σ}
    (h : Session.ofMedia c media = .session s) : s.demuxer = .new media.source c.config.buffer := by
  unfold Session.ofMedia at h
  dsimp only at h
  split at h
  next => cases h
  next =>
    split at h
    next => cases h; rfl
    next =>
      split at h
      next => cases h
      next => cases h; rfl

theorem openMedia_ran [Source σ R] (p : Player R κa κv σ) (media : Media κa κv σ) :
    p.Ran (.openMedia media) (p.openMedia media) := by
  unfold openMedia
  split
  next => exact .keeps rfl rfl
  next =>
    split
    next => exact .keeps (fail_loop ..) (fail_demuxer? ..)
    next s hs =>
      refine ⟨fun m hm => ?_, .inr (.inr ⟨media, rfl, ?_⟩)⟩
      · rcases scheduleStatus_messages hm with hm | hm
        · rcases scheduleBufferingCheck_messages hm with hm | hm
          · rw [setState_loop] at hm
            exact .inl hm
          · exact .inr hm
        · exact .inr hm
      · rw [scheduleStatus_demuxer?]
        show (Player.setState _ _).demuxer? = _
        rw [setState_demuxer?, ← ofMedia_demuxer hs]
        rfl

theorem onDemuxed_ran [Source σ R] (p : Player R κa κv σ) (event : DemuxEvent R) :
    p.Ran (.demuxed event) (p.onDemuxed event) := by
  unfold onDemuxed
  split
  next => exact .keeps rfl rfl
  next s hs =>
    split
    next => exact .keeps rfl (by simp [demuxer?, hs, emit, Session.flush])
    next => exact .keeps rfl rfl
    next => exact .keeps (fail_loop ..) (fail_demuxer? ..)

theorem onRendered_ran [Source σ R] (p : Player R κa κv σ) (stream : StreamKind) (event : RendererEvent) :
    p.Ran (.rendered stream event) (p.onRendered stream event) := by
  unfold onRendered
  split
  next => exact .keeps rfl rfl
  next s hs =>
    split
    next serial =>
      have hmark : (markEnded s stream serial).demuxer = s.demuxer := by cases stream <;> rfl
      dsimp only
      split
      next =>
        refine .keeps (setState_loop ..) ?_
        rw [setState_demuxer?]
        simp [demuxer?, hs, hmark]
      next => exact .keeps rfl (by simp [demuxer?, hs, hmark])
    next => exact .keeps rfl rfl
    next => split <;> exact .keeps (fail_loop ..) (fail_demuxer? ..)

theorem run_ran [Source σ R] (p : Player R κa κv σ) (task : PlayerTask R κa κv σ) : p.Ran task (p.run task) := by
  cases task with
  | openMedia media => exact p.openMedia_ran media
  | applyPlayback | setVolume | setMuted =>
    exact .keeps rfl (by simp [run, demuxer?, applyPlayback, onAudioRenderer, Session.setPaused, Function.comp_def])
  | seek position => exact p.runSeek_ran position
  | demuxed event => exact p.onDemuxed_ran event
  | rendered stream event => exact p.onRendered_ran stream event
  | checkBuffering =>
    have hsame : p.checkBuffering.loop = p.loop ∧ p.checkBuffering.demuxer? = p.demuxer? := by
      rcases p.checkBuffering_eq with heq | ⟨state, heq⟩
      · rw [heq]
        exact ⟨rfl, rfl⟩
      · rw [heq]
        exact ⟨setState_loop .., setState_demuxer? ..⟩
    exact ⟨fun m hm => hsame.1 ▸ scheduleBufferingCheck_messages hm, .inl hsame.2⟩
  | reportStatus =>
    refine ⟨fun m hm => scheduleStatus_messages (p := p.reportStatus) hm, .inl ?_⟩
    show p.reportStatus.scheduleStatus.demuxer? = _
    rw [scheduleStatus_demuxer?]
    simp [demuxer?, reportStatus, Function.comp_def, apply_ite]

/-! ## What an act brings into the loop -/

omit [Scalar R] in
theorem mem_posts {tasks : List (PlayerTask R κa κv σ)} {p : Player R κa κv σ}
    {m : Message (PlayerTask R κa κv σ)}
    (hm : m ∈ (tasks.foldl (fun p task => (p.post task).2) p).loop.queue.messages) :
    m ∈ p.loop.queue.messages ∨ (m.task ∈ tasks ∧ m.due = p.now) := by
  induction tasks generalizing p with
  | nil => exact .inl hm
  | cons task tasks ih =>
    rcases ih hm with hm | ⟨htask, hdue⟩
    · rcases Loop.mem_post hm with hm | ⟨htask, hdue⟩
      · exact .inl hm
      · exact .inr ⟨htask ▸ List.mem_cons_self .., hdue⟩
    · exact .inr ⟨List.mem_cons_of_mem _ htask, hdue⟩

omit [Scalar R] in
theorem posts_eq (tasks : List (PlayerTask R κa κv σ)) (p : Player R κa κv σ) :
    ∃ loop, tasks.foldl (fun p task => (p.post task).2) p = { p with loop } := by
  induction tasks generalizing p with
  | nil => exact ⟨p.loop, rfl⟩
  | cons task tasks ih => exact ih (p.post task).2

omit [Scalar R] in
theorem posts_session (tasks : List (PlayerTask R κa κv σ)) (p : Player R κa κv σ) :
    (tasks.foldl (fun p task => (p.post task).2) p).session = p.session := by
  obtain ⟨loop, hposts⟩ := posts_eq tasks p
  rw [hposts]

omit [Scalar R] in
theorem posts_demuxer? (tasks : List (PlayerTask R κa κv σ)) (p : Player R κa κv σ) :
    (tasks.foldl (fun p task => (p.post task).2) p).demuxer? = p.demuxer? :=
  congrArg (Option.map _) (posts_session tasks p)

omit [Scalar R] in
theorem mem_stopSession {p : Player R κa κv σ} {m : Message (PlayerTask R κa κv σ)}
    (hm : m ∈ p.stopSession.loop.queue.messages) : m ∈ p.loop.queue.messages :=
  Loop.mem_remove (Loop.mem_remove hm)

variable [Codec κa RawAudioFrame] [Codec κv RawVideoFrame] [Source σ R]

/-- What an act comes to, as far as the loop, the session and the target of seeks are concerned. -/
inductive Leaves (p : Player R κa κv σ) : PlayerAct R κa κv σ → Player R κa κv σ → Prop where
  /-- None of them changes. -/
  | same (a : PlayerAct R κa κv σ) (p' : Player R κa κv σ) (queue : p'.loop.queue = p.loop.queue)
      (session : p'.session = p.session) (target : p'.seekTarget = p.seekTarget) : Leaves p a p'
  /-- The session is given up. -/
  | closes (a : PlayerAct R κa κv σ) (p' : Player R κa κv σ) (waits : p'.loop.queue.messages ⊆ p.loop.queue.messages)
      (session : p'.session = none) (target : p'.seekTarget = none) : Leaves p a p'
  | opens (media : Media κa κv σ) (q : Player R κa κv σ) (now : q.now = p.now)
      (waits : q.loop.queue.messages ⊆ p.loop.queue.messages) (session : q.session = none) (target : q.seekTarget = none) :
      Leaves p (.requestOpen media) (q.post (.openMedia media)).2
  /-- Another call asks for a task; a seek notes its target before. -/
  | asks (a : PlayerAct R κa κv σ) (task : PlayerTask R κa κv σ) (q : Player R κa κv σ) (asked : a.call? = some task)
      (now : q.now = p.now) (loop : q.loop = p.loop) (session : q.session = p.session)
      (target : q.seekTarget = p.seekTarget ∨
        ∃ position, a = .seek position ∧ q.seekTarget = some (Scalar.max position 0.0)) :
      Leaves p a (q.post task).2
  | runs (task : PlayerTask R κa κv σ) (loop : Loop (PlayerTask R κa κv σ))
      (next : p.loop.next? p.now = some (task, loop)) : Leaves p (.step .player) ({ p with loop }.run task)
  | pulls (out : Bytes) (s : Session R κa κv σ) (audio : AudioPipeline R κa) (alive : p.session = some s)
      (output : s.audio = some audio) :
      Leaves p (.pull out) (((audio.pull s.clock s.live p.now out).2.1.map (PlayerTask.rendered .audio)).foldl
        (fun p task => (p.post task).2) { p with session := some { s with
          audio := some (audio.pull s.clock s.live p.now out).2.2.1
          clock := (audio.pull s.clock s.live p.now out).2.2.2 } })
  | works (thread : PlayerThread) (s : Session R κa κv σ) (alive : p.session = some s) :
      Leaves p (.step thread) ((stepSession s p.now thread).1.foldl
        (fun p task => (p.post task).2) { p with session := some (stepSession s p.now thread).2 })

theorem act_leaves (p : Player R κa κv σ) (a : PlayerAct R κa κv σ) : p.Leaves a (p.act a) := by
  have hclosed : p.stopSession.loop.queue.messages ⊆ p.loop.queue.messages := fun m hm => mem_stopSession hm
  cases a with
  | requestOpen media =>
    show p.Leaves _ (p.requestOpen media).2
    by_cases h : p.Closed
    · rw [(requestOpen_closed media h).1]
      exact .opens media _ (enter_now ..) (by rwa [enter_loop]) (enter_session ..) (enter_seekTarget ..)
    · obtain ⟨e, hrefused⟩ := requestOpen_refused media h
      rw [hrefused]
      exact .same _ p rfl rfl rfl
  | stop => exact .closes _ _ (by rwa [act, stop, enter_loop]) (enter_session ..) (enter_seekTarget ..)
  | release =>
    refine .closes _ _ (fun m hm => hclosed ?_) (enter_session ..) (enter_seekTarget ..)
    rw [← enter_loop p.stopSession .idle]
    exact Loop.mem_quit hm
  | seek position => exact .asks _ _ { p with seekTarget := _ } rfl rfl rfl rfl (.inr ⟨position, rfl, rfl⟩)
  | setPlayWhenReady playWhenReady => exact .asks _ _ { p with playWhenReady } rfl rfl rfl rfl (.inl rfl)
  | setVolume volume => exact .asks _ _ { p with volume := _ } rfl rfl rfl rfl (.inl rfl)
  | setMuted muted => exact .asks _ _ { p with muted } rfl rfl rfl rfl (.inl rfl)
  | pull out =>
    show p.Leaves _ (p.pull out).2
    cases ha : p.session.bind (·.audio) with
    | none =>
      rw [pull_silent ha]
      exact .same _ p rfl rfl rfl
    | some audio =>
      obtain ⟨s, hs, hsa⟩ := Option.bind_eq_some_iff.mp ha
      rw [pull_eq hs hsa]
      exact .pulls out s audio hs hsa
  | advance nanos => exact .same _ _ rfl rfl rfl
  | step thread =>
    show p.Leaves _ (p.step thread)
    -- the player's own thread carries out tasks, and the others work on the session and report
    by_cases hthread : thread = .player
    · subst hthread
      unfold step
      dsimp only
      split
      next task loop hnext => exact .runs task loop hnext
      next => split <;> exact .same _ _ rfl rfl rfl
    · cases hs : p.session with
      | none =>
        rw [step_gone hs hthread]
        exact .same _ p rfl rfl rfl
      | some s =>
        rw [step_eq hs hthread]
        exact .works thread s hs

/-- What the threads of the session report in an act. -/
def reports (p : Player R κa κv σ) : PlayerAct R κa κv σ → List (PlayerTask R κa κv σ)
  | .pull out => (p.session.bind fun s => s.audio.map fun a =>
      (a.pull s.clock s.live p.now out).2.1.map (PlayerTask.rendered .audio)).getD []
  | .step thread => (p.session.map fun s => (stepSession s p.now thread).1).getD []
  | _ => []

/-- Reports are made in a pull, by the audio renderer, or by the threads of the session. -/
theorem mem_reports {p : Player R κa κv σ} {a : PlayerAct R κa κv σ} {task : PlayerTask R κa κv σ}
    (h : task ∈ p.reports a) : ∃ s, p.session = some s ∧
      ((∃ audio ∈ s.audio, ∃ out, ∃ e ∈ (audio.pull s.clock s.live p.now out).2.1, task = .rendered .audio e) ∨
        ∃ thread, task ∈ (stepSession s p.now thread).1) := by
  cases hs : p.session with
  | none => cases a <;> simp [reports, hs] at h
  | some s =>
    refine ⟨s, rfl, ?_⟩
    cases a with
    | pull out =>
      cases ha : s.audio with
      | none => simp [reports, hs, ha] at h
      | some audio =>
        simp only [reports, hs, ha, Option.bind_some, Option.map_some, Option.getD_some] at h
        obtain ⟨e, he, rfl⟩ := List.mem_map.mp h
        exact .inl ⟨audio, rfl, out, e, he, rfl⟩
    | step thread =>
      simp only [reports, hs, Option.map_some, Option.getD_some] at h
      exact .inr ⟨thread, h⟩
    | _ => simp [reports] at h

/-- Where a message comes from that waits in the loop after an act. -/
inductive Origin (p : Player R κa κv σ) (a : PlayerAct R κa κv σ) (m : Message (PlayerTask R κa κv σ)) : Prop where
  | before (waits : m ∈ p.loop.queue.messages)
  | call (asked : a.call? = some m.task) (due : m.due = p.now)
  | report (given : m.task ∈ p.reports a) (due : m.due = p.now)
  | again (periodic : m.task.isPeriodic = true)

theorem act_origin (p : Player R κa κv σ) (a : PlayerAct R κa κv σ) :
    ∀ m ∈ (p.act a).loop.queue.messages, p.Origin a m := by
  intro m hm
  have hleaves := p.act_leaves a
  generalize p.act a = p' at hleaves hm
  cases hleaves with
  | same _ _ queue => exact .before (queue ▸ hm)
  | closes _ _ waits => exact .before (waits hm)
  | opens media q now waits =>
    rcases Loop.mem_post hm with hm | ⟨htask, hdue⟩
    · exact .before (waits hm)
    · exact .call (congrArg some htask.symm) (hdue.trans now)
  | asks _ task q asked now loop =>
    rcases Loop.mem_post hm with hm | ⟨rfl, hdue⟩
    · exact .before (loop ▸ hm)
    · exact .call asked (hdue.trans now)
  | runs task loop next =>
    rcases (run_ran { p with loop } task).loop m hm with hm | hperiodic
    · exact .before ((Loop.mem_next? next).2 hm)
    · exact .again hperiodic
  | pulls out s audio alive output =>
    rcases mem_posts hm with hm | ⟨htask, hdue⟩
    · exact .before hm
    · exact .report (by simpa [reports, alive, output] using htask) hdue
  | works thread s alive =>
    rcases mem_posts hm with hm | ⟨htask, hdue⟩
    · exact .before hm
    · exact .report (by simpa [reports, alive] using htask) hdue

/-! ## What an act does to the demuxer -/

/-- What becomes of the demuxer in an act. -/
inductive Drives (p : Player R κa κv σ) (a : PlayerAct R κa κv σ) : Option (Demuxer R σ) → Prop where
  | keeps : Drives p a p.demuxer?
  | ends : Drives p a none
  | opens (media : Media κa κv σ) (waits : ∃ m ∈ p.loop.queue.messages, m.task = .openMedia media)
      (turn : a = .step .player) : Drives p a (some ((Demuxer.new media.source p.config.buffer).start p.now))
  | seeks (position : R) (waits : ∃ m ∈ p.loop.queue.messages, m.task = .seek position) (turn : a = .step .player) :
      Drives p a (p.demuxer?.map (·.requestSeek p.now position))
  /-- A decoder found its queue empty. -/
  | wakes : Drives p a (p.demuxer?.map (·.notify p.now))
  | steps (s : Session R κa κv σ) (alive : p.session = some s) (turn : a = .step .demuxer) :
      Drives p a (some (s.demuxer.step s.queues s.clock p.now).demuxer)

omit [Codec κa RawAudioFrame] [Codec κv RawVideoFrame] in
theorem Drives.same {p : Player R κa κv σ} {a : PlayerAct R κa κv σ} {d : Option (Demuxer R σ)} (h : d = p.demuxer?) :
    p.Drives a d :=
  h ▸ .keeps

omit [Scalar R] [Codec κa RawAudioFrame] [Codec κv RawVideoFrame] [Source σ R] in
theorem wakeDemuxer_demuxer (s : Session R κa κv σ) (starving : Bool) (now : Nat) :
    (wakeDemuxer s starving now).demuxer = s.demuxer ∨ (wakeDemuxer s starving now).demuxer = s.demuxer.notify now := by
  unfold wakeDemuxer
  cases starving with
  | true => exact .inr rfl
  | false => exact .inl rfl

/-- The thread of the demuxer steps; a decoder may wake it, and the others leave it alone. -/
theorem stepSession_demuxer (s : Session R κa κv σ) (now : Nat) (thread : PlayerThread) :
    (stepSession s now thread).2.demuxer = s.demuxer ∨ (stepSession s now thread).2.demuxer = s.demuxer.notify now ∨
      (thread = .demuxer ∧ (stepSession s now thread).2.demuxer = (s.demuxer.step s.queues s.clock now).demuxer) := by
  cases thread with
  | player => exact .inl rfl
  | demuxer => exact .inr (.inr ⟨rfl, Session.setQueues_demuxer ..⟩)
  | audioDecoder =>
    cases ha : s.audio with
    | none => exact .inl (by simp [stepSession, ha])
    | some a =>
      simp only [stepSession, ha]
      exact (wakeDemuxer_demuxer _ _ now).imp_right .inl
  | videoDecoder =>
    cases hv : s.video with
    | none => exact .inl (by simp [stepSession, hv])
    | some v =>
      simp only [stepSession, hv]
      exact (wakeDemuxer_demuxer _ _ now).imp_right .inl
  | audioRenderer =>
    left
    cases ha : s.audio <;> simp [stepSession, ha]
  | videoRenderer =>
    left
    cases hv : s.video <;> simp [stepSession, hv]

theorem act_drives (p : Player R κa κv σ) (a : PlayerAct R κa κv σ) : p.Drives a (p.act a).demuxer? := by
  have hleaves := p.act_leaves a
  generalize p.act a = p' at hleaves ⊢
  cases hleaves with
  | same _ _ _ session => exact .same (congrArg (Option.map _) session)
  | closes _ _ _ session =>
    rw [demuxer?, session]
    exact .ends
  | opens media q _ _ session =>
    show p.Drives _ (q.session.map _)
    rw [session]
    exact .ends
  | asks _ _ q _ _ _ session => exact .same (congrArg (Option.map _) session)
  | runs task loop next =>
    rcases (run_ran { p with loop } task).demuxer with heq | ⟨position, rfl, heq⟩ | ⟨media, rfl, heq⟩
    · exact .same heq
    · rw [heq]
      exact .seeks position (Loop.mem_next? next).1 rfl
    · rw [heq]
      exact .opens media (Loop.mem_next? next).1 rfl
  | pulls out s audio alive =>
    rw [posts_demuxer?]
    exact .same (by simp [demuxer?, alive])
  | works thread s alive =>
    have hbefore : p.demuxer? = some s.demuxer := by simp [demuxer?, alive]
    rw [posts_demuxer?]
    show p.Drives _ (some (stepSession s p.now thread).2.demuxer)
    rcases stepSession_demuxer s p.now thread with heq | heq | ⟨rfl, heq⟩
    · exact .same (by rw [heq, hbefore])
    · have hwakes := Drives.wakes (p := p) (a := .step thread)
      rw [hbefore] at hwakes
      rw [heq]
      exact hwakes
    · rw [heq]
      exact .steps s alive rfl

/-- The source of a demuxer was there before, or belongs to the medium that is opened, or was just read or sought. -/
theorem act_source (p : Player R κa κv σ) (a : PlayerAct R κa κv σ) : ∀ d ∈ (p.act a).demuxer?,
    (∃ before ∈ p.demuxer?, d.source = before.source) ∨
    (∃ m ∈ p.loop.queue.messages, ∃ media, m.task = .openMedia media ∧ d.source = media.source) ∨
    ∃ s, p.session = some s ∧ d.source = (s.demuxer.step s.queues s.clock p.now).demuxer.source := by
  have hdrives := p.act_drives a
  generalize (p.act a).demuxer? = after at hdrives
  intro d hd
  cases hdrives with
  | keeps => exact .inl ⟨d, hd, rfl⟩
  | ends => cases hd
  | opens media waits =>
    cases hd
    obtain ⟨m, hm, htask⟩ := waits
    exact .inr (.inl ⟨m, hm, media, htask, rfl⟩)
  | seeks position =>
    obtain ⟨before, hbefore, rfl⟩ := Option.map_eq_some_iff.mp hd
    exact .inl ⟨before, hbefore, rfl⟩
  | wakes =>
    obtain ⟨before, hbefore, rfl⟩ := Option.map_eq_some_iff.mp hd
    obtain ⟨loop, hnotify⟩ := before.notify_eq p.now
    exact .inl ⟨before, hbefore, by rw [hnotify]⟩
  | steps s alive =>
    cases hd
    exact .inr (.inr ⟨s, alive, rfl⟩)

/-! ## What waits, and what reads on -/

omit [Codec κa RawAudioFrame] [Codec κv RawVideoFrame] in
theorem run_now (p : Player R κa κv σ) (task : PlayerTask R κa κv σ) : (p.run task).now = p.now := by
  cases hmedium : task.medium? with
  | none => exact (p.run_works task hmedium).now
  | some medium =>
    cases task with
    | openMedia media =>
      show (p.openMedia media).now = p.now
      by_cases hopening : p.state = .opening
      · exact (p.openMedia_cases media hopening).2.1
      · rw [p.openMedia_other media hopening]
    | _ => cases hmedium

theorem act_now (p : Player R κa κv σ) (a : PlayerAct R κa κv σ) : p.now ≤ (p.act a).now := by
  have hdoes := p.act_does a
  generalize p.act a = p' at hdoes ⊢
  cases hdoes with
  | works _ _ _ works => exact Nat.le_of_eq works.now.symm
  | refuses => exact Nat.le_refl _
  | requests media closed =>
    rw [(requestOpen_closed media closed).1]
    exact Nat.le_of_eq (enter_now p.stopSession .opening).symm
  | stops | releases => exact Nat.le_of_eq (enter_now p.stopSession .idle).symm
  | waits nanos => exact Nat.le_add_right ..
  | runs task loop => exact Nat.le_of_eq (run_now { p with loop } task).symm
  | rests => exact Nat.le_refl _

/-- Whatever waits may be taken at once, but for the tasks that come again. -/
def Punctual (p : Player R κa κv σ) : Prop :=
  ∀ m ∈ p.loop.queue.messages, m.task.isPeriodic = true ∨ m.due ≤ p.now

theorem act_punctual {p : Player R κa κv σ} (h : p.Punctual) (a : PlayerAct R κa κv σ) : (p.act a).Punctual := by
  intro m hm
  have hnow := p.act_now a
  cases p.act_origin a m hm with
  | before waits => exact (h m waits).imp_right fun hdue => Nat.le_trans hdue hnow
  | call _ due | report _ due => exact .inr (due ▸ hnow)
  | again periodic => exact .inl periodic

theorem act_running {p : Player R κa κv σ} (h : ∀ d ∈ p.demuxer?, d.Running p.now) (a : PlayerAct R κa κv σ) :
    ∀ d ∈ (p.act a).demuxer?, d.Running (p.act a).now := by
  have hdrives := p.act_drives a
  intro d hd
  suffices hrunning : d.Running p.now from hrunning.later (p.act_now a)
  generalize (p.act a).demuxer? = after at hdrives hd
  cases hdrives with
  | keeps => exact h d hd
  | ends => cases hd
  | opens media => cases hd; exact Demuxer.start_running ..
  | seeks position =>
    obtain ⟨before, hbefore, rfl⟩ := Option.map_eq_some_iff.mp hd
    exact (h before hbefore).requestSeek position
  | wakes =>
    obtain ⟨before, hbefore, rfl⟩ := Option.map_eq_some_iff.mp hd
    exact (h before hbefore).notify
  | steps s alive =>
    cases hd
    exact (h s.demuxer (by simp [demuxer?, alive])).turned (s.demuxer.step_turned s.queues s.clock p.now)

/-- In every run, what waits may be taken at once but for the tasks that come again, and the demuxer reads on. -/
theorem acts_running (config : PlayerConfig R) (device : AudioDevice) (filter : RateFilter R)
    (as : List (PlayerAct R κa κv σ)) :
    let p : Player R κa κv σ := (make config device filter).acts as
    p.Punctual ∧ ∀ d ∈ p.demuxer?, d.Running p.now := by
  have hmake : (make config device filter : Player R κa κv σ).Punctual := nofun
  exact List.foldlRecOn as act (motive := fun p => p.Punctual ∧ ∀ d ∈ p.demuxer?, d.Running p.now)
    ⟨hmake, nofun⟩ fun _ h a _ => ⟨act_punctual h.1 a, act_running h.2 a⟩

end Player
end Playback
