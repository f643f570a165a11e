import Mathlib.Data.List.Induction
import Playback.Proofs.Player.Coherence
import Playback.Proofs.Player.Released

/-!
# The output of a player

Every act moves the output of a player by one of the rules of `OutputMove` (`Orderly.act`), so in every run
(`output_follows`):

> when the player's thread has nothing to do but its periodic checks, clocks and renderers run exactly if the
> player is ready and playing is wished for, with the volume and the mute flag of the player.

The tasks that carry changes out are taken in the order in which they were posted (`Orderly`), which is why the
last change is the one that stays.
-/

namespace Playback

variable {R κa κv σ : Type}

/-! ## What tasks and calls ask for -/

/-- What a task tells the output. -/
def PlayerTask.control? : PlayerTask R κa κv σ → Option (Control R)
  | .applyPlayback => some .apply
  | .setVolume volume => some (.volume volume)
  | .setMuted muted => some (.mute muted)
  | _ => none

/-- Whether a task is one of those that come again after a while. -/
def PlayerTask.isPeriodic : PlayerTask R κa κv σ → Bool
  | .checkBuffering | .reportStatus => true
  | _ => false

theorem PlayerTask.isPeriodic_control {task : PlayerTask R κa κv σ} (h : task.isPeriodic = true) :
    task.control? = none := by
  cases task <;> first | rfl | cases h

variable [Scalar R]

/-- What a call asks of the output. -/
def PlayerAct.control? : PlayerAct R κa κv σ → Option (Control R)
  | .setPlayWhenReady _ => some .apply
  | .setVolume volume => some (.volume (Scalar.clamp volume 0.0 1.0))
  | .setMuted muted => some (.mute muted)
  | _ => none

/-- The volume that a call asks for. -/
def PlayerAct.volume? : PlayerAct R κa κv σ → Option R
  | .setVolume volume => some volume
  | _ => none

/-- The mute flag that a call asks for. -/
def PlayerAct.muted? : PlayerAct R κa κv σ → Option Bool
  | .setMuted muted => some muted
  | _ => none

/-- What is kept within bounds stays as it is. -/
theorem Scalar.clamp_clamp (order : ¬ (1.0 : R) < 0.0) (x : R) :
    clamp (clamp x 0.0 1.0) (0.0 : R) 1.0 = clamp x 0.0 1.0 := by
  unfold clamp
  by_cases hlow : x < 0.0
  · simp [hlow, order]
  · by_cases hhigh : 1.0 < x
    · simp [hlow, hhigh, order]
    · simp [hlow, hhigh]

namespace Player

variable {p : Player R κa κv σ}

/-! ## The view of a player -/

omit [Scalar R] in
/-- What of a player has to do with its output. -/
def output (p : Player R κa κv σ) : OutputView R where
  playing := p.isPlaying
  wishes := ⟨p.volume, p.muted⟩
  asked := p.loop.asked PlayerTask.control?
  controls := p.session.map (·.controls)

/-- The tasks that ask something of the output wait in order and may be taken at once. -/
abbrev Orderly (p : Player R κa κv σ) : Prop :=
  p.loop.Prompt p.now PlayerTask.control?

omit [Scalar R] in
theorem Orderly.post_other (h : p.Orderly) {task : PlayerTask R κa κv σ} (other : task.control? = none)
    (delay taskId : Nat) : (p.post task delay taskId).2.Orderly ∧
      (p.post task delay taskId).2.output = p.output := by
  obtain ⟨hprompt, hasked⟩ := Loop.Prompt.post_other h delay (some p.runner) taskId other
  exact ⟨hprompt, congrArg (OutputView.mk p.isPlaying ⟨p.volume, p.muted⟩ · _) hasked⟩

omit [Scalar R] in
theorem Orderly.posts (tasks : List (PlayerTask R κa κv σ)) (h : p.Orderly)
    (other : ∀ task ∈ tasks, task.control? = none) :
    (tasks.foldl (fun p task => (p.post task).2) p).Orderly ∧
      (tasks.foldl (fun p task => (p.post task).2) p).output = p.output := by
  induction tasks generalizing p with
  | nil => exact ⟨h, rfl⟩
  | cons task tasks ih =>
    obtain ⟨hfirst, hsame⟩ := h.post_other (other task (List.mem_cons_self ..)) 0 0
    obtain ⟨hrest, hrest'⟩ := ih hfirst fun t ht => other t (List.mem_cons_of_mem _ ht)
    exact ⟨hrest, hrest'.trans hsame⟩

omit [Scalar R] in
theorem Orderly.schedule (h : p.Orderly) :
    p.scheduleBufferingCheck.Orderly ∧ p.scheduleBufferingCheck.output = p.output :=
  h.post_other rfl _ _

omit [Scalar R] in
theorem Orderly.scheduleStatus (h : p.Orderly) :
    p.scheduleStatus.Orderly ∧ p.scheduleStatus.output = p.output := by
  unfold Player.scheduleStatus
  split
  next => exact ⟨h, rfl⟩
  next => exact h.post_other rfl _ _

omit [Scalar R] in
theorem output_of_session {s s' : Session R κa κv σ} (hs : p.session = some s)
    (same : s'.controls = s.controls) : { p with session := some s' }.output = p.output := by
  unfold output
  rw [hs, Option.map_some, Option.map_some, same]
  rfl

omit [Scalar R] in
theorem output_of_map (f : Session R κa κv σ → Session R κa κv σ) (same : ∀ s, (f s).controls = s.controls) :
    { p with session := p.session.map f }.output = p.output := by
  unfold output
  simp only [Option.map_map, Function.comp_def, same]
  rfl

/-- A player in order, whose output has moved. -/
structure Moved (p : Player R κa κv σ) (v : OutputView R) (asked? : Option (Control R)) : Prop where
  orderly : p.Orderly
  move : OutputMove v asked? p.output

theorem Orderly.moved (h : p.Orderly) {v : OutputView R} (same : p.output = v) : p.Moved v none :=
  ⟨h, by rw [same]; exact .same⟩

theorem Moved.then {v : OutputView R} {asked? : Option (Control R)} {p' : Player R κa κv σ}
    (h : p.Moved v asked?) (same : p.Orderly → p'.Orderly ∧ p'.output = p.output) : p'.Moved v asked? := by
  obtain ⟨orderly, output⟩ := same h.orderly
  exact ⟨orderly, by rw [output]; exact h.move⟩

/-! ## The tasks -/

theorem setState_output (p : Player R κa κv σ) (state : PlaybackState) :
    (p.setState state).output = { p.output with
      playing := state = .ready && p.playWhenReady
      controls := p.output.controls.map (·.setPaused !(state = .ready && p.playWhenReady)) } := by
  obtain ⟨events, henter⟩ := p.enter_eq state
  rw [setState, henter]
  simp [output, applyPlayback, isPlaying, Session.setPaused_controls, Function.comp_def]

theorem Orderly.setState (h : p.Orderly) (state : PlaybackState) : (p.setState state).Moved p.output none := by
  refine ⟨?_, ?_⟩
  · obtain ⟨events, henter⟩ := p.enter_eq state
    rw [Player.setState, henter]
    exact h
  · rw [setState_output]
    exact .turns _

theorem Orderly.fail (h : p.Orderly) (e : PlayerError) : (p.fail e).Moved p.output none :=
  setState (p := p.emit (.error e.message)) h .error

/-- A new session stands until there is enough. -/
theorem Orderly.begins (h : p.Orderly) {v : OutputView R} {s : Session R κa κv σ} (session : p.session = some s)
    (wishes : p.output.wishes = v.wishes) (asked : p.output.asked = v.asked)
    (volume : ∀ a ∈ s.audio, a.renderer.volume = Scalar.clamp v.wishes.volume 0.0 1.0)
    (muted : ∀ a ∈ s.audio, a.renderer.muted = v.wishes.muted) : (p.setState .buffering).Moved v none := by
  have hcontrols : p.output.controls = some s.controls := by simp [output, session]
  have houtput : (p.setState .buffering).output
      = { v with playing := false, controls := some (s.controls.setPaused true) } := by
    simp [setState_output, hcontrols, wishes, asked]
  have haudio {P : AudioControls R → Prop} (hP : ∀ a ∈ s.audio, P { a.renderer.controls with paused := true }) :
      ∀ a ∈ (s.controls.setPaused true).audio, P a := by
    simpa [Controls.setPaused, Session.controls] using hP
  refine ⟨(h.setState .buffering).orderly, ?_⟩
  rw [houtput]
  exact .opens false _ (s.controls.setPaused_stand true) (haudio volume) (haudio muted)

/-- An audio stream that is set up has the volume and the mute flag of the player. -/
theorem openAudio_controls {c : Session.Settings R} {codec : κa} {info : StreamInfo} {a : AudioPipeline R κa}
    (h : Session.openAudio c codec info = (.ok (), a)) :
    a.renderer.volume = Scalar.clamp c.volume 0.0 1.0 ∧ a.renderer.muted = c.muted := by
  unfold Session.openAudio at h
  dsimp only at h
  split at h
  next => cases h
  next =>
    split at h
    next => cases h
    next => cases h; exact ⟨rfl, rfl⟩

theorem ofMedia_controls [Source σ R] {c : Session.Settings R} {media : Media κa κv σ} {s : Session R κa κv σ}
    (h : Session.ofMedia c media = .session s) :
    ∀ a ∈ s.audio, a.renderer.volume = Scalar.clamp c.volume 0.0 1.0 ∧ a.renderer.muted = c.muted := by
  unfold Session.ofMedia at h
  dsimp only at h
  split at h
  next => cases h
  next =>
    split at h
    next => cases h; exact fun a ha => nomatch ha
    next =>
      split at h
      next => cases h
      next hopen =>
        cases h
        rintro a ⟨⟩
        exact openAudio_controls hopen

theorem Orderly.openMedia [Source σ R] (h : p.Orderly) (media : Media κa κv σ) :
    (p.openMedia media).Moved p.output none := by
  unfold Player.openMedia
  split
  next => exact h.moved rfl
  next =>
    split
    next e calls _ => exact fail (p := { p with audioCalls := calls ++ p.audioCalls }) h e
    next s hs =>
      have hfresh := ofMedia_controls hs
      refine Moved.then ?_ Orderly.scheduleStatus
      refine Moved.then ?_ Orderly.schedule
      refine Orderly.begins (s := { s with demuxer := s.demuxer.start p.now }) ?_ rfl rfl rfl
        (fun a ha => (hfresh a ha).1) fun a ha => (hfresh a ha).2
      exact h

theorem Orderly.runSeek (h : p.Orderly) (position : R) : (p.runSeek position).Moved p.output none := by
  unfold Player.runSeek
  split
  next => exact h.moved rfl
  next =>
    dsimp only
    split
    next => exact (h.setState .buffering).then fun orderly => ⟨orderly, output_of_map _ fun _ => rfl⟩
    next =>
      have hseek := output_of_map (p := p)
        (fun s => { s with demuxer := s.demuxer.requestSeek p.now position }) fun _ => rfl
      exact ⟨h, hseek ▸ .same⟩

theorem Orderly.onDemuxed (h : p.Orderly) (event : DemuxEvent R) :
    (p.onDemuxed event).Moved p.output none := by
  unfold Player.onDemuxed
  split
  next => exact h.moved rfl
  next s hs =>
    split
    next position =>
      exact Orderly.moved (p := { p with session := some (s.flush p.now), seekTarget := _, events := _ }) h
        (output_of_session hs (s.flush_controls p.now))
    next => exact h.moved rfl
    next text => exact h.fail _

theorem Orderly.onRendered (h : p.Orderly) (stream : StreamKind) (event : RendererEvent) :
    (p.onRendered stream event).Moved p.output none := by
  unfold Player.onRendered
  split
  next => exact h.moved rfl
  next s hs =>
    split
    next serial =>
      have hmark := output_of_session hs (markEnded_controls s stream serial)
      have horderly : ({ p with session := some (markEnded s stream serial) } : Player R κa κv σ).Orderly := h
      dsimp only
      split
      next => exact hmark ▸ horderly.setState .ended
      next => exact horderly.moved hmark
    next => exact ⟨h, .same⟩
    next text => split <;> exact h.fail _

theorem Orderly.checkBuffering (h : p.Orderly) : p.checkBuffering.Moved p.output none := by
  unfold Player.checkBuffering
  split
  next => exact h.moved rfl
  next =>
    split
    next =>
      split
      next => exact h.setState _
      next => exact h.moved rfl
    next =>
      split
      next => exact h.setState _
      next => exact h.moved rfl
    next => exact h.moved rfl

theorem Orderly.reportStatus (h : p.Orderly) : p.reportStatus.Moved p.output none :=
  Orderly.moved (p := p.reportStatus) h (output_of_map _ fun s => by
    dsimp only
    split
    next => exact congrArg (Controls.mk · _ _) (MediaClock.checkExternalSpeed_pauses ..)
    next => rfl)

variable [Source σ R]

/-- A task that tells the output nothing may still turn it. -/
theorem Orderly.run (h : p.Orderly) {task : PlayerTask R κa κv σ} (other : task.control? = none) :
    (p.run task).Moved p.output none := by
  cases task with
  | openMedia media => exact h.openMedia media
  | applyPlayback | setVolume | setMuted => cases other
  | seek position => exact h.runSeek position
  | demuxed event => exact h.onDemuxed event
  | rendered stream event => exact h.onRendered stream event
  | checkBuffering => exact h.checkBuffering.then Orderly.schedule
  | reportStatus => exact h.reportStatus.then Orderly.scheduleStatus

theorem Orderly.run_control (h : p.Orderly) {task : PlayerTask R κa κv σ} {c : Control R}
    (hc : task.control? = some c) : (p.run task).Orderly ∧
      (p.run task).output = { p.output with controls := p.output.controls.map (·.on p.isPlaying c) } := by
  cases task with
  | applyPlayback =>
    cases hc
    refine ⟨h, ?_⟩
    simp [Player.run, output, applyPlayback, isPlaying, Session.setPaused_controls, Function.comp_def, Controls.on]
  | setVolume | setMuted =>
    cases hc
    refine ⟨h, ?_⟩
    simp [Player.run, output, onAudioRenderer, Session.controls, Function.comp_def, Controls.on,
      AudioControls.on, AudioRenderer.controls, AudioRenderer.setVolume, AudioRenderer.setMuted]
    rfl
  | _ => cases hc

/-- The player's thread takes a task. -/
theorem Orderly.takes (h : p.Orderly) {task : PlayerTask R κa κv σ} {loop : Loop (PlayerTask R κa κv σ)}
    (next : p.loop.next? p.now = some (task, loop)) : ({ p with loop }.run task).Moved p.output none := by
  obtain ⟨hprompt, hasked⟩ := Loop.Prompt.next? h next
  cases hc : task.control? with
  | none =>
    have hsame : ({ p with loop } : Player R κa κv σ).output = p.output := by
      simp only [output, hasked, hc]
      rfl
    exact hsame ▸ Orderly.run (p := { p with loop }) hprompt hc
  | some c =>
    obtain ⟨horderly, houtput⟩ := Orderly.run_control (p := { p with loop }) hprompt hc
    refine ⟨horderly, ?_⟩
    rw [houtput]
    exact .takes c _ (hasked.trans (by rw [hc]; rfl))

/-- A turn of the player's thread. -/
theorem Orderly.turn [Codec κa RawAudioFrame] [Codec κv RawVideoFrame] (h : p.Orderly) :
    (p.step .player).Moved p.output none := by
  unfold step
  dsimp only
  split
  next next => exact h.takes next
  next =>
    split
    next => exact ⟨⟨h.ordered, h.due⟩, .same⟩
    next => exact ⟨h, .same⟩

/-! ## The calls -/

omit [Source σ R] in
/-- Something is asked of the output; a thread that has ended does not hear it. -/
theorem Orderly.ask (h : p.Orderly) (released : p.loop.queue.quitting = true → p.Released)
    {task : PlayerTask R κa κv σ} {c : Control R} (hc : task.control? = some c) {v : OutputView R}
    (wishes : p.output.wishes = v.wishes.on c) (asked : p.output.asked = v.asked)
    (controls : p.output.controls = v.controls) (going : c = .apply ∨ p.isPlaying = v.playing) :
    (p.post task).2.Moved v (some c) := by
  cases hq : p.loop.queue.quitting with
  | true =>
    have hreleased := released hq
    rw [post_ended hq]
    exact ⟨h, .ends _ _ (by simp [output, hreleased.session]) wishes
      (.inl (by simp [output, Loop.asked, hreleased.drained]))⟩
  | false =>
    obtain ⟨hprompt, hasked⟩ := Loop.Prompt.post_asking h hc (some p.runner) hq
    refine ⟨hprompt, ?_⟩
    have houtput : (p.post task).2.output
        = { v with playing := p.isPlaying, wishes := v.wishes.on c, asked := v.asked ++ [c] } := by
      rw [← wishes, ← asked, ← controls]
      exact congrArg (OutputView.mk p.isPlaying ⟨p.volume, p.muted⟩ · _) hasked
    rw [houtput]
    exact .asks c _ going

omit [Scalar R] [Source σ R] in
/-- The session ends, and the player goes to a state. -/
theorem Orderly.leaves (h : p.Orderly) (state : PlaybackState) :
    (p.stopSession.enter state).Orderly ∧ (p.stopSession.enter state).output.asked = p.output.asked ∧
      (p.stopSession.enter state).output.wishes = p.output.wishes ∧
      (p.stopSession.enter state).output.controls = none := by
  obtain ⟨hstatus, hasked⟩ := Loop.Prompt.remove h p.runner PlayerTask.statusId (by decide)
  obtain ⟨hboth, hasked'⟩ := hstatus.remove p.runner PlayerTask.bufferingId (by decide)
  obtain ⟨events, henter⟩ := p.stopSession.enter_eq state
  rw [henter]
  exact ⟨hboth, hasked'.trans hasked, rfl, rfl⟩

omit [Source σ R] in
theorem Orderly.leaves_moved (h : p.Orderly) (state : PlaybackState) :
    (p.stopSession.enter state).Moved p.output none := by
  obtain ⟨horderly, hasked, hwishes, hgone⟩ := h.leaves state
  exact ⟨horderly, .ends none _ hgone hwishes (.inr ⟨rfl, hasked⟩)⟩

omit [Source σ R] in
theorem Orderly.requestOpen (h : p.Orderly) (media : Media κa κv σ) :
    (p.requestOpen media).2.Moved p.output none := by
  by_cases hclosed : p.Closed
  · rw [(requestOpen_closed media hclosed).1]
    exact (h.leaves_moved .opening).then fun horderly => horderly.post_other rfl 0 0
  · rw [requestOpen_stated media hclosed]
    exact ⟨h, .same⟩

omit [Source σ R] in
theorem Orderly.release (h : p.Orderly) : p.release.Moved p.output none := by
  obtain ⟨horderly, hasked, hwishes, hgone⟩ := h.leaves .idle
  obtain ⟨hprompt, hquit⟩ := Loop.Prompt.quit horderly
  exact ⟨hprompt, .ends none _ hgone hwishes (hquit.imp_right fun hsame => ⟨rfl, hsame.trans hasked⟩)⟩

variable [Codec κa RawAudioFrame] [Codec κv RawVideoFrame]

/-- Whatever happens to a player moves its output by one of the rules. -/
theorem Orderly.act (h : p.Orderly) (released : p.loop.queue.quitting = true → p.Released)
    (a : PlayerAct R κa κv σ) : (p.act a).Moved p.output a.control? := by
  -- the threads of the session, and a pull, leave the settings alone and post reports
  have hreport {p' : Player R κa κv σ} (hsame : p'.output = p.output) (horderly : p'.Orderly)
      (tasks : List (PlayerTask R κa κv σ)) (hreports : ∀ task ∈ tasks, task.isReport = true) :
      (tasks.foldl (fun p task => (p.post task).2) p').Moved p.output none := by
    obtain ⟨horderly, hposts⟩ := horderly.posts tasks fun task ht => by
      have := hreports task ht
      cases task <;> first | rfl | cases this
    exact horderly.moved (hposts.trans hsame)
  cases a with
  | requestOpen media => exact h.requestOpen media
  | stop => exact h.leaves_moved .idle
  | release => exact h.release
  | seek position =>
    have hother : (PlayerTask.seek position : PlayerTask R κa κv σ).control? = none := rfl
    obtain ⟨horderly, hsame⟩ :=
      Orderly.post_other (p := { p with seekTarget := some (Scalar.max position 0.0) }) h hother 0 0
    exact horderly.moved hsame
  | setPlayWhenReady playWhenReady =>
    exact Orderly.ask (p := { p with playWhenReady }) h
      (fun hq => (released hq).of_same ⟨rfl, rfl, rfl⟩ (released hq).state) rfl rfl rfl rfl (.inl rfl)
  | setVolume volume =>
    exact Orderly.ask (p := { p with volume := Scalar.clamp volume 0.0 1.0 }) h
      (fun hq => (released hq).of_same ⟨rfl, rfl, rfl⟩ (released hq).state) rfl rfl rfl rfl (.inr rfl)
  | setMuted muted =>
    exact Orderly.ask (p := { p with muted }) h
      (fun hq => (released hq).of_same ⟨rfl, rfl, rfl⟩ (released hq).state) rfl rfl rfl rfl (.inr rfl)
  | pull out =>
    cases ha : p.session.bind (·.audio) with
    | none =>
      show (p.pull out).2.Moved p.output none
      rw [pull_silent ha]
      exact ⟨h, .same⟩
    | some a =>
      obtain ⟨s, hs, hsa⟩ := Option.bind_eq_some_iff.mp ha
      obtain ⟨hcontrols, hclock⟩ := a.pull_controls s.clock s.live p.now out
      show (p.pull out).2.Moved p.output none
      rw [pull_eq hs hsa]
      refine hreport (output_of_session hs ?_) h _ fun task ht => ?_
      · simp [Session.controls, hsa, hcontrols, hclock]
      · obtain ⟨e, -, rfl⟩ := List.mem_map.mp ht
        rfl
  | advance nanos => exact ⟨Loop.Prompt.mono h (Nat.le_add_right ..), .same⟩
  | step thread =>
    show (p.step thread).Moved p.output none
    by_cases hthread : thread = .player
    · rw [hthread]
      exact h.turn
    · cases hs : p.session with
      | none =>
        rw [step_gone hs hthread]
        exact ⟨h, .same⟩
      | some s =>
        rw [step_eq hs hthread]
        exact hreport (output_of_session hs (stepSession_controls s p.now thread)) h _
          (stepSession_reports s p.now thread)

/-! ## Runs -/

/-- The last value that was asked for in a run, if there is one. -/
theorem latest_concat {α β : Type} (f : α → Option β) (as : List α) (a : α) (d : β) :
    ((as ++ [a]).filterMap f).getLastD d = (f a).getD ((as.filterMap f).getLastD d) := by
  rw [List.filterMap_append]
  cases h : f a <;> simp [h]

/-- What holds of the output throughout a run; by induction on the run, from its end. -/
theorem acts_output (config : PlayerConfig R) (device : AudioDevice) (filter : RateFilter R)
    (as : List (PlayerAct R κa κv σ)) :
    let p : Player R κa κv σ := (make config device filter).acts as
    p.Orderly ∧ p.output.Coherent ∧
      p.volume = Scalar.clamp ((as.filterMap PlayerAct.volume?).getLastD config.audio.volume) 0.0 1.0 ∧
      p.muted = (as.filterMap PlayerAct.muted?).getLastD config.audio.muted := by
  induction as using List.reverseRecOn with
  | nil =>
    have hnone {P : Controls R → Prop} :
        ∀ c ∈ (make config device filter : Player R κa κv σ).output.controls, P c := nofun
    exact ⟨⟨MessageQueue.empty_ordered, List.forall_mem_nil _⟩,
      ⟨fun _ => hnone, ⟨nofun, fun _ => hnone⟩, ⟨nofun, fun _ => hnone⟩⟩, rfl, rfl⟩
  | append_singleton as a ih =>
    obtain ⟨horderly, hcoherent, hvolume, hmuted⟩ := ih
    have hreleased := (released_acts (p := make config device filter) as (make_tidy config device filter) nofun).2
    obtain ⟨horderly', hmove⟩ := horderly.act hreleased a
    have hwishes := hmove.wishes
    rw [acts, List.foldl_append, latest_concat, latest_concat]
    refine ⟨horderly', hcoherent.move hmove, ?_, ?_⟩
    · have hlatest := congrArg Wishes.volume hwishes
      cases a with
      | setVolume => exact hlatest
      | _ => exact hlatest.trans hvolume
    · have hlatest := congrArg Wishes.muted hwishes
      cases a with
      | setMuted => exact hlatest
      | _ => exact hlatest.trans hmuted

/-- **The output follows the state.** In every run, over numbers in which one is not below zero: the volume of the
player is the one that was set last, kept within bounds, or else that of the configuration, and likewise its mute
flag. Whenever nothing waits for the player's thread but the periodic checks and there is a session, its clocks,
its video renderer and its audio renderer run exactly if the state is `ready` and playing is wished for, and the
audio renderer has the volume and the mute flag of the player. -/
theorem output_follows (order : ¬ (1.0 : R) < 0.0) (config : PlayerConfig R) (device : AudioDevice)
    (filter : RateFilter R) (as : List (PlayerAct R κa κv σ)) :
    let p : Player R κa κv σ := (make config device filter).acts as
    (p.volume = Scalar.clamp ((as.filterMap PlayerAct.volume?).getLastD config.audio.volume) 0.0 1.0 ∧
      p.muted = (as.filterMap PlayerAct.muted?).getLastD config.audio.muted) ∧
    (p.loop.Holds PlayerTask.isPeriodic → ∀ s, p.session = some s →
      let paused : Bool := !(p.state = .ready && p.playWhenReady)
      (s.clock.audio.paused = paused ∧ s.clock.video.paused = paused ∧ s.clock.external.paused = paused) ∧
      (∀ v ∈ s.video, v.renderer.paused = paused) ∧
      (∀ a ∈ s.audio, a.renderer.paused = paused ∧ a.renderer.volume = p.volume ∧ a.renderer.muted = p.muted)) := by
  intro p
  obtain ⟨-, hcoherent, hvolume, hmuted⟩ := acts_output config device filter as
  refine ⟨⟨hvolume, hmuted⟩, ?_⟩
  intro hidle s hs paused
  have hasked : p.output.asked = [] :=
    List.filterMap_eq_nil_iff.mpr fun m hm => PlayerTask.isPeriodic_control (hidle m hm)
  have hcontrols : s.controls ∈ p.output.controls := Option.mem_map_of_mem _ hs
  obtain ⟨hstand, hkept⟩ : s.controls.Stand paused ∧ ∀ a ∈ s.controls.audio,
      a.volume = Scalar.clamp p.volume 0.0 1.0 ∧ a.muted = p.muted := hcoherent.settled hasked hcontrols
  refine ⟨by simpa [Session.controls, MediaClock.pauses] using hstand.clocks, fun v hv => ?_, fun a ha => ?_⟩
  · exact hstand.video _ (Option.mem_map_of_mem _ hv)
  · obtain ⟨hsame, hmute⟩ := hkept _ (Option.mem_map_of_mem _ ha)
    replace hvolume : p.volume = _ := hvolume
    refine ⟨hstand.audio _ (Option.mem_map_of_mem _ ha), ?_, hmute⟩
    show a.renderer.controls.volume = p.volume
    rw [hsame, hvolume, Scalar.clamp_clamp order]

/-- A tone is opened and plays as soon as it was read; before that it is turned up too far and muted. -/
def untilReady : List (PlayerAct Float (ScriptedCodec RawAudioFrame) (ScriptedCodec RawVideoFrame)
    (ScriptedSource Float)) :=
  [.setVolume 2.0, .requestOpen (.audible (.tone 1))] ++ List.replicate 2 (.step .player)
    ++ List.replicate 3 (.step .demuxer) ++ [.setPlayWhenReady true, .setMuted true, .advance 50000000]
    ++ List.replicate 5 (.step .player)

theorem ready_tone_plays :
    let p : ScriptedPlayer Float := (make .default .obliging .silent).acts untilReady
    p.loop.Holds PlayerTask.isPeriodic ∧ p.volume = Scalar.clamp 2.0 0.0 1.0 ∧ p.muted = true ∧
      ∃ s, p.session = some s ∧ s.clock.audio.paused = false ∧
        ∃ a ∈ s.audio, a.renderer.paused = false ∧ a.renderer.volume = p.volume ∧ a.renderer.muted = true := by
  intro p
  have hidle : p.loop.Holds PlayerTask.isPeriodic := by decide +kernel
  have hready : p.state = .ready ∧ p.playWhenReady = true := by decide +kernel
  obtain ⟨s, hs, a, ha, -⟩ : ∃ s ∈ p.session, ∃ a ∈ s.audio, True := by decide +kernel
  obtain ⟨⟨hvolume, hmuted⟩, hfollows⟩ := output_follows (by decide +kernel) .default .obliging .silent untilReady
  obtain ⟨⟨hclock, -, -⟩, -, haudio⟩ := hfollows hidle s hs
  obtain ⟨hpaused, hsame, hmute⟩ := haudio a ha
  have hplaying : (!(p.state = .ready && p.playWhenReady)) = false := by simp [hready]
  exact ⟨hidle, hvolume, hmuted, s, hs, hclock.trans hplaying, a, ha, hpaused.trans hplaying, hsame,
    hmute.trans hmuted⟩

end Player
end Playback
