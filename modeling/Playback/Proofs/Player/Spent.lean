import Playback.Proofs.Player.Targets
import Playback.Proofs.Render.EndOfStream
import Playback.Scripted.Source

/-!
# Players that do not end again

A renderer reports the end of what it puts out once, and again only after a flush, which follows a seek of the source.
So a player whose renderers have reported their ends, whose source cannot seek and which has left the state `ended` by
some other way never comes back to it (`Spent.acts`), whatever happens but the opening of a new medium.

`Session.reported` is the view of a session that shows what its renderers have reported.
-/

namespace Playback

variable {R κ κa κv σ : Type}

/-! ## Sources that cannot seek -/

/-- A source that cannot seek, whatever is read from it. -/
def Source.Fixed [Source σ R] (source : σ) : Prop :=
  ∀ later, Source.Driven (fun _ _ => False) source later → Source.isSeekable later = false

theorem Source.Fixed.read [Source σ R] {source : σ} (h : Source.Fixed source) : Source.Fixed (Source.read source).2 :=
  fun later driven => h later (.trans (.read .refl) driven)

/-- Reading does not make a scripted source able to seek. -/
theorem ScriptedSource.fixed [Scalar R] {source : ScriptedSource R} (h : source.seekable = false) :
    Source.Fixed source := by
  intro later driven
  show later.seekable = false
  induction driven with
  | refl => exact h
  | @read before _ ih =>
    have hread : before.read.2.seekable = before.seekable := by
      unfold ScriptedSource.read
      repeat' split
      all_goals rfl
    exact hread.trans ih
  | seek _ _ ok => exact ok.elim

/-- A demuxer of such a source reads on, and completes no seek. -/
theorem Demuxer.step_fixed [Scalar R] [Source σ R] {d : Demuxer R σ} (h : Source.Fixed d.source)
    (queues : List StreamQueue) (m : MediaClock R) (now : Nat) :
    Source.Fixed (d.step queues m now).demuxer.source ∧
      ∀ position, (d.step queues m now).event ≠ some (.seekCompleted position) := by
  rcases d.step_target queues m now with ⟨hsource, hsilent⟩ | ⟨_, _, _, hseekable, _⟩
  · refine ⟨?_, hsilent⟩
    rcases hsource with hsame | hread
    · rw [hsame]
      exact h
    · rw [hread]
      exact h.read
  · rw [h d.source .refl] at hseekable
    cases hseekable

/-! ## Reports of ends -/

/-- Whether a renderer reports an end. -/
def RendererEvent.isEnd : RendererEvent → Bool
  | .ended _ => true
  | _ => false

namespace AudioRenderer

theorem deliver_reported (a : AudioRenderer R) (serial : Serial) (result : ReadResult (AudioBlock R)) :
    (a.deliver serial result).2.endReported = a.endReported ∧
      ∀ e ∈ (a.deliver serial result).1, e.isEnd = false := by
  unfold deliver
  cases result with
  | frame block =>
    dsimp only
    split <;> exact ⟨rfl, nofun⟩
  | error text => exact ⟨rfl, fun e he => by rw [List.mem_singleton.mp he]; rfl⟩
  | endOfStream | aborted => exact ⟨rfl, nofun⟩

end AudioRenderer

namespace VideoRenderer

theorem deliver_reported (v : VideoRenderer R) (serial : Serial) (result : ReadResult (VideoFrame R)) :
    (v.deliver serial result).2.endReported = v.endReported ∧
      ∀ e ∈ (v.deliver serial result).1, e.isEnd = false := by
  unfold deliver
  cases result with
  | frame frame =>
    dsimp only
    split <;> exact ⟨rfl, nofun⟩
  | error text => exact ⟨rfl, fun e he => by rw [List.mem_singleton.mp he]; rfl⟩
  | endOfStream | aborted => exact ⟨rfl, nofun⟩

end VideoRenderer

namespace AudioPipeline

theorem attemptRead_reported (a : AudioPipeline R κ) (now : Nat) :
    (a.attemptRead now).renderer.endReported = a.renderer.endReported := by
  unfold attemptRead
  split <;> rfl

/-- The renderer's thread reports no end. -/
theorem step_reported (a : AudioPipeline R κ) (now : Nat) :
    (a.step now).2.renderer.endReported = a.renderer.endReported ∧ ∀ e ∈ (a.step now).1, e.isEnd = false := by
  unfold step
  split
  next task loop _ =>
    cases task with
    | attemptRead => exact ⟨attemptRead_reported { a with loop } now, nofun⟩
    | newBlock result =>
      obtain ⟨hreported, hevents⟩ := a.renderer.deliver_reported a.queue.published result
      unfold run
      dsimp only
      split
      next => exact ⟨(attemptRead_reported _ now).trans hreported, hevents⟩
      next => exact ⟨(attemptRead_reported _ now).trans hreported, hevents⟩
      next => exact ⟨hreported, hevents⟩
      next => exact ⟨hreported, hevents⟩
  next => exact ⟨by split <;> rfl, nofun⟩

/-- A pull reports no end after one was reported. -/
theorem pull_reported [Scalar R] {a : AudioPipeline R κ} (h : a.renderer.endReported = true) (m : MediaClock R)
    (live : LiveSerials) (now : Nat) (out : Bytes) :
    (a.pull m live now out).2.2.1.renderer.endReported = true ∧
      ∀ e ∈ (a.pull m live now out).2.1, e.isEnd = false := by
  obtain ⟨hended, -, hreported⟩ := a.renderer.render_ends m live (Scalar.ofNanos now) 0.0 out
  rw [h, Bool.not_true, Bool.and_false, Bool.false_and] at hended
  rw [h, Bool.true_or] at hreported
  unfold pull
  split
  next =>
    unfold render
    dsimp only
    rw [hended]
    refine ⟨?_, nofun⟩
    split <;> exact hreported
  next => exact ⟨h, nofun⟩

end AudioPipeline

namespace VideoPipeline

theorem attemptRead_reported (v : VideoPipeline R κ) (now : Nat) :
    (v.attemptRead now).renderer.endReported = v.renderer.endReported := by
  unfold attemptRead
  split <;> rfl

/-- The renderer's thread reports no end after one was reported. -/
theorem step_reported [Scalar R] {v : VideoPipeline R κ} (h : v.renderer.endReported = true) (m : MediaClock R)
    (live : LiveSerials) (now : Nat) :
    (v.step m live now).2.1.renderer.endReported = true ∧ ∀ e ∈ (v.step m live now).1, e.isEnd = false := by
  unfold step
  split
  next task loop _ =>
    cases task with
    | attemptRead => exact ⟨(attemptRead_reported { v with loop } now).trans h, nofun⟩
    | newFrame result =>
      obtain ⟨hreported, hevents⟩ := v.renderer.deliver_reported live.video result
      unfold run
      dsimp only
      split
      next => exact ⟨(attemptRead_reported _ now).trans (hreported.trans h), hevents⟩
      next => exact ⟨(attemptRead_reported _ now).trans (hreported.trans h), hevents⟩
      next => exact ⟨hreported.trans h, hevents⟩
      next => exact ⟨hreported.trans h, hevents⟩
    | refresh =>
      -- what a refresh reports of ends, it reports only if none was reported before
      obtain ⟨hended, -, hreported, -⟩ := v.renderer.refresh_ends m live (Scalar.ofNanos now)
      rw [h, Bool.not_true, Bool.false_and, Bool.false_and] at hended
      rw [h, Bool.true_or] at hreported
      unfold run
      dsimp only
      split
      next => exact ⟨h, nofun⟩
      next =>
        rw [hended]
        have hread (v : VideoPipeline R κ) (c : Prop) [Decidable c] :
            (if c then v.attemptRead now else v).renderer.endReported = v.renderer.endReported := by
          split
          next => exact v.attemptRead_reported now
          next => rfl
        refine ⟨(hread ..).trans hreported, fun e he => ?_⟩
        simp only [Bool.false_eq_true, if_false, List.append_nil, Option.mem_toList, Option.map_eq_some_iff] at he
        obtain ⟨_, -, rfl⟩ := he
        rfl
  next => exact ⟨by split <;> exact h, nofun⟩

end VideoPipeline

/-! ## Sessions -/

namespace Session

/-- Whether the renderers have reported an end, as far as there are any. -/
def reported (s : Session R κa κv σ) : Option Bool × Option Bool :=
  (s.audio.map (·.renderer.endReported), s.video.map (·.renderer.endReported))

/-- All renderers have reported an end. -/
def Reported (s : Session R κa κv σ) : Prop :=
  (∀ a ∈ s.audio, a.renderer.endReported = true) ∧ ∀ v ∈ s.video, v.renderer.endReported = true

instance (s : Session R κa κv σ) : Decidable s.Reported :=
  inferInstanceAs (Decidable (_ ∧ _))

theorem reported_iff {s : Session R κa κv σ} :
    s.Reported ↔ s.reported.1 ≠ some false ∧ s.reported.2 ≠ some false := by
  obtain ⟨clock, demuxer, audio, video, info⟩ := s
  cases audio <;> cases video <;> simp [Reported, reported]

theorem Reported.of_eq {s s' : Session R κa κv σ} (h : s.Reported) (same : s'.reported = s.reported) : s'.Reported := by
  rw [reported_iff] at h ⊢
  rwa [same]

@[simp] theorem setQueues_reported (s : Session R κa κv σ) (queues : List StreamQueue) :
    (s.setQueues queues).reported = s.reported := by
  unfold setQueues
  split <;> simp [reported, *]

variable [Scalar R]

@[simp] theorem setPaused_reported (s : Session R κa κv σ) (paused : Bool) (now : Nat) :
    (s.setPaused paused now).reported = s.reported := by
  have hvideo (v : VideoRenderer R) (m : MediaClock R) (time : R) :
      (v.setPaused m paused time).endReported = v.endReported := by
    unfold VideoRenderer.setPaused
    repeat' split
    all_goals rfl
  simp [reported, setPaused, Function.comp_def, hvideo, AudioRenderer.setPaused]

end Session

/-- Whether a task of the player's thread can bring an end: of what is opened, after a flush, or at once. -/
def PlayerTask.bringsEnd : PlayerTask R κa κv σ → Bool
  | .openMedia _ | .demuxed (.seekCompleted _) | .rendered _ (.ended _) => true
  | _ => false

theorem RendererEvent.bringsEnd {e : RendererEvent} (h : e.isEnd = false) (stream : StreamKind) :
    (PlayerTask.rendered stream e : PlayerTask R κa κv σ).bringsEnd = false := by
  cases e with
  | ended => cases h
  | firstFrame | error => rfl

theorem PlayerTask.isPeriodic_bringsEnd {task : PlayerTask R κa κv σ} (h : task.isPeriodic = true) :
    task.bringsEnd = false := by
  cases task <;> first | rfl | cases h

namespace Player

variable [Scalar R]

/-- What the renderers of the session have reported. -/
def reported (p : Player R κa κv σ) : Option (Option Bool × Option Bool) :=
  p.session.map (·.reported)

@[simp] theorem setState_reported (p : Player R κa κv σ) (state : PlaybackState) :
    (p.setState state).reported = p.reported := by
  simp [reported, setState, applyPlayback, Function.comp_def]

omit [Scalar R] in
theorem onSession_reported (p : Player R κa κv σ) (f : Session R κa κv σ → Session R κa κv σ)
    (same : ∀ s, (f s).reported = s.reported) : { p with session := p.session.map f }.reported = p.reported := by
  simp [reported, Function.comp_def, same]

/-- A task that cannot bring an end leaves the reports alone. -/
theorem run_reported [Source σ R] (p : Player R κa κv σ) {task : PlayerTask R κa κv σ} (h : task.bringsEnd = false) :
    (p.run task).reported = p.reported := by
  have haudio (f : AudioRenderer R → AudioRenderer R) (same : ∀ r, (f r).endReported = r.endReported) :
      (p.onAudioRenderer f).reported = p.reported :=
    p.onSession_reported _ fun s => by simp [Session.reported, Function.comp_def, same]
  cases task with
  | openMedia => cases h
  | applyPlayback => exact p.onSession_reported _ fun _ => Session.setPaused_reported ..
  | seek position =>
    show (p.runSeek position).reported = p.reported
    unfold runSeek
    split
    next => rfl
    next =>
      dsimp only
      split
      next =>
        rw [← setState_reported p .buffering]
        exact onSession_reported _ _ fun _ => rfl
      next => exact p.onSession_reported _ fun _ => rfl
  | setVolume volume => exact haudio (·.setVolume volume) fun _ => rfl
  | setMuted muted => exact haudio (·.setMuted muted) fun _ => rfl
  | demuxed event =>
    show (p.onDemuxed event).reported = p.reported
    unfold onDemuxed
    cases event with
    | seekCompleted => cases h
    | endOfFile => split <;> rfl
    | error text =>
      split
      next => rfl
      next => exact setState_reported ..
  | rendered stream event =>
    show (p.onRendered stream event).reported = p.reported
    unfold onRendered
    cases event with
    | ended => cases h
    | firstFrame => split <;> rfl
    | error text =>
      split
      next => rfl
      next => cases stream <;> exact setState_reported ..
  | checkBuffering =>
    show p.checkBuffering.reported = p.reported
    rcases p.checkBuffering_eq with heq | ⟨state, heq⟩
    · rw [heq]
    · rw [heq, setState_reported]
  | reportStatus =>
    have hadjust : p.reportStatus.reported = p.reported :=
      p.onSession_reported _ fun _ => by split <;> rfl
    show p.reportStatus.scheduleStatus.reported = p.reported
    obtain ⟨loop, hschedule⟩ := p.reportStatus.scheduleStatus_eq
    rw [hschedule]
    exact hadjust

variable [Codec κa RawAudioFrame] [Codec κv RawVideoFrame] [Source σ R]

/-- The threads of a session report no end after all were reported, nor a seek that the source refused. -/
theorem stepSession_reported {s : Session R κa κv σ} (h : s.Reported) (fixed : Source.Fixed s.demuxer.source)
    (now : Nat) (thread : PlayerThread) :
    (stepSession s now thread).2.Reported ∧ ∀ task ∈ (stepSession s now thread).1, task.bringsEnd = false := by
  have hwake (s : Session R κa κv σ) (starving : Bool) : (wakeDemuxer s starving now).reported = s.reported := by
    unfold wakeDemuxer
    split <;> rfl
  cases thread with
  | player => exact ⟨h, nofun⟩
  | demuxer =>
    refine ⟨h.of_eq (Session.setQueues_reported ..), fun task ht => ?_⟩
    obtain ⟨event, hevent, rfl⟩ := Option.map_eq_some_iff.mp (Option.mem_toList.mp ht)
    cases event with
    | seekCompleted position => exact absurd hevent ((Demuxer.step_fixed fixed s.queues s.clock now).2 position)
    | endOfFile | error => rfl
  | audioDecoder =>
    cases ha : s.audio with
    | none => simpa [stepSession, ha] using h
    | some a =>
      simp only [stepSession, ha]
      refine ⟨h.of_eq ((hwake ..).trans ?_), fun _ ht => absurd ht List.not_mem_nil⟩
      simp [Session.reported, ha, AudioPipeline.stepDecoder]
  | videoDecoder =>
    cases hv : s.video with
    | none => simpa [stepSession, hv] using h
    | some v =>
      simp only [stepSession, hv]
      refine ⟨h.of_eq ((hwake ..).trans ?_), fun _ ht => absurd ht List.not_mem_nil⟩
      simp [Session.reported, hv, VideoPipeline.stepDecoder]
  | audioRenderer =>
    cases ha : s.audio with
    | none => simpa [stepSession, ha] using h
    | some a =>
      obtain ⟨hreported, hevents⟩ := a.step_reported now
      simp only [stepSession, ha]
      refine ⟨h.of_eq (by simp [Session.reported, ha, hreported]), fun task ht => ?_⟩
      obtain ⟨e, he, rfl⟩ := List.mem_map.mp ht
      exact RendererEvent.bringsEnd (hevents e he) .audio
  | videoRenderer =>
    cases hv : s.video with
    | none => simpa [stepSession, hv] using h
    | some v =>
      obtain ⟨hreported, hevents⟩ := VideoPipeline.step_reported (h.2 v hv) s.clock s.live now
      simp only [stepSession, hv]
      refine ⟨⟨h.1, fun v' hv' => ?_⟩, fun task ht => ?_⟩
      · cases hv'
        exact hreported
      · obtain ⟨e, he, rfl⟩ := List.mem_map.mp ht
        exact RendererEvent.bringsEnd (hevents e he) .video

/-- A player that has left `ended` although nothing can bring an end any more. -/
structure Spent (p : Player R κa κv σ) : Prop where
  state : p.state ≠ .ended
  tasks : ∀ m ∈ p.loop.queue.messages, m.task.bringsEnd = false
  fixed : ∀ d ∈ p.demuxer?, Source.Fixed d.source
  reported : ∀ s ∈ p.session, s.Reported

theorem Spent.reports {p : Player R κa κv σ} (h : p.Spent) (a : PlayerAct R κa κv σ) :
    ∀ task ∈ p.reports a, task.bringsEnd = false := by
  intro task ht
  obtain ⟨s, hs, ⟨audio, ha, out, e, he, rfl⟩ | ⟨thread, hstep⟩⟩ := mem_reports ht
  · have haudio := (h.reported s hs).1 audio ha
    exact RendererEvent.bringsEnd ((AudioPipeline.pull_reported haudio ..).2 e he) .audio
  · have hfixed := h.fixed s.demuxer (by simp [demuxer?, hs])
    exact (stepSession_reported (h.reported s hs) hfixed p.now thread).2 task hstep

/-- After an act that opens nothing, all is still reported. -/
theorem Spent.act_reported {p : Player R κa κv σ} (h : p.Spent) {a : PlayerAct R κa κv σ} (rule : a.isRequest = false) :
    ∀ s ∈ (p.act a).session, s.Reported := by
  have hleaves := p.act_leaves a
  generalize p.act a = p' at hleaves ⊢
  cases hleaves with
  | same _ _ _ session =>
    rw [session]
    exact h.reported
  | closes _ _ _ session =>
    rw [session]
    exact fun s hs => absurd hs (Option.not_mem_none s)
  | opens => cases rule
  | asks _ _ q _ _ _ session =>
    show ∀ s ∈ q.session, s.Reported
    rw [session]
    exact h.reported
  | runs task loop next =>
    obtain ⟨m, hm, rfl⟩ := (Loop.mem_next? next).1
    have hrun := run_reported { p with loop } (h.tasks m hm)
    intro s hs
    obtain ⟨s', hs', hsame⟩ : ∃ s', p.session = some s' ∧ s'.reported = s.reported := by
      rw [Player.reported, Player.reported, hs, Option.map_some] at hrun
      exact Option.map_eq_some_iff.mp hrun.symm
    exact (h.reported s' hs').of_eq hsame.symm
  | pulls out s audio alive output =>
    obtain ⟨haudio, hvideo⟩ := h.reported s alive
    rw [posts_session]
    rintro _ ⟨⟩
    refine ⟨fun a' ha' => ?_, hvideo⟩
    cases ha'
    exact (AudioPipeline.pull_reported (haudio audio output) ..).1
  | works thread s alive =>
    have hfixed := h.fixed s.demuxer (by simp [demuxer?, alive])
    rw [posts_session]
    rintro _ ⟨⟩
    exact (stepSession_reported (h.reported s alive) hfixed p.now thread).1

/-- Only the opening of a new medium can bring an end. -/
theorem Spent.act {p : Player R κa κv σ} (h : p.Spent) {a : PlayerAct R κa κv σ} (rule : a.isRequest = false) :
    (p.act a).Spent := by
  constructor
  · have hdoes := p.act_does a
    generalize p.act a = p' at hdoes ⊢
    cases hdoes with
    | works _ _ _ _ state => rw [state]; exact h.state
    | requests => cases rule
    | stops | releases =>
      show p.stop.state ≠ .ended
      rw [p.stop_state.1]
      exact nofun
    | runs task loop next =>
      obtain ⟨m, hm, rfl⟩ := (Loop.mem_next? next).1
      -- only the report of an end turns a player to `ended`, and none waits
      have hbrings := h.tasks m hm
      have hturn := run_turn { p with loop } m.task
      generalize hstate : (run { p with loop } m.task).state = state at hturn ⊢
      generalize m.task = task at hbrings hturn
      cases hturn with
      | stays => exact h.state
      | ends => cases hbrings
      | opens | refuses | seeks | breaks | fails | fills | starves => exact nofun
    | refuses | waits | rests => exact h.state
  · intro m hm
    cases p.act_origin a m hm with
    | before waits => exact h.tasks m waits
    | call asked =>
      cases a with
      | requestOpen => cases rule
      | seek | setPlayWhenReady | setVolume | setMuted => rw [← Option.some.inj asked]; rfl
      | stop | release | pull | advance | step => cases asked
    | report given => exact h.reports a m.task given
    | again periodic => exact PlayerTask.isPeriodic_bringsEnd periodic
  · intro d hd
    rcases p.act_source a d hd with ⟨before, hbefore, hsource⟩ | ⟨m, hm, media, htask, -⟩ | ⟨s, alive, hsource⟩
    · rw [hsource]
      exact h.fixed before hbefore
    · have hbrings := h.tasks m hm
      rw [htask] at hbrings
      cases hbrings
    · rw [hsource]
      exact (Demuxer.step_fixed (h.fixed s.demuxer (by simp [demuxer?, alive])) s.queues s.clock p.now).1
  · exact h.act_reported rule

theorem Spent.acts {p : Player R κa κv σ} (h : p.Spent) {as : List (PlayerAct R κa κv σ)}
    (rule : ∀ a ∈ as, a.isRequest = false) : (p.acts as).Spent :=
  List.foldlRecOn (motive := Spent) as Player.act h fun _ hp a ha => hp.act (rule a ha)

end Player
end Playback
