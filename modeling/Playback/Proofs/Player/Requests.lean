import Playback.Proofs.Player.Acts
import Playback.Proofs.Run
import Playback.Proofs.Schedule.Pending
import Playback.Scripted.Player

/-!
# Which of several requests is carried out

A request to open a medium is a task that waits on the player's loop; a stop does not take it back, and it
does not know which request it belongs to. The task is carried out if the player is opening *something* when
its turn comes. So after a request the medium that is opened need not be the requested one:

> it is the medium of the oldest task that still waits (`opened_after_call`).

After a stop nothing is opened and the player stays idle, whatever still waits, unless its thread has ended
and a request to open is refused.

`pendingOpens` are the media that wait, in the order in which their turn comes, and `openedIn` those that a
run opens or fails to open. A run after a request is `Waiting` until the oldest task has its turn, and
`Answered` from then on.
-/

namespace Playback

variable {R κa κv σ : Type}

/-! ## Tasks that wait to open something -/

namespace Loop

/-- The media of the tasks that wait, in the order in which they are taken. -/
def opens (l : Loop (PlayerTask R κa κv σ)) : List (Media κa κv σ) :=
  l.queue.messages.filterMap (·.task.medium?)

/-- The messages stand in order, and the tasks that open something may be taken at once; no one takes them
back. -/
structure Tidy (now : Nat) (l : Loop (PlayerTask R κa κv σ)) : Prop where
  ordered : l.queue.Ordered
  due : ∀ m ∈ l.queue.messages, m.task.medium?.isSome = true → m.due ≤ now ∧ m.taskId = 0

variable {l l' : Loop (PlayerTask R κa κv σ)} {now : Nat}

/-- What was said of tasks that ask for something holds of those that open something. -/
theorem tidy_iff : Tidy now l ↔ l.Prompt now PlayerTask.medium? :=
  ⟨fun h => ⟨h.ordered, h.due⟩, fun h => ⟨h.ordered, h.due⟩⟩

theorem Tidy.mono (h : Tidy now l) {later : Nat} (hle : now ≤ later) : Tidy later l :=
  tidy_iff.mpr ((tidy_iff.mp h).mono hle)

/-- A task that opens nothing changes nothing for those that do. -/
theorem Tidy.post (h : Tidy now l) (delay : Nat) {task : PlayerTask R κa κv σ} (runner : Option Nat)
    (taskId : Nat) (other : task.medium? = none) :
    Tidy now (l.post now delay task runner taskId).2 ∧
      (l.post now delay task runner taskId).2.opens = l.opens ∧
      (l.post now delay task runner taskId).2.queue.quitting = l.queue.quitting := by
  obtain ⟨hprompt, hasked⟩ := (tidy_iff.mp h).post_other delay runner taskId other
  exact ⟨tidy_iff.mpr hprompt, hasked, l.post_quitting ..⟩

/-- A request to open waits behind all others. -/
theorem Tidy.postOpen (h : Tidy now l) (media : Media κa κv σ) (runner : Option Nat)
    (running : l.queue.quitting = false) :
    Tidy now (l.post now 0 (.openMedia media) runner).2 ∧
      (l.post now 0 (.openMedia media) runner).2.opens = l.opens ++ [media] ∧
      (l.post now 0 (.openMedia media) runner).2.queue.quitting = false := by
  have hmedium : (PlayerTask.openMedia media : PlayerTask R κa κv σ).medium? = some media := rfl
  obtain ⟨hprompt, hasked⟩ := (tidy_iff.mp h).post_asking hmedium runner running
  exact ⟨tidy_iff.mpr hprompt, hasked, (l.post_quitting ..).trans running⟩

/-- A request to open has no id by which it could be taken back. -/
theorem Tidy.remove (h : Tidy now l) (runner taskId : Nat) (hid : taskId ≠ 0) :
    Tidy now (l.remove runner (some taskId)).2 ∧ (l.remove runner (some taskId)).2.opens = l.opens := by
  obtain ⟨hprompt, hasked⟩ := (tidy_iff.mp h).remove runner taskId hid
  exact ⟨tidy_iff.mpr hprompt, hasked⟩

theorem Tidy.next? (h : Tidy now l) {task : PlayerTask R κa κv σ} (hnext : l.next? now = some (task, l')) :
    Tidy now l' ∧ l.opens = task.medium?.toList ++ l'.opens ∧ l'.queue.quitting = l.queue.quitting := by
  obtain ⟨hprompt, hasked⟩ := (tidy_iff.mp h).next? hnext
  exact ⟨tidy_iff.mpr hprompt, hasked, next?_quitting hnext⟩

/-- A loop that is drained at a time has nothing left to open: what opens something may be taken at once. -/
theorem Tidy.drained (h : Tidy now l) (running : l.queue.quitting = false) (hnone : l.next? now = none) :
    l.opens = [] := by
  unfold opens
  rw [List.filterMap_eq_nil_iff]
  intro m hm
  have hlater := later h.ordered running hnone m hm
  cases ho : m.task.medium? with
  | none => rfl
  | some media =>
    have hdue := h.due m hm (by rw [ho]; rfl)
    omega

end Loop

theorem Grows.tidy {now : Nat} {l l' : Loop (PlayerTask R κa κv σ)} (hgrow : Grows now l l')
    (h : l.Tidy now) : l'.Tidy now ∧ l'.opens = l.opens ∧ l'.queue.quitting = l.queue.quitting := by
  induction hgrow with
  | same => exact ⟨h, rfl, rfl⟩
  | post _ delay task runner taskId other ih =>
    obtain ⟨htidy, hopens, hquit⟩ := ih
    obtain ⟨htidy', hopens', hquit'⟩ := htidy.post delay runner taskId other
    exact ⟨htidy', hopens'.trans hopens, hquit'.trans hquit⟩

/-- Whether an act is a request to open something. -/
def PlayerAct.isRequest : PlayerAct R κa κv σ → Bool
  | .requestOpen _ => true
  | _ => false

namespace Player

variable {p : Player R κa κv σ}

/-- The media that are still to be opened, in the order in which they get their turn. -/
def pendingOpens (p : Player R κa κv σ) : List (Media κa κv σ) :=
  p.loop.opens

theorem Works.tidy {p' : Player R κa κv σ} (hw : p.Works p') (h : p.loop.Tidy p.now) :
    p'.loop.Tidy p'.now ∧ p'.pendingOpens = p.pendingOpens ∧
      p'.loop.queue.quitting = p.loop.queue.quitting := by
  rw [hw.now]
  exact hw.loop.tidy h

/-- Ending a session takes back checks and reports, but no request to open. -/
theorem stopSession_tidy (h : p.loop.Tidy p.now) :
    p.stopSession.loop.Tidy p.now ∧ p.stopSession.pendingOpens = p.pendingOpens ∧
      p.stopSession.loop.queue.quitting = p.loop.queue.quitting := by
  obtain ⟨hstatus, hopens⟩ := h.remove p.runner PlayerTask.statusId (by decide)
  obtain ⟨hboth, hopens'⟩ := hstatus.remove p.runner PlayerTask.bufferingId (by decide)
  exact ⟨hboth, hopens'.trans hopens, rfl⟩

theorem stop_tidy (h : p.loop.Tidy p.now) :
    p.stop.loop.Tidy p.now ∧ p.stop.now = p.now ∧ p.stop.loop.queue.quitting = p.loop.queue.quitting := by
  obtain ⟨events, henter⟩ := p.stopSession.enter_eq .idle
  rw [stop, henter]
  exact ⟨(stopSession_tidy h).1, rfl, (stopSession_tidy h).2.2⟩

theorem release_tidy (h : p.loop.Tidy p.now) : p.release.loop.Tidy p.now :=
  Loop.tidy_iff.mpr (Loop.tidy_iff.mp (stop_tidy h).1).quit.1

/-- Nothing is open, and nothing will be opened. -/
structure Stopped (p : Player R κa κv σ) : Prop where
  tidy : p.loop.Tidy p.now
  gone : p.playing = none
  state : p.state = .idle ∨ (p.state = .opening ∧ p.loop.queue.quitting = true)

theorem stop_stopped (h : p.loop.Tidy p.now) : p.stop.Stopped :=
  ⟨by rw [(stop_tidy h).2.1]; exact (stop_tidy h).1, playing_eq_none.mpr p.stop_state.2,
    .inl p.stop_state.1⟩

theorem release_stopped (h : p.loop.Tidy p.now) : p.release.Stopped :=
  ⟨by rw [show p.release.now = p.now from (stop_tidy h).2.1]; exact release_tidy h,
    playing_eq_none.mpr p.stop_state.2, .inl p.stop_state.1⟩

/-- Whether a call is a stop, or a request to open that is accepted. -/
def heeds (p : Player R κa κv σ) : PlayerAct R κa κv σ → Bool
  | .requestOpen media => (p.requestOpen media).1.toBool
  | .stop | .release => true
  | _ => false

theorem heeds_requestOpen (p : Player R κa κv σ) (media : Media κa κv σ) :
    p.heeds (.requestOpen media) = true ↔ p.Closed ∧ p.loop.queue.quitting = false := by
  show (p.requestOpen media).1.toBool = true ↔ _
  by_cases hclosed : p.Closed
  · obtain ⟨events, henter⟩ := p.stopSession.enter_eq .opening
    rw [(requestOpen_closed media hclosed).2, henter]
    show (Loop.post _ _ _ _ _ _).1 = true ↔ _
    rw [Loop.post_accepted]
    simp [hclosed, stopSession, Loop.remove, MessageQueue.remove]
  · obtain ⟨e, hrefused⟩ := requestOpen_refused media hclosed
    simp [hrefused, hclosed, Except.toBool]

/-- A request to open that is accepted: the medium waits behind all others, and nothing is open. -/
theorem requestOpen_accepted (h : p.loop.Tidy p.now) (media : Media κa κv σ) (closed : p.Closed)
    (running : p.loop.queue.quitting = false) :
    (p.requestOpen media).2.loop.Tidy (p.requestOpen media).2.now ∧
      (p.requestOpen media).2.pendingOpens = p.pendingOpens ++ [media] ∧
      (p.requestOpen media).2.loop.queue.quitting = false := by
  obtain ⟨htidy, hopens, hquit⟩ := stopSession_tidy h
  obtain ⟨events, henter⟩ := p.stopSession.enter_eq .opening
  have hpost := htidy.postOpen media (some p.runner) (hquit.trans running)
  rw [(requestOpen_closed media closed).1, henter]
  exact ⟨hpost.1, hpost.2.1.trans (by rw [← hopens]; rfl), hpost.2.2⟩

/-- A thread that has ended takes no request, but the player is stopped for it. -/
theorem requestOpen_ended (h : p.loop.Tidy p.now) (media : Media κa κv σ) (closed : p.Closed)
    (quitting : p.loop.queue.quitting = true) :
    (p.requestOpen media).2.loop.Tidy (p.requestOpen media).2.now ∧
      (p.requestOpen media).2.loop.queue.quitting = true := by
  obtain ⟨htidy, -, hquit⟩ := stopSession_tidy h
  obtain ⟨events, henter⟩ := p.stopSession.enter_eq .opening
  have hpost := Loop.post_refused (hquit.trans quitting) p.now 0 (.openMedia media) (some p.runner) 0
  have heq : (p.requestOpen media).2 = { p.stopSession with state := .opening, events } := by
    rw [(requestOpen_closed media closed).1, henter]
    exact congrArg (fun posted => ({ p.stopSession with
      state := .opening, events, loop := posted.2 } : Player R κa κv σ)) hpost
  rw [heq]
  exact ⟨htidy, hquit.trans quitting⟩

variable [Scalar R]

theorem make_tidy (config : PlayerConfig R) (device : AudioDevice) (filter : RateFilter R) :
    (make config device filter : Player R κa κv σ).loop.Tidy 0 :=
  ⟨MessageQueue.empty_ordered, fun _ hm => nomatch hm⟩

variable [Source σ R]

theorem run_tidy (h : p.loop.Tidy p.now) (task : PlayerTask R κa κv σ) :
    (p.run task).loop.Tidy (p.run task).now ∧ (p.run task).pendingOpens = p.pendingOpens ∧
      (p.run task).loop.queue.quitting = p.loop.queue.quitting := by
  by_cases hmedia : task.medium? = none
  · exact (p.run_works task hmedia).tidy h
  cases task with
  | openMedia media =>
    show (p.openMedia media).loop.Tidy (p.openMedia media).now ∧ _
    by_cases hopen : p.state = .opening
    · obtain ⟨hgrow, hnow, -⟩ := p.openMedia_cases media hopen
      rw [hnow]
      exact hgrow.tidy h
    · rw [run, p.openMedia_other media hopen]
      exact ⟨h, rfl, rfl⟩
  | _ => exact absurd rfl hmedia

/-! ## What a run opens -/

/-- The medium that is opened, or fails to open, by an act. -/
def opens? (p : Player R κa κv σ) : PlayerAct R κa κv σ → Option (Media κa κv σ)
  | .step .player =>
    (p.loop.next? p.now).bind fun (task, _) => if p.state = .opening then task.medium? else none
  | _ => none

variable [Codec κa RawAudioFrame] [Codec κv RawVideoFrame]

/-- The media that are opened, or fail to open, in a run. -/
def openedIn (p : Player R κa κv σ) : List (PlayerAct R κa κv σ) → List (Media κa κv σ)
  | [] => []
  | a :: as => (p.opens? a).toList ++ (p.act a).openedIn as

/-- Nothing is heeded in a run. -/
abbrev Unheeded (p : Player R κa κv σ) (later : List (PlayerAct R κa κv σ)) : Prop :=
  Obeys act (fun p a => ¬ p.heeds a = true) p later

theorem act_tidy (h : p.loop.Tidy p.now) (a : PlayerAct R κa κv σ) :
    (p.act a).loop.Tidy (p.act a).now := by
  have hdoes := p.act_does a
  generalize p.act a = p' at hdoes ⊢
  cases hdoes with
  | works _ _ _ works => exact (works.tidy h).1
  | refuses => exact h
  | requests media closed =>
    cases hquit : p.loop.queue.quitting with
    | true => exact (requestOpen_ended h media closed hquit).1
    | false => exact (requestOpen_accepted h media closed hquit).1
  | stops => exact (stop_stopped h).tidy
  | releases => exact (release_stopped h).tidy
  | waits nanos => exact h.mono (Nat.le_add_right ..)
  | runs task loop next => exact (run_tidy (p := { p with loop }) (h.next? next).1 task).1
  | rests loop _ queue => exact ⟨by rw [queue]; exact h.ordered, by rw [queue]; exact h.due⟩

theorem acts_tidy (config : PlayerConfig R) (device : AudioDevice) (filter : RateFilter R)
    (as : List (PlayerAct R κa κv σ)) :
    ((make config device filter : Player R κa κv σ).acts as).loop.Tidy ((make config device filter).acts as).now :=
  List.foldlRecOn (motive := fun p => p.loop.Tidy p.now) as act (make_tidy config device filter)
    fun _ hp a _ => act_tidy hp a

/-- What neither opens anything nor changes what matters for it. -/
structure Keeps (p p' : Player R κa κv σ) : Prop where
  playing : p'.playing = p.playing
  state : p'.state = p.state
  pending : p'.pendingOpens = p.pendingOpens
  quitting : p'.loop.queue.quitting = p.loop.queue.quitting

/-- What is not heeded: a request that is refused, for the state or because the thread has ended; a task that
the player's thread takes; or something that opens nothing and keeps everything. -/
inductive Unheeds (p : Player R κa κv σ) : PlayerAct R κa κv σ → Player R κa κv σ → Prop where
  | refuses (media : Media κa κv σ) (opened : ¬ p.Closed) : Unheeds p (.requestOpen media) p
  | fails (media : Media κa κv σ) (closed : p.Closed) (quitting : p.loop.queue.quitting = true) :
      Unheeds p (.requestOpen media) (p.requestOpen media).2
  | runs (task : PlayerTask R κa κv σ) (loop : Loop (PlayerTask R κa κv σ))
      (next : p.loop.next? p.now = some (task, loop)) : Unheeds p (.step .player) ({ p with loop }.run task)
  | keeps (a : PlayerAct R κa κv σ) (p' : Player R κa κv σ) (nothing : p.opens? a = none)
      (other : a.isRequest = false) (keeps : p.Keeps p') : Unheeds p a p'

theorem act_unheeds (h : p.loop.Tidy p.now) {a : PlayerAct R κa κv σ} (hrule : ¬ p.heeds a = true) :
    p.Unheeds a (p.act a) := by
  have hdoes := p.act_does a
  generalize p.act a = p' at hdoes ⊢
  cases hdoes with
  | works _ _ quiet works state =>
    obtain ⟨-, hpending, hquit⟩ := works.tidy h
    refine .keeps _ _ ?_ ?_ ⟨works.playing, state, hpending, hquit⟩
    · cases a with
      | step thread => cases thread <;> first | rfl | cases quiet
      | _ => rfl
    · cases a <;> first | rfl | cases quiet
  | refuses media opened => exact .refuses media opened
  | requests media closed =>
    -- a closed player that does not accept it has no thread for it
    have hquit : p.loop.queue.quitting = true := by
      simpa [heeds_requestOpen, closed] using hrule
    exact .fails media closed hquit
  | stops | releases => exact absurd rfl hrule
  | waits => exact .keeps _ _ rfl rfl ⟨rfl, rfl, rfl, rfl⟩
  | runs task loop next => exact .runs task loop next
  | rests loop idle queue =>
    refine .keeps _ _ (by simp [opens?, idle]) rfl ⟨rfl, rfl, ?_, ?_⟩
    · show loop.opens = p.loop.opens
      rw [Loop.opens, queue, Loop.opens]
    · show loop.queue.quitting = p.loop.queue.quitting
      rw [queue]

/-! ## After a stop -/

omit [Codec κa RawAudioFrame] [Codec κv RawVideoFrame] in
/-- Unless something is being opened, a task brings no session and ends none. -/
theorem run_playing (task : PlayerTask R κa κv σ) (h : p.state ≠ .opening) :
    (p.run task).playing = p.playing := by
  by_cases hmedia : task.medium? = none
  · exact (p.run_works task hmedia).playing
  cases task with
  | openMedia media => rw [run, p.openMedia_other media h]
  | _ => exact absurd rfl hmedia

omit [Codec κa RawAudioFrame] [Codec κv RawVideoFrame] in
/-- Without a session a task changes the state only by opening something. -/
theorem run_gone (task : PlayerTask R κa κv σ) (gone : p.playing = none) (buffering : p.state ≠ .buffering)
    (ready : p.state ≠ .ready) (h : p.state = .opening → task.medium? = none) :
    (p.run task).state = p.state := by
  replace gone := playing_eq_none.mp gone
  have hturn := p.run_turn task
  generalize (p.run task).state = state at hturn
  cases hturn with
  | stays => rfl
  | opens media opening | refuses media opening => exact nomatch h opening
  | seeks _ alive | breaks _ alive | fails _ _ alive | ends _ _ _ alive => rw [gone] at alive; cases alive
  | fills low => exact absurd low buffering
  | starves going => exact absurd going ready

/-- A stopped player opens nothing, and only a request that is refused takes it from where it is. -/
theorem Stopped.act (h : p.Stopped) (a : PlayerAct R κa κv σ) (hrule : ¬ p.heeds a = true) :
    p.opens? a = none ∧ (p.act a).Stopped ∧
      (p.act a).state = if a.isRequest then .opening else p.state := by
  have htidy := act_tidy h.tidy a
  have hunheeds := act_unheeds h.tidy hrule
  generalize p.act a = p' at htidy hunheeds ⊢
  cases hunheeds with
  | refuses media opened =>
    -- a player that is idle is closed
    have hopening : p.state = .opening := by
      rcases h.state with hidle | ⟨hopening, -⟩
      · exact absurd (.inl hidle) opened
      · exact hopening
    exact ⟨rfl, h, hopening⟩
  | fails media closed quitting =>
    obtain ⟨hstate, hgone⟩ := requestOpen_state media closed
    have hquit := (requestOpen_ended h.tidy media closed quitting).2
    exact ⟨rfl, ⟨htidy, playing_eq_none.mpr hgone, .inr ⟨hstate, hquit⟩⟩, hstate⟩
  | runs task loop next =>
    -- a thread that takes a task has not ended, so nothing is being opened
    have hidle : p.state = .idle := by
      rcases h.state with hidle | ⟨-, hquit⟩
      · exact hidle
      · simp [Loop.next?, MessageQueue.next?, hquit] at next
    have hstate := run_gone (p := { p with loop }) task h.gone (by simp [hidle]) (by simp [hidle])
      (by simp [hidle])
    have hplaying := run_playing (p := { p with loop }) task (by simp [hidle])
    exact ⟨by simp [opens?, hidle], ⟨htidy, hplaying.trans h.gone, .inl (hstate.trans hidle)⟩, hstate⟩
  | keeps _ _ nothing other keeps =>
    refine ⟨nothing, ⟨htidy, keeps.playing.trans h.gone, ?_⟩, by rw [keeps.state, other]; rfl⟩
    rw [keeps.state, keeps.quitting]
    exact h.state

theorem Stopped.acts (h : p.Stopped) {later : List (PlayerAct R κa κv σ)} (hrule : p.Unheeded later) :
    p.openedIn later = [] ∧ (p.acts later).playing = none ∧
      (p.acts later).state = if later.any (·.isRequest) then .opening else p.state := by
  induction later generalizing p with
  | nil => exact ⟨rfl, h.gone, rfl⟩
  | cons a later ih =>
    obtain ⟨hnone, hstopped, hstate⟩ := h.act a hrule.1
    obtain ⟨hrest, hgone, hfinal⟩ := ih hstopped hrule.2
    refine ⟨?_, hgone, ?_⟩
    · rw [openedIn, hnone, hrest]; rfl
    · rw [show p.acts (a :: later) = (p.act a).acts later from rfl, hfinal, hstate, List.any_cons]
      cases a.isRequest <;> cases later.any (·.isRequest) <;> rfl

/-! ## After a request -/

/-- The player is opening something: the first of the media that wait. -/
structure Waiting (p : Player R κa κv σ) : Prop where
  tidy : p.loop.Tidy p.now
  running : p.loop.queue.quitting = false
  opening : p.state = .opening
  gone : p.playing = none

/-- A medium was opened or has failed to open, and nothing else will be opened. -/
structure Answered [Source σ R] (media : Media κa κv σ) (p : Player R κa κv σ) : Prop where
  tidy : p.loop.Tidy p.now
  running : p.loop.queue.quitting = false
  idle : p.state ≠ .idle
  opening : p.state ≠ .opening
  outcome : p.playing = some (Source.info media.source) ∨ (p.playing = none ∧ p.state = .error)

omit [Codec κa RawAudioFrame] [Codec κv RawVideoFrame] in
theorem Answered.run (h : Answered media p) (task : PlayerTask R κa κv σ) :
    Answered media (p.run task) := by
  obtain ⟨htidy, -, hquit⟩ := run_tidy h.tidy task
  have hplaying := run_playing task h.opening
  have hturn := p.run_turn task
  -- a task leads to `idle` or to `opening` only by staying there
  refine ⟨htidy, hquit.trans h.running, ?_, ?_, ?_⟩
  · intro hidle
    rw [hidle] at hturn
    generalize hnew : PlaybackState.idle = state at hturn
    cases hturn with
    | stays => exact h.idle hnew.symm
    | _ => cases hnew
  · intro hopening
    rw [hopening] at hturn
    generalize hnew : PlaybackState.opening = state at hturn
    cases hturn with
    | stays => exact h.opening hnew.symm
    | _ => cases hnew
  · rw [hplaying]
    rcases h.outcome with hsome | ⟨hnone, herror⟩
    · exact .inl hsome
    · have hstate := run_gone task hnone (by simp [herror]) (by simp [herror]) (by simp [herror])
      exact .inr ⟨hnone, hstate.trans herror⟩

/-- Once something was opened, the tasks that still wait to open something are passed over. -/
theorem Answered.act (h : Answered media p) (a : PlayerAct R κa κv σ) (hrule : ¬ p.heeds a = true) :
    p.opens? a = none ∧ Answered media (p.act a) := by
  have htidy := act_tidy h.tidy a
  have hunheeds := act_unheeds h.tidy hrule
  generalize p.act a = p' at htidy hunheeds ⊢
  cases hunheeds with
  | refuses => exact ⟨rfl, h⟩
  | fails _ _ quitting => rw [h.running] at quitting; cases quitting
  | runs task loop next =>
    obtain ⟨htidy', -, hquit⟩ := h.tidy.next? next
    have hloop : Answered media ({ p with loop } : Player R κa κv σ) :=
      ⟨htidy', hquit.trans h.running, h.idle, h.opening, h.outcome⟩
    exact ⟨by simp [opens?, h.opening], hloop.run task⟩
  | keeps _ _ nothing _ keeps =>
    refine ⟨nothing, htidy, keeps.quitting.trans h.running, ?_, ?_, ?_⟩
    · rw [keeps.state]; exact h.idle
    · rw [keeps.state]; exact h.opening
    · rw [keeps.state, keeps.playing]; exact h.outcome

theorem Answered.acts (h : Answered media p) {later : List (PlayerAct R κa κv σ)}
    (hrule : p.Unheeded later) : p.openedIn later = [] ∧ Answered media (p.acts later) := by
  induction later generalizing p with
  | nil => exact ⟨rfl, h⟩
  | cons a later ih =>
    obtain ⟨hnone, hanswered⟩ := h.act a hrule.1
    obtain ⟨hrest, hend⟩ := ih hanswered hrule.2
    exact ⟨by rw [openedIn, hnone, hrest]; rfl, hend⟩

omit [Codec κa RawAudioFrame] [Codec κv RawVideoFrame] in
/-- The task that opens the medium answers, with a session of this medium or with a failure. -/
theorem Waiting.answered (h : p.Waiting) (media : Media κa κv σ) :
    Answered media (p.run (.openMedia media)) := by
  obtain ⟨htidy, -, hquit⟩ := run_tidy h.tidy (.openMedia media)
  have hrunning := hquit.trans h.running
  rcases (p.openMedia_cases media h.opening).2.2 with ⟨hstate, hsome⟩ | ⟨hstate, hsame⟩
  · exact ⟨htidy, hrunning, by rw [run, hstate]; simp, by rw [run, hstate]; simp, .inl hsome⟩
  · exact ⟨htidy, hrunning, by rw [run, hstate]; simp, by rw [run, hstate]; simp,
      .inr ⟨hsame.trans h.gone, hstate⟩⟩

/-- A player that is opening something goes on waiting, or opens the first of the media that wait. -/
theorem Waiting.act (h : p.Waiting) (a : PlayerAct R κa κv σ) (hrule : ¬ p.heeds a = true) :
    (p.opens? a = none ∧ (p.act a).Waiting ∧ (p.act a).pendingOpens = p.pendingOpens) ∨
      (∃ media, p.opens? a = some media ∧ p.pendingOpens.head? = some media ∧
        Answered media (p.act a)) := by
  have htidy := act_tidy h.tidy a
  have hunheeds := act_unheeds h.tidy hrule
  generalize p.act a = p' at htidy hunheeds ⊢
  cases hunheeds with
  | refuses => exact .inl ⟨rfl, h, rfl⟩
  | fails _ _ quitting => rw [h.running] at quitting; cases quitting
  | runs task loop next =>
    obtain ⟨htidy', hopens, hquit⟩ := h.tidy.next? next
    have hloop : ({ p with loop } : Player R κa κv σ).Waiting :=
      ⟨htidy', hquit.trans h.running, h.opening, h.gone⟩
    by_cases hmedia : task.medium? = none
    · obtain ⟨-, hpending, hquit'⟩ := run_tidy hloop.tidy task
      have hplaying := (run_works { p with loop } task hmedia).playing
      have hstate := run_gone (p := { p with loop }) task h.gone (by simp [h.opening]) (by simp [h.opening])
        fun _ => hmedia
      refine .inl ⟨by simp [opens?, next, hmedia],
        ⟨htidy, hquit'.trans hloop.running, hstate.trans h.opening, hplaying.trans h.gone⟩, ?_⟩
      rw [hpending]
      show loop.opens = p.loop.opens
      rw [hopens, hmedia]
      rfl
    · cases task with
      | openMedia media =>
        refine .inr ⟨media, by simp [opens?, next, h.opening, PlayerTask.medium?], ?_, hloop.answered media⟩
        show p.loop.opens.head? = some media
        rw [hopens]
        rfl
      | _ => exact absurd rfl hmedia
  | keeps _ _ nothing _ keeps =>
    exact .inl ⟨nothing, ⟨htidy, keeps.quitting.trans h.running, keeps.state.trans h.opening,
      keeps.playing.trans h.gone⟩, keeps.pending⟩

theorem Waiting.acts (h : p.Waiting) {later : List (PlayerAct R κa κv σ)} (hrule : p.Unheeded later) :
    (p.openedIn later = [] ∧ (p.acts later).Waiting ∧ (p.acts later).pendingOpens = p.pendingOpens) ∨
      (∃ media, p.openedIn later = [media] ∧ p.pendingOpens.head? = some media ∧
        Answered media (p.acts later)) := by
  induction later generalizing p with
  | nil => exact .inl ⟨rfl, h, rfl⟩
  | cons a later ih =>
    rcases h.act a hrule.1 with ⟨hnone, hwaiting, hpending⟩ | ⟨media, hmedia, hfirst, hanswered⟩
    · have heq : p.openedIn (a :: later) = (p.act a).openedIn later := by rw [openedIn, hnone]; rfl
      have hrest := ih hwaiting hrule.2
      rw [heq, ← hpending]
      exact hrest
    · obtain ⟨hrest, hend⟩ := hanswered.acts hrule.2
      refine .inr ⟨media, ?_, hfirst, hend⟩
      rw [openedIn, hmedia, hrest]
      rfl

/-! ## Which request is carried out -/

/-- **The oldest request is carried out.** Take any run, then a stop or an accepted request to open, and then
any run in which no further stop or request is heeded.

After a stop nothing is opened, there is no session, and the player is idle, unless a request to open was
refused: that happens only if the player's thread has ended, and leaves the player opening for ever.

After a request, once the player's loop is drained, exactly one medium was opened or has failed to open, and
the session is that of this medium: it is the oldest of those that waited when the request was made, and the
requested one only if none did. -/
theorem opened_after_call (config : PlayerConfig R) (device : AudioDevice) (filter : RateFilter R)
    (before later : List (PlayerAct R κa κv σ)) (call : PlayerAct R κa κv σ) :
    let p := (make config device filter).acts before
    let p' := (p.act call).acts later
    p.heeds call = true → (p.act call).Unheeded later →
    (call = .stop ∨ call = .release →
      (p.act call).openedIn later = [] ∧ p'.session = none ∧
        p'.state = if later.any (·.isRequest) then .opening else .idle) ∧
    (∀ media, call = .requestOpen media → p'.loop.next? p'.now = none →
      let first := p.pendingOpens.headD media
      (p.act call).openedIn later = [first] ∧ p'.state ≠ .idle ∧ p'.state ≠ .opening ∧
        (p'.playing = some (Source.info first.source) ∨ (p'.session = none ∧ p'.state = .error))) := by
  intro p p' hheeds hrule
  have htidy : p.loop.Tidy p.now := acts_tidy config device filter before
  constructor
  · intro hcall
    have hstopped : (p.act call).Stopped ∧ (p.act call).state = .idle := by
      rcases hcall with rfl | rfl
      · exact ⟨stop_stopped htidy, p.stop_state.1⟩
      · exact ⟨release_stopped htidy, p.stop_state.1⟩
    obtain ⟨hopened, hgone, hstate⟩ := hstopped.1.acts hrule
    rw [hstopped.2] at hstate
    exact ⟨hopened, playing_eq_none.mp hgone, hstate⟩
  · rintro media rfl hdrained first
    obtain ⟨closed, running⟩ := (p.heeds_requestOpen media).mp hheeds
    obtain ⟨htidy', hpending, hrunning⟩ := requestOpen_accepted htidy media closed running
    obtain ⟨hopening, hgone⟩ := requestOpen_state media closed
    have hwaiting : (p.act (.requestOpen media)).Waiting :=
      ⟨htidy', hrunning, hopening, playing_eq_none.mpr hgone⟩
    replace hpending : (p.act (.requestOpen media)).pendingOpens = p.pendingOpens ++ [media] := hpending
    rcases hwaiting.acts hrule with ⟨-, hstill, hsame⟩ | ⟨opened, hopened, hhead, hanswered⟩
    · -- the requested medium still waits, so the loop is not drained
      have hempty : p'.pendingOpens = [] := hstill.tidy.drained hstill.running hdrained
      rw [show p'.pendingOpens = _ from hsame, hpending] at hempty
      simp at hempty
    · have hfirst : opened = first := by
        rw [hpending] at hhead
        show opened = p.pendingOpens.headD media
        cases hp : p.pendingOpens <;> simp_all
      rw [← hfirst, ← playing_eq_none]
      exact ⟨hopened, hanswered.idle, hanswered.opening, hanswered.outcome⟩

/-- A medium that cannot be opened is asked for, the player is stopped and asked for another one: the first
request is carried out and fails, and the second one comes to nothing. -/
theorem opened_first_of_two :
    let p : ScriptedPlayer Float := (make .default .obliging .silent).acts [.requestOpen (.mute (.tone 0)), .stop]
    let p' := (p.act (.requestOpen (.audible (.tone 1)))).acts [.step .player, .step .player]
    (p.act (.requestOpen (.audible (.tone 1)))).openedIn [.step .player, .step .player]
        = [.mute (.tone 0)] ∧
      p'.session = none ∧ p'.state = .error := by
  intro p p'
  have hheeds : p.heeds (.requestOpen (.audible (.tone 1))) = true := by decide +kernel
  have hrule : (p.act (.requestOpen (.audible (.tone 1)))).Unheeded [.step .player, .step .player] := by
    decide +kernel
  have hdrained : p'.loop.next? p'.now = none := by
    rw [← Option.isNone_iff_eq_none]
    decide +kernel
  obtain ⟨hopened, -⟩ := (opened_after_call .default .obliging .silent _ _ _ hheeds hrule).2 _ rfl hdrained
  refine ⟨hopened, ?_, by decide +kernel⟩
  rw [← Option.isNone_iff_eq_none]
  decide +kernel

end Player
end Playback
