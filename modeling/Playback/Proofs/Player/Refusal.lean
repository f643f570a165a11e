import Playback.Proofs.Player.Spent
import Playback.Proofs.Player.Stall

/-!
# Seeks that the source refuses

A player that is asked for a seek notes the target at once, and its thread goes from ready or ended to buffering. Only
then the demuxer learns of it, and a source that cannot seek is left alone without a word. So the target stays, and so
does the state, until the next check of the buffers (`seek_refused`):

> the threads come to rest in one state, whatever their order (`refused`): that of before, with the new target, and
> buffering where the player was ready or had ended; the next check lets it be ready if there is enough.

A player that had ended is not ended again: its renderers have reported their ends, and nothing makes them report a
second time (`Spent`).
-/

namespace Playback

variable {R κa κv σ : Type}

/-! ## A task that is posted and taken -/

namespace Loop

variable {α : Type} {l : Loop α} {now : Nat}

/-- The loop after a task was posted and taken. -/
def counted (l : Loop α) : Loop α :=
  { l with queue := { l.queue with nextOrder := l.queue.nextOrder + 1 } }

theorem counted_next? (l : Loop α) (now : Nat) :
    l.counted.next? now = (l.next? now).map fun next => (next.1, next.2.counted) := by
  unfold counted next? MessageQueue.next?
  dsimp only
  split
  next => rfl
  next =>
    cases l.queue.messages with
    | nil => rfl
    | cons m rest =>
      dsimp only
      split <;> rfl

theorem counted_idle (idle : l.next? now = none) : l.counted.next? now = none := by
  rw [counted_next?, idle]
  rfl

/-- In a loop where nothing is due, a new task comes first. -/
theorem post_taken (ordered : l.queue.Ordered) (running : l.queue.quitting = false) (idle : l.next? now = none)
    (task : α) (runner : Option Nat) : (l.post now 0 task runner).2.next? now = some (task, l.counted) := by
  -- all that waits is due later, so the new message goes to the front
  have hfirst (m : Message α) (due : m.due = now) :
      MessageQueue.insert m l.queue.messages = m :: l.queue.messages := by
    cases hmessages : l.queue.messages with
    | nil => rfl
    | cons first rest =>
      have hlater := later ordered running idle first (by rw [hmessages]; exact List.mem_cons_self ..)
      exact if_pos (Message.before_iff.mpr (.inl (by omega)))
  have hnow : now + min 0 maxDelay = now := by simp
  rw [post_running running, hfirst _ hnow]
  simp [next?, MessageQueue.next?, running, counted]

end Loop

/-! ## Rest -/

namespace Session

variable [Scalar R]

/-- The session after its demuxer took a task and refused it. -/
def refused (s : Session R κa κv σ) : Session R κa κv σ :=
  { s with demuxer := { s.demuxer with loop := s.demuxer.loop.counted } }

end Session

namespace Player

variable [Scalar R]

/-- Another session of which as much waits, and as much is left to put out. -/
structure Alike (s s' : Session R κa κv σ) : Prop where
  demuxer : s'.demuxer = s.demuxer
  rests : ∀ now thread, sessionRests s' now thread = sessionRests s now thread
  hasEnough : ∀ config, s'.hasEnough config = s.hasEnough config
  reported : s'.reported = s.reported

theorem Alike.refl (s : Session R κa κv σ) : Alike s s :=
  ⟨rfl, fun _ _ => rfl, fun _ => rfl, rfl⟩

theorem setPaused_alike (s : Session R κa κv σ) (paused : Bool) (time : Nat) : Alike s (s.setPaused paused time) where
  demuxer := rfl
  rests now thread := by
    cases thread with
    | player | demuxer => rfl
    | audioDecoder | audioRenderer => cases h : s.audio <;> simp [sessionRests, Session.setPaused, h] <;> rfl
    | videoDecoder | videoRenderer => cases h : s.video <;> simp [sessionRests, Session.setPaused, h] <;> rfl
  hasEnough config := by
    simp [Session.hasEnough, Session.setPaused, Session.queues, Option.map_map, Function.comp_def]
  reported := Session.setPaused_reported ..

omit [Scalar R] in
/-- The demuxer's thread apart, a session rests as it does with another demuxer. -/
theorem rests_demuxer (s : Session R κa κv σ) (demuxer : Demuxer R σ) (now : Nat) {thread : PlayerThread}
    (h : thread ≠ .demuxer) : sessionRests { s with demuxer } now thread = sessionRests s now thread := by
  cases thread <;> first | rfl | exact absurd rfl h

omit [Scalar R] in
theorem isResting_session {p : Player R κa κv σ} {s : Session R κa κv σ} (hs : p.session = some s)
    {thread : PlayerThread} (h : thread ≠ .player) : p.isResting thread = sessionRests s p.now thread := by
  cases thread <;> first | exact absurd rfl h | simp [isResting, hs]

/-- No thread has anything to do. -/
def Rests (p : Player R κa κv σ) : Prop :=
  ∀ thread, p.isResting thread = true

variable [Codec κa RawAudioFrame] [Codec κv RawVideoFrame] [Source σ R]

/-- Threads that take one step after another, each when it has something to do. -/
def Busy (p : Player R κa κv σ) : List PlayerThread → Prop
  | [] => True
  | thread :: threads => p.isResting thread = false ∧ (p.step thread).Busy threads

theorem Rests.busy_iff {p : Player R κa κv σ} (h : p.Rests) (threads : List PlayerThread) :
    p.Busy threads ↔ threads <+: [] := by
  rw [List.prefix_nil]
  cases threads with
  | nil => exact ⟨fun _ => rfl, fun _ => trivial⟩
  | cons thread threads => simp [Busy, h thread]

/-- If only one thread has something to do, it is the one to take the next step. -/
theorem busy_iff_of_only {p : Player R κa κv σ} {thread : PlayerThread}
    (only : ∀ t, p.isResting t = false ↔ t = thread) {path : List PlayerThread}
    (rest : ∀ threads, (p.step thread).Busy threads ↔ threads <+: path) (threads : List PlayerThread) :
    p.Busy threads ↔ threads <+: thread :: path := by
  rw [List.prefix_cons_iff]
  cases threads with
  | nil => exact ⟨fun _ => .inl rfl, fun _ => trivial⟩
  | cons first later =>
    constructor
    · rintro ⟨hbusy, hlater⟩
      rw [(only first).mp hbusy] at hlater ⊢
      exact .inr ⟨later, rfl, (rest later).mp hlater⟩
    · rintro (h | ⟨_, h, hlater⟩)
      · cases h
      · cases h
        exact ⟨(only _).mpr rfl, (rest later).mpr hlater⟩

/-! ## What becomes of a seek -/

omit [Codec κa RawAudioFrame] [Codec κv RawVideoFrame] [Source σ R] in
/-- What a seek makes of a player at once: what was playing, or had ended, has to buffer. -/
def rebuffered (p : Player R κa κv σ) : Player R κa κv σ :=
  if p.state = .ready ∨ p.state = .ended then p.setState .buffering else p

/-- The player after a seek that the source refused. -/
def refused (p : Player R κa κv σ) (position : R) : Player R κa κv σ :=
  { p.rebuffered with
    seekTarget := some (Scalar.max position 0.0)
    loop := p.loop.counted
    session := p.rebuffered.session.map Session.refused }

section

omit [Codec κa RawAudioFrame] [Codec κv RawVideoFrame] [Source σ R]

theorem rebuffered_eq (p : Player R κa κv σ) : ∃ session events, p.rebuffered = { p with
    state := if p.state = .ready ∨ p.state = .ended then .buffering else p.state, session, events } := by
  unfold rebuffered
  split
  next =>
    obtain ⟨events, henter⟩ := p.enter_eq .buffering
    exact ⟨_, events, by rw [setState, henter]; rfl⟩
  next => exact ⟨p.session, p.events, rfl⟩

@[simp] theorem rebuffered_state (p : Player R κa κv σ) :
    p.rebuffered.state = if p.state = .ready ∨ p.state = .ended then .buffering else p.state := by
  obtain ⟨_, _, h⟩ := p.rebuffered_eq
  rw [h]

@[simp] theorem rebuffered_now (p : Player R κa κv σ) : p.rebuffered.now = p.now := by
  obtain ⟨_, _, h⟩ := p.rebuffered_eq
  rw [h]

@[simp] theorem rebuffered_config (p : Player R κa κv σ) : p.rebuffered.config = p.config := by
  obtain ⟨_, _, h⟩ := p.rebuffered_eq
  rw [h]

theorem rebuffered_never (p : Player R κa κv σ) : p.rebuffered.state ≠ .ready ∧ p.rebuffered.state ≠ .ended := by
  rw [rebuffered_state]
  split
  next => exact ⟨nofun, nofun⟩
  next h => exact not_or.mp h

/-- All that becomes of the session is that it is paused. -/
theorem rebuffered_session {p : Player R κa κv σ} {s : Session R κa κv σ} (hs : p.session = some s) :
    ∃ s', p.rebuffered.session = some s' ∧ Alike s s' := by
  unfold rebuffered
  split
  next => exact ⟨_, by simp only [setState, applyPlayback, enter_session, hs, Option.map_some]; rfl, setPaused_alike ..⟩
  next => exact ⟨s, hs, .refl s⟩

theorem runSeek_eq {p : Player R κa κv σ} {s : Session R κa κv σ} (hs : p.session = some s) (position : R) :
    p.runSeek position = { p.rebuffered with
      session := p.rebuffered.session.map fun s =>
        { s with demuxer := s.demuxer.requestSeek p.rebuffered.now position } } := by
  unfold runSeek
  rw [hs]
  rfl

theorem rebuffered_loop (p : Player R κa κv σ) (loop : Loop (PlayerTask R κa κv σ)) (seekTarget : Option R) :
    { p with loop, seekTarget }.rebuffered = { p.rebuffered with loop, seekTarget } := by
  unfold rebuffered setState enter applyPlayback
  dsimp only
  split
  next => split <;> rfl
  next => rfl

end

/-- A player with a session of which no thread has anything to do, but can be given something. -/
structure AtRest (p : Player R κa κv σ) (s : Session R κa κv σ) : Prop where
  alive : p.session = some s
  rests : p.Rests
  ordered : p.loop.queue.Ordered
  running : p.loop.queue.quitting = false
  demuxer : s.demuxer.Running p.now

section

variable {p : Player R κa κv σ} {s : Session R κa κv σ}

omit [Scalar R] [Codec κa RawAudioFrame] [Codec κv RawVideoFrame] [Source σ R]

theorem isEnding_running {α : Type} {l : Loop α} (running : l.queue.quitting = false) : l.isEnding = false := by
  simp [Loop.isEnding, running]

theorem AtRest.idle (h : p.AtRest s) : p.loop.next? p.now = none := by
  have hrests := h.rests .player
  simpa [isResting, isEnding_running h.running] using hrests

theorem AtRest.sessionRests (h : p.AtRest s) (thread : PlayerThread) :
    Player.sessionRests s p.now thread = true := by
  by_cases hthread : thread = .player
  · rw [hthread]
    rfl
  · rw [← isResting_session h.alive hthread]
    exact h.rests thread

theorem AtRest.waits (h : p.AtRest s) : s.demuxer.reading = none ∧ s.demuxer.loop.next? p.now = none := by
  have hrests : s.demuxer.isResting p.now = true := h.sessionRests .demuxer
  simp only [Demuxer.isResting, Bool.and_eq_true, Option.isNone_iff_eq_none] at hrests
  exact ⟨hrests.1.1, hrests.2⟩

/-- The player's thread rests again once it has taken what it was given. -/
theorem AtRest.counted_rests (h : p.AtRest s) {p' : Player R κa κv σ} (now : p'.now = p.now)
    (loop : p'.loop = p.loop.counted) : p'.isResting .player = true := by
  have hrunning : p.loop.counted.queue.quitting = false := h.running
  simp [isResting, now, loop, isEnding_running hrunning, Loop.counted_idle h.idle]

end

/-- The player after its thread took a seek, of which the demuxer's thread does not know yet. -/
def sought (p : Player R κa κv σ) (position : R) : Player R κa κv σ :=
  let seek (s : Session R κa κv σ) : Session R κa κv σ :=
    { s with demuxer := s.demuxer.requestSeek p.rebuffered.now position }
  { p.rebuffered with
    seekTarget := some (Scalar.max position 0.0)
    loop := p.loop.counted
    session := p.rebuffered.session.map seek }

namespace AtRest

variable {p : Player R κa κv σ} {s : Session R κa κv σ}

omit [Codec κa RawAudioFrame] [Codec κv RawVideoFrame] [Source σ R] in
/-- The task that the player's thread has got. -/
theorem seek_next? (h : p.AtRest s) (position : R) :
    (p.seek position).loop.next? p.now = some (.seek position, p.loop.counted) :=
  Loop.post_taken h.ordered h.running h.idle ..

omit [Codec κa RawAudioFrame] [Codec κv RawVideoFrame] [Source σ R] in
theorem seek_only (h : p.AtRest s) (position : R) (thread : PlayerThread) :
    (p.seek position).isResting thread = false ↔ thread = .player := by
  by_cases hthread : thread = .player
  · have hnext := h.seek_next? position
    have hbusy : (p.seek position).isResting .player = false := by
      show (!(p.seek position).loop.isEnding && ((p.seek position).loop.next? p.now).isNone) = false
      rw [hnext, Option.isNone_some, Bool.and_false]
    rw [hthread]
    exact ⟨fun _ => rfl, fun _ => hbusy⟩
  · have hrests : (p.seek position).isResting thread = true := by
      have hs : (p.seek position).session = some s := h.alive
      rw [isResting_session hs hthread]
      exact h.sessionRests thread
    simp [hrests, hthread]

theorem seek_turn (h : p.AtRest s) (position : R) : (p.seek position).step .player = p.sought position := by
  have hnext := h.seek_next? position
  have hseek := rebuffered_loop p p.loop.counted (some (Scalar.max position 0.0))
  have hrun := runSeek_eq (p := { p with loop := p.loop.counted, seekTarget := some (Scalar.max position 0.0) })
    h.alive position
  rw [hseek] at hrun
  unfold step
  dsimp only
  rw [show (p.seek position).now = p.now from rfl, hnext]
  exact hrun

omit [Scalar R] [Codec κa RawAudioFrame] [Codec κv RawVideoFrame] [Source σ R] in
/-- The task that the demuxer's thread has got. -/
theorem sought_next? (h : p.AtRest s) (position : R) :
    (s.demuxer.requestSeek p.now position).loop.next? p.now = some (.seek position, s.demuxer.loop.counted) := by
  obtain ⟨config, hsteady⟩ := h.demuxer.steady
  exact Loop.post_taken hsteady.paced.ordered (hsteady.ended.trans h.demuxer.stopped) h.waits.2 ..

omit [Codec κa RawAudioFrame] [Codec κv RawVideoFrame] [Source σ R] in
theorem sought_session (h : p.AtRest s) (position : R) : ∃ s', Alike s s' ∧ p.rebuffered.session = some s' ∧
    (p.sought position).session = some { s' with demuxer := s.demuxer.requestSeek p.now position } := by
  obtain ⟨s', hs', halike⟩ := rebuffered_session h.alive
  refine ⟨s', halike, hs', ?_⟩
  simp only [sought, hs', Option.map_some, halike.demuxer, rebuffered_now]

omit [Codec κa RawAudioFrame] [Codec κv RawVideoFrame] [Source σ R] in
/-- The demuxer's thread is the one that has something to do now. -/
theorem sought_only (h : p.AtRest s) (position : R) (thread : PlayerThread) :
    (p.sought position).isResting thread = false ↔ thread = .demuxer := by
  obtain ⟨s', halike, -, hs'⟩ := h.sought_session position
  have hnow : (p.sought position).now = p.now := p.rebuffered_now
  by_cases hthread : thread = .demuxer
  · have hbusy : (s.demuxer.requestSeek p.now position).isResting p.now = false := by
      simp [Demuxer.isResting, h.sought_next? position]
    rw [isResting_session hs' (by simp [hthread]), hnow, hthread]
    exact ⟨fun _ => rfl, fun _ => hbusy⟩
  · have hrests : (p.sought position).isResting thread = true := by
      by_cases hplayer : thread = .player
      · rw [hplayer]
        exact h.counted_rests hnow rfl
      · rw [isResting_session hs' hplayer, hnow, rests_demuxer s' _ p.now hthread, halike.rests]
        exact h.sessionRests thread
    simp [hrests, hthread]

/-- The source refuses, and nobody is told. -/
theorem sought_turn (h : p.AtRest s) (refuses : Source.isSeekable s.demuxer.source = false) (position : R) :
    (p.sought position).step .demuxer = p.refused position := by
  obtain ⟨s', halike, hrebuffered, hs'⟩ := h.sought_session position
  have hnow : (p.sought position).now = p.now := p.rebuffered_now
  have hstep (queues : List StreamQueue) (m : MediaClock R) :
      (s.demuxer.requestSeek p.now position).step queues m p.now
        = ⟨{ s.demuxer with loop := s.demuxer.loop.counted }, queues, m, none⟩ := by
    have hreading : (s.demuxer.requestSeek p.now position).reading = none := h.waits.1
    unfold Demuxer.step
    rw [hreading]
    dsimp only
    rw [h.sought_next? position]
    dsimp only
    simp [Demuxer.seek, Demuxer.requestSeek, refuses, h.waits.1]
  have hsession : stepSession { s' with demuxer := s.demuxer.requestSeek p.now position } (p.sought position).now
      .demuxer = ([], s'.refused) := by
    unfold stepSession
    dsimp only
    rw [hnow, hstep]
    exact congrArg (Prod.mk []) ((Session.setQueues_self _).trans (by rw [← halike.demuxer]; rfl))
  have hother : PlayerThread.demuxer ≠ .player := nofun
  rw [step_eq hs' hother, hsession]
  show { p.sought position with session := some s'.refused } = p.refused position
  rw [← Option.map_some, ← hrebuffered]
  rfl

omit [Codec κa RawAudioFrame] [Codec κv RawVideoFrame] [Source σ R] in
theorem refused_session (h : p.AtRest s) (position : R) :
    ∃ s', Alike s s' ∧ (p.refused position).session = some s'.refused := by
  obtain ⟨s', hs', halike⟩ := rebuffered_session h.alive
  exact ⟨s', halike, by simp only [refused, hs', Option.map_some]⟩

omit [Codec κa RawAudioFrame] [Codec κv RawVideoFrame] [Source σ R] in
theorem refused_rests (h : p.AtRest s) (position : R) : (p.refused position).Rests := by
  obtain ⟨s', halike, hsession⟩ := h.refused_session position
  have hnow : (p.refused position).now = p.now := p.rebuffered_now
  intro thread
  by_cases hplayer : thread = .player
  · rw [hplayer]
    exact h.counted_rests hnow rfl
  · rw [isResting_session hsession hplayer, hnow]
    by_cases hthread : thread = .demuxer
    · obtain ⟨config, hsteady⟩ := h.demuxer.steady
      have hidle := Loop.counted_idle h.waits.2
      have hrunning : s.demuxer.loop.counted.queue.quitting = false := hsteady.ended.trans h.demuxer.stopped
      -- its loop is the one of before, but for the number of messages so far
      rw [hthread]
      show Demuxer.isResting { s'.demuxer with loop := s'.demuxer.loop.counted } p.now = true
      rw [halike.demuxer]
      simp [Demuxer.isResting, h.waits.1, isEnding_running hrunning, hidle]
    · rw [Session.refused, rests_demuxer s' _ p.now hthread, halike.rests]
      exact h.sessionRests thread

/-- The threads come to rest in one way only. -/
theorem busy_iff (h : p.AtRest s) (refuses : Source.isSeekable s.demuxer.source = false) (position : R)
    (threads : List PlayerThread) : (p.seek position).Busy threads ↔ threads <+: [.player, .demuxer] := by
  refine busy_iff_of_only (h.seek_only position) (fun threads => ?_) threads
  rw [h.seek_turn]
  refine busy_iff_of_only (h.sought_only position) (fun threads => ?_) threads
  rw [h.sought_turn refuses]
  exact (h.refused_rests position).busy_iff threads

end AtRest

/-! ## What follows -/

omit [Codec κa RawAudioFrame] [Codec κv RawVideoFrame] [Source σ R] in
/-- Where a check of the buffers leads a player that is not ready. -/
theorem checkBuffering_state {p : Player R κa κv σ} {s : Session R κa κv σ} (hs : p.session = some s)
    (h : p.state ≠ .ready) : p.checkBuffering.state =
      if p.state = .buffering then if s.hasEnough p.config.buffer then .ready else .buffering else p.state := by
  unfold checkBuffering
  rw [hs]
  dsimp only
  split
  next hlow =>
    rw [if_pos hlow]
    split
    next => exact setState_state ..
    next => exact hlow
  next hready => exact absurd hready h
  next hlow _ => rw [if_neg hlow]

theorem acts_atRest (config : PlayerConfig R) (device : AudioDevice) (filter : RateFilter R)
    (before : List (PlayerAct R κa κv σ))
    {s : Session R κa κv σ} (alive : ((make config device filter).acts before).session = some s)
    (rests : ((make config device filter : Player R κa κv σ).acts before).Rests) :
    ((make config device filter).acts before).AtRest s := by
  have hnew : (make config device filter : Player R κa κv σ).loop.queue.quitting = true →
      (make config device filter : Player R κa κv σ).Released := nofun
  refine ⟨alive, rests, (acts_tidy config device filter before).ordered, ?_, ?_⟩
  · -- only a release ends the loop, and a released player has no session
    rw [← Bool.not_eq_true]
    intro hquit
    have hreleased := (released_acts before (make_tidy config device filter) hnew).2 hquit
    rw [hreleased.session] at alive
    cases alive
  · exact (acts_running config device filter before).2 s.demuxer (by rw [demuxer?, alive]; rfl)

namespace AtRest

variable {p : Player R κa κv σ} {s : Session R κa κv σ}

omit [Codec κa RawAudioFrame] [Codec κv RawVideoFrame] [Source σ R] [Scalar R] in
/-- While the player's thread rests, only the tasks wait that come again. -/
theorem periodic (h : p.AtRest s) (punctual : p.Punctual) : p.loop.Holds PlayerTask.isPeriodic := by
  intro m hm
  have hlater := Loop.later h.ordered h.running h.idle m hm
  exact (punctual m hm).resolve_right (Nat.not_le_of_lt hlater)

/-- The thread goes on with a report of the status, or with a check that asks only whether there is enough. -/
theorem refused_next (h : p.AtRest s) (periodic : p.loop.Holds PlayerTask.isPeriodic) (position : R) {nanos : Nat}
    {task : PlayerTask R κa κv σ} {loop : Loop (PlayerTask R κa κv σ)} :
    let q := p.refused position
    (q.advance nanos).loop.next? (q.advance nanos).now = some (task, loop) →
      task = .reportStatus ∨ (task = .checkBuffering ∧ ((q.advance nanos).step .player).state =
        if q.state = .buffering then if s.hasEnough p.config.buffer then .ready else .buffering else q.state) := by
  intro q hnext
  obtain ⟨s', halike, hsession⟩ := h.refused_session position
  obtain ⟨m, hm, rfl⟩ := (Loop.mem_next? hnext).1
  have htask : m.task.isPeriodic = true := periodic m hm
  generalize m.task = task at hnext htask
  cases task with
  | checkBuffering =>
    have hcheck := checkBuffering_state (p := { q.advance nanos with loop }) hsession p.rebuffered_never.1
    refine .inr ⟨rfl, ?_⟩
    unfold step
    dsimp only
    rw [hnext]
    refine hcheck.trans ?_
    rw [← halike.hasEnough, ← rebuffered_config p]
    rfl
  | reportStatus => exact .inl rfl
  | _ => cases htask

omit [Codec κa RawAudioFrame] [Codec κv RawVideoFrame] in
/-- Nothing can bring an end if all have been reported. -/
theorem refused_spent (h : p.AtRest s) (periodic : p.loop.Holds PlayerTask.isPeriodic) (position : R)
    (fixed : Source.Fixed s.demuxer.source) (reported : s.Reported) : (p.refused position).Spent := by
  obtain ⟨s', halike, hsession⟩ := h.refused_session position
  refine ⟨p.rebuffered_never.2, fun m hm => PlayerTask.isPeriodic_bringsEnd (periodic m hm), ?_, ?_⟩
  · intro d hd
    rw [demuxer?, hsession] at hd
    cases hd
    show Source.Fixed s'.demuxer.source
    rw [halike.demuxer]
    exact fixed
  · intro s'' hs''
    rw [hsession] at hs''
    cases hs''
    exact reported.of_eq halike.reported

end AtRest

/-- **Seeks that the source refuses.** In every run in which all threads of a session rest whose source cannot seek, a
call to seek leads to rest in one way only: the player's thread takes the task, and the demuxer refuses. Nobody undoes
what the player did by then. The position, while the master clock gives none, is that of the refused target. A player
that was ready or had ended buffers, and at the next check it is ready if there is enough, which it is at the end of
the source. And if the renderers have reported their ends, and the source cannot seek later either, then the player
does not end again before a new medium is opened, whatever happens. -/
theorem seek_refused (config : PlayerConfig R) (device : AudioDevice) (filter : RateFilter R)
    (before : List (PlayerAct R κa κv σ)) (position : R) (s : Session R κa κv σ) :
    let p : Player R κa κv σ := (make config device filter).acts before
    let q := p.refused position
    p.session = some s → p.Rests → Source.isSeekable s.demuxer.source = false →
      ((∀ threads, (p.seek position).Busy threads ↔ threads <+: [.player, .demuxer]) ∧
        ((p.seek position).step .player).step .demuxer = q ∧ q.Rests) ∧
      ((∀ s' ∈ q.session, Scalar.isNaN (s'.clock.readMaster s'.live (Scalar.ofNanos q.now)) = true) →
        q.position = Scalar.max position 0.0) ∧
      q.state = (if p.state = .ready ∨ p.state = .ended then .buffering else p.state) ∧
      (∀ nanos task loop, (q.advance nanos).loop.next? (q.advance nanos).now = some (task, loop) →
        task = .reportStatus ∨ (task = .checkBuffering ∧ ((q.advance nanos).step .player).state =
          if q.state = .buffering then if s.hasEnough p.config.buffer then .ready else .buffering else q.state)) ∧
      (Source.Fixed s.demuxer.source → s.Reported →
        ∀ later, (∀ a ∈ later, a.isRequest = false) → (q.acts later).state ≠ .ended) := by
  intro p q alive rests refuses
  have hrest : p.AtRest s := acts_atRest config device filter before alive rests
  have hperiodic : p.loop.Holds PlayerTask.isPeriodic := hrest.periodic (acts_running config device filter before).1
  refine ⟨⟨hrest.busy_iff refuses position, ?_, hrest.refused_rests position⟩, fun hnan => ?_, p.rebuffered_state,
    fun nanos task loop hnext => hrest.refused_next hperiodic position hnext, fun hfixed hreported later rule => ?_⟩
  · rw [hrest.seek_turn, hrest.sought_turn refuses]
  · obtain ⟨s', -, hsession⟩ := hrest.refused_session position
    unfold Player.position
    rw [hsession, Option.map_some, Option.getD_some]
    exact if_pos (hnan _ hsession)
  · have hspent : q.Spent := hrest.refused_spent hperiodic position hfixed hreported
    exact (hspent.acts rule).state

/-! A player that has ended, with a source that cannot seek. -/

/-- A tone from such a source is played to its end. -/
def untilEnded : List (PlayerAct Float (ScriptedCodec RawAudioFrame) (ScriptedCodec RawVideoFrame)
    (ScriptedSource Float)) :=
  List.flatten [
    [.requestOpen (.audible { ScriptedSource.tone 1 with seekable := false }), .setPlayWhenReady true],
    List.replicate 2 (.step .player), List.replicate 3 (.step .demuxer),
    [.step .player, .step .audioRenderer], List.replicate 21 (.step .audioDecoder), [.step .audioRenderer],
    List.replicate 14 (.step .audioDecoder), [.step .audioRenderer, .advance 50000000, .step .player],
    List.replicate 2 (.step .demuxer), [.pull [0, 0, 0, 0], .pull [0], .step .player],
    List.replicate 2 (.step .audioRenderer)]

theorem ended_tone_refuses :
    let p : ScriptedPlayer Float := (make .default .obliging .silent).acts untilEnded
    let q := p.refused 5.0
    p.state = .ended ∧ p.Rests ∧ ((p.seek 5.0).step .player).step .demuxer = q ∧ q.Rests ∧
      ((q.advance 50000000).step .player).state = .ready ∧
      ∀ later, (∀ a ∈ later, PlayerAct.isRequest a = false) → (q.acts later).state ≠ .ended := by
  intro p q
  have hended : p.state = .ended := by decide +kernel
  have hrests : p.Rests := by
    have hall : PlayerThread.all.all p.isResting = true := by decide +kernel
    exact fun thread => List.all_eq_true.mp hall thread (by cases thread <;> decide)
  obtain ⟨s, hs, hrefuses, hreported⟩ : ∃ s ∈ p.session, s.demuxer.source.seekable = false ∧ s.Reported := by
    decide +kernel
  have hready : ((q.advance 50000000).step .player).state = .ready := by decide +kernel
  obtain ⟨⟨-, hturns, hrest⟩, -, -, -, hnever⟩ :=
    seek_refused .default .obliging .silent untilEnded 5.0 s hs hrests hrefuses
  exact ⟨hended, hrests, hturns, hrest, hready, hnever (ScriptedSource.fixed hrefuses) hreported⟩

end Player
end Playback
