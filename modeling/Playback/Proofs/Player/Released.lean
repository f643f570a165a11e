import Playback.Proofs.Player.Requests

/-!
# Requests that are refused

A request to open a medium can be refused for two reasons. If the state does not allow it, nothing happens.
If the player was released, its thread has ended, which only shows when the task is posted; by then the player
has already entered the new state. So (`open_refused`):

> a refused request changes nothing, unless the player was released and is idle; then it leaves the player
> opening, and every later request is refused for that state.

What a released player looks like is the invariant `Released`: nothing waits, nothing is open, and only calls
still move it between idle and opening.
-/

namespace Playback

variable {R κa κv σ : Type}

/-- A queue without messages has nothing to take back. -/
theorem Loop.remove_empty {α : Type} {l : Loop α} (drained : l.queue.messages = []) (runner : Nat)
    (taskId : Option Nat) : (l.remove runner taskId).2 = l := by
  obtain ⟨name, ⟨messages, nextOrder, quitting⟩, stage, runners⟩ := l
  cases drained
  rfl

namespace Player

variable {p : Player R κa κv σ}

/-- A player whose thread has ended. -/
structure Released (p : Player R κa κv σ) : Prop where
  quitting : p.loop.queue.quitting = true
  drained : p.loop.queue.messages = []
  session : p.session = none
  mediaInfo : p.mediaInfo = none
  state : p.state = .idle ∨ p.state = .opening

/-- Nothing waits that did not wait before, and what is open stays the same. -/
structure Released.Same (p p' : Player R κa κv σ) : Prop where
  loop : p'.loop.queue = p.loop.queue
  session : p'.session = p.session
  mediaInfo : p'.mediaInfo = p.mediaInfo

theorem Released.of_same (h : p.Released) {p' : Player R κa κv σ} (same : Released.Same p p')
    (state : p'.state = .idle ∨ p'.state = .opening) : p'.Released :=
  ⟨by rw [same.loop]; exact h.quitting, by rw [same.loop]; exact h.drained, same.session.trans h.session,
    same.mediaInfo.trans h.mediaInfo, state⟩

theorem requestOpen_stated (media : Media κa κv σ) (h : ¬ p.Closed) : p.requestOpen media =
    (.error (.state ("当前状态 " ++ p.state.title ++ " 不能打开新的媒体")), p) :=
  if_neg h

theorem post_ended (quitting : p.loop.queue.quitting = true) (task : PlayerTask R κa κv σ)
    (delay taskId : Nat) : p.post task delay taskId = (false, p) := by
  unfold post
  rw [Loop.post_refused quitting]

namespace Released

theorem stopSession (h : p.Released) : p.stopSession = { p with seekTarget := none } := by
  have hloop : ((p.loop.remove p.runner (some PlayerTask.statusId)).2.remove p.runner
      (some PlayerTask.bufferingId)).2 = p.loop := by
    rw [Loop.remove_empty h.drained, Loop.remove_empty h.drained]
  have hsession := h.session
  have hmediaInfo := h.mediaInfo
  obtain ⟨⟩ := p
  dsimp only at hloop hsession hmediaInfo
  subst hsession hmediaInfo
  simp [Player.stopSession, hloop]

theorem stop (h : p.Released) : ∃ events, p.stop = { p with state := .idle, seekTarget := none, events } := by
  obtain ⟨events, henter⟩ := p.stopSession.enter_eq .idle
  exact ⟨events, by rw [Player.stop, henter, h.stopSession]⟩

theorem post (h : p.Released) {p' : Player R κa κv σ} (same : Same p p') (state : p'.state = p.state)
    (task : PlayerTask R κa κv σ) : (p'.post task).2.Released := by
  rw [post_ended (by rw [same.loop]; exact h.quitting)]
  exact h.of_same same (by rw [state]; exact h.state)

/-- The request is refused, but only after the player has entered the new state. -/
theorem requestOpen (h : p.Released) (idle : p.state = .idle) (media : Media κa κv σ) :
    p.requestOpen media = (.error (.loopGone "播放器线程已退出"),
      { p with state := .opening, seekTarget := none, events := .stateChanged .opening :: p.events }) := by
  have henter : p.stopSession.enter .opening =
      { p with state := .opening, seekTarget := none, events := .stateChanged .opening :: p.events } := by
    rw [h.stopSession, enter, if_neg (by simp [idle])]
    rfl
  have hpost := post_ended (p := p.stopSession.enter .opening) (by rw [henter]; exact h.quitting)
    (.openMedia media) 0 0
  unfold Player.requestOpen
  rw [if_pos (.inl idle), hpost, henter]

end Released

variable [Scalar R] [Codec κa RawAudioFrame] [Codec κv RawVideoFrame] [Source σ R]

/-- Only calls still have an effect. -/
theorem Released.act (h : p.Released) (a : PlayerAct R κa κv σ) : (p.act a).Released := by
  have hnext : p.loop.next? p.now = none := by simp [Loop.next?, MessageQueue.next?, h.quitting]
  cases a with
  | requestOpen media =>
    rcases h.state with idle | opening
    · show (p.requestOpen media).2.Released
      rw [h.requestOpen idle media]
      exact h.of_same ⟨rfl, rfl, rfl⟩ (.inr rfl)
    · obtain ⟨e, hrefused⟩ := requestOpen_refused (p := p) media (by simp [Closed, opening])
      show (p.requestOpen media).2.Released
      rw [hrefused]
      exact h
  | stop =>
    obtain ⟨events, hstop⟩ := h.stop
    show p.stop.Released
    rw [hstop]
    exact h.of_same ⟨rfl, rfl, rfl⟩ (.inl rfl)
  | release =>
    obtain ⟨events, hstop⟩ := h.stop
    have hquit : p.loop.quit.queue = p.loop.queue := by simp [Loop.quit, MessageQueue.quit, h.quitting]
    show p.release.Released
    rw [release, hstop]
    exact h.of_same ⟨hquit, rfl, rfl⟩ (.inl rfl)
  | seek | setPlayWhenReady | setVolume | setMuted => exact h.post (by constructor <;> rfl) (by rfl) _
  | pull out =>
    show (p.pull out).2.Released
    rw [pull_silent (by rw [h.session]; rfl)]
    exact h
  | advance nanos => exact h.of_same ⟨rfl, rfl, rfl⟩ h.state
  | step thread =>
    show (p.step thread).Released
    by_cases hthread : thread = .player
    · subst hthread
      unfold step
      rw [hnext]
      dsimp only
      split
      next => exact h.of_same ⟨rfl, rfl, rfl⟩ h.state
      next => exact h
    · rw [step_gone h.session hthread]
      exact h

omit [Scalar R] [Codec κa RawAudioFrame] [Codec κv RawVideoFrame] [Source σ R] in
theorem Released.stopped (h : p.Released) : p.Stopped where
  tidy := by
    refine ⟨⟨?_, fun m hm => ?_⟩, fun m hm => ?_⟩
    · rw [h.drained]; exact .nil
    · rw [h.drained] at hm; cases hm
    · rw [h.drained] at hm; cases hm
  gone := playing_eq_none.mpr h.session
  state := h.state.imp_right fun opening => ⟨opening, h.quitting⟩

/-- Only a stop takes a released player out of opening. -/
theorem Released.opening_acts (h : p.Released) (opening : p.state = .opening)
    {later : List (PlayerAct R κa κv σ)} (going : ∀ a ∈ later, a ≠ .stop ∧ a ≠ .release) :
    (p.acts later).state = .opening := by
  induction later generalizing p with
  | nil => exact opening
  | cons a later ih =>
    obtain ⟨hstop, hrelease⟩ := going a (List.mem_cons_self ..)
    have hunheeded : ¬ p.heeds a = true := by
      cases a with
      | requestOpen media => simp [heeds_requestOpen, h.quitting]
      | stop => exact absurd rfl hstop
      | release => exact absurd rfl hrelease
      | _ => exact Bool.false_ne_true
    obtain ⟨-, -, hstate⟩ := h.stopped.act a hunheeded
    refine ih (h.act a) ?_ fun b hb => going b (List.mem_cons_of_mem _ hb)
    rw [hstate, opening, ite_self]

/-! ## Who is released -/

/-- The thread ends by the release, and by nothing else. -/
theorem act_quitting (h : p.loop.Tidy p.now) (a : PlayerAct R κa κv σ) :
    (p.act a).loop.queue.quitting = true ↔ p.loop.queue.quitting = true ∨ a = .release := by
  have hsame {p' : Player R κa κv σ} (hother : a ≠ .release)
      (heq : p'.loop.queue.quitting = p.loop.queue.quitting) :
      p'.loop.queue.quitting = true ↔ p.loop.queue.quitting = true ∨ a = .release := by
    rw [heq]
    simp [hother]
  have hdoes := p.act_does a
  generalize p.act a = p' at hdoes ⊢
  cases hdoes with
  | works _ _ quiet works => exact hsame (by rintro rfl; cases quiet) (works.tidy h).2.2
  | refuses | waits => exact hsame nofun rfl
  | requests media closed =>
    cases hquit : p.loop.queue.quitting with
    | true => simp [(requestOpen_ended h media closed hquit).2]
    | false => simp [(requestOpen_accepted h media closed hquit).2.2]
  | stops => exact hsame nofun (stop_tidy h).2.2
  | releases => exact iff_of_true p.stop.loop.quit_quitting (.inr rfl)
  | runs task loop next =>
    obtain ⟨htidy, -, hquit⟩ := h.next? next
    exact hsame nofun ((run_tidy (p := { p with loop }) htidy task).2.2.trans hquit)
  | rests loop _ queue => exact hsame nofun (by rw [queue])

omit [Scalar R] [Codec κa RawAudioFrame] [Codec κv RawVideoFrame] [Source σ R] in
theorem release_released (tidy : p.loop.Tidy p.now) (h : p.loop.queue.quitting = true → p.Released) :
    p.release.Released where
  quitting := p.stop.loop.quit_quitting
  drained := Loop.quit_drained fun hquit => by
    have hreleased := h ((stop_tidy tidy).2.2.symm.trans hquit)
    obtain ⟨events, hstop⟩ := hreleased.stop
    rw [hstop]
    exact hreleased.drained
  session := p.stop_state.2
  mediaInfo := by
    obtain ⟨events, henter⟩ := p.stopSession.enter_eq .idle
    rw [release, Player.stop, henter]
    rfl
  state := .inl p.stop_state.1

/-- The invariant: a player is released exactly if its thread has ended. -/
theorem released_acts (as : List (PlayerAct R κa κv σ)) (tidy : p.loop.Tidy p.now)
    (h : p.loop.queue.quitting = true → p.Released) :
    ((p.acts as).loop.queue.quitting = true ↔ p.loop.queue.quitting = true ∨ .release ∈ as) ∧
      ((p.acts as).loop.queue.quitting = true → (p.acts as).Released) := by
  induction as generalizing p with
  | nil => exact ⟨by simp [acts], h⟩
  | cons a as ih =>
    have hquit := act_quitting tidy a
    have hact : (p.act a).loop.queue.quitting = true → (p.act a).Released := by
      intro hended
      rcases hquit.mp hended with hbefore | rfl
      · exact (h hbefore).act a
      · exact release_released tidy h
    obtain ⟨hiff, hreleased⟩ := ih (act_tidy tidy a) hact
    refine ⟨?_, hreleased⟩
    rw [show p.acts (a :: as) = (p.act a).acts as from rfl, hiff, hquit, List.mem_cons, or_assoc]
    simp only [eq_comm]

/-- **Refused requests.** In every run: a request is accepted exactly if the state allows it and the player was
not released. Refused for the state, it says so and changes nothing. A released player whose state allows it
is idle, with nothing open; it refuses as well, but goes from idle to opening, reports that and forgets the
target of the last seek. From then on, whatever happens but a stop or another release, every request is
refused for the state. -/
theorem open_refused (config : PlayerConfig R) (device : AudioDevice) (filter : RateFilter R)
    (before : List (PlayerAct R κa κv σ)) (media : Media κa κv σ) :
    let p : Player R κa κv σ := (make config device filter).acts before
    let p' := (p.requestOpen media).2
    ((p.requestOpen media).1 = .ok () ↔ p.Closed ∧ .release ∉ before) ∧
    (¬ p.Closed → p.requestOpen media =
      (.error (.state ("当前状态 " ++ p.state.title ++ " 不能打开新的媒体")), p)) ∧
    (p.Closed → .release ∈ before →
      p.state = .idle ∧ p.session = none ∧ p.mediaInfo = none ∧
      p.requestOpen media = (.error (.loopGone "播放器线程已退出"),
        { p with state := .opening, seekTarget := none, events := .stateChanged .opening :: p.events }) ∧
      ∀ later, (∀ a ∈ later, a ≠ .stop ∧ a ≠ .release) → ∀ other,
        (p'.acts later).requestOpen other =
          (.error (.state "当前状态 Opening 不能打开新的媒体"), p'.acts later)) := by
  intro p p'
  have hnew : (make config device filter : Player R κa κv σ).loop.queue.quitting = true →
      (make config device filter : Player R κa κv σ).Released := nofun
  obtain ⟨hquit, hreleased⟩ := released_acts before (make_tidy config device filter) hnew
  replace hquit : p.loop.queue.quitting = true ↔ .release ∈ before :=
    hquit.trans ⟨fun h => h.resolve_left nofun, .inr⟩
  refine ⟨?_, requestOpen_stated media, fun closed hrelease => ?_⟩
  · have hrunning : p.loop.queue.quitting = false ↔ .release ∉ before := by
      rw [← Bool.not_eq_true, hquit]
    rw [← hrunning, ← p.heeds_requestOpen media]
    show _ ↔ (p.requestOpen media).1.toBool = true
    cases (p.requestOpen media).1 <;> simp [Except.toBool]
  · have h : p.Released := hreleased (hquit.mpr hrelease)
    have hidle : p.state = .idle := by
      rcases h.state with idle | opening
      · exact idle
      · simp [Closed, opening] at closed
    have hrefused := h.requestOpen hidle media
    refine ⟨hidle, h.session, h.mediaInfo, hrefused, fun later going other => ?_⟩
    have hp' : p'.Released := h.act (.requestOpen media)
    have hopening : (p'.acts later).state = .opening :=
      hp'.opening_acts (requestOpen_state media closed).1 going
    have hclosed : ¬ (p'.acts later).Closed := by simp [Closed, hopening]
    rw [requestOpen_stated other hclosed, hopening]
    rfl

/-- A released player is asked twice: it refuses the first request as it should, but reports a change of state,
and refuses the second one for the state that the first one left. -/
theorem opening_after_release :
    let p : ScriptedPlayer Float := (make .default .obliging .silent).acts [.release]
    let p' := (p.requestOpen (.audible (.tone 1))).2
    p.Closed ∧ p.state = .idle ∧ (p.requestOpen (.audible (.tone 1))).1 = .error (.loopGone "播放器线程已退出") ∧
      p'.state = .opening ∧ p'.events.length = p.events.length + 1 ∧ ¬ p'.Closed ∧
      p'.requestOpen (.audible (.tone 1)) = (.error (.state "当前状态 Opening 不能打开新的媒体"), p') := by
  intro p p'
  have hclosed : p.Closed := .inl rfl
  obtain ⟨-, -, hreleased⟩ :=
    open_refused .default .obliging .silent [.release] (Media.audible (.tone 1) : ScriptedMedia Float)
  obtain ⟨hidle, -, -, hfirst, hsecond⟩ := hreleased hclosed (List.mem_singleton.mpr rfl)
  replace hfirst : p.requestOpen (.audible (.tone 1)) = _ := hfirst
  have hp' : p' = (p.requestOpen (.audible (.tone 1))).2 := rfl
  have hstate : p'.state = .opening := by rw [hp', hfirst]
  have hevents : p'.events.length = p.events.length + 1 := by rw [hp', hfirst]; rfl
  exact ⟨hclosed, hidle, by rw [hfirst], hstate, hevents, by simp [Closed, hstate],
    hsecond [] (List.forall_mem_nil _) (.audible (.tone 1))⟩

end Player
end Playback
