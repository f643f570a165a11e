import Playback.Proofs.Player.Acts
import Playback.Scripted.Player

/-!
# The graph of playback states

`PlaybackState.leadsTo` is the graph in which the state of a player is meant to move. `state_changes` says
how it does move, in every run: along this graph, with one more edge, from `error` to `ended`. That edge is
taken exactly when the report of the end of a stream makes the end of all streams complete: after an error
the session lives on, reports are still taken, and the one place that sets `ended` does not look at the
state.

The invariant behind it is `Unopened`: without an opened medium there is no session, and without a session
no report and no seek has an effect.
-/

namespace Playback

variable {R κa κv σ : Type}

/-- The graph of the playback states. A stop leads to `idle` from everywhere. -/
def PlaybackState.leadsTo : PlaybackState → PlaybackState → Bool
  | _, .idle => true
  | .idle, .opening | .ended, .opening | .error, .opening => true
  | .opening, .buffering | .opening, .error => true
  | .buffering, .ready | .buffering, .ended | .buffering, .error => true
  | .ready, .buffering | .ready, .ended | .ready, .error => true
  | .ended, .buffering | .ended, .error => true
  | _, _ => false

namespace Player

/-- Before a medium is opened there is no session. -/
def Unopened (p : Player R κa κv σ) : Prop :=
  p.state = .idle ∨ p.state = .opening → p.session = none

theorem Unopened.of_alive {p : Player R κa κv σ} (h : p.Unopened) (alive : p.session.isSome = true) :
    p.state ≠ .idle ∧ p.state ≠ .opening := by
  constructor <;> intro hs
  · rw [h (.inl hs)] at alive; cases alive
  · rw [h (.inr hs)] at alive; cases alive

theorem Unopened.of_eq {p p' : Player R κa κv σ} (h : p.Unopened) (state : p'.state = p.state)
    (alive : p'.session.isSome = p.session.isSome) : p'.Unopened := by
  intro hs
  rw [state] at hs
  rw [h hs] at alive
  exact Option.not_isSome_iff_eq_none.mp (by rw [alive]; simp)

variable [Scalar R]

/-! ## Runs -/

variable [Source σ R]

theorem run_unopened {p : Player R κa κv σ} (h : p.Unopened) (task : PlayerTask R κa κv σ) :
    (p.run task).Unopened := by
  intro hs
  have hturn := p.run_turn task
  generalize hnew : (p.run task).state = state at hturn hs
  -- no task leads to `idle` or to `opening`, so the state stayed what it was
  cases hturn with
  | stays =>
    by_cases hmedia : task.medium? = none
    · exact h.of_eq hnew (p.run_works task hmedia).alive (by rwa [hnew])
    · cases task with
      | openMedia media =>
        -- it brings a session, but then the state has not stayed
        by_cases hopen : p.state = .opening
        · rcases (p.openMedia_cases media hopen).2.2 with ⟨hto, -⟩ | ⟨hto, -⟩
          · rw [show (p.openMedia media).state = p.state from hnew, hopen] at hto; cases hto
          · rw [show (p.openMedia media).state = p.state from hnew, hopen] at hto; cases hto
        · show (p.openMedia media).session = none
          rw [p.openMedia_other media hopen]
          exact h hs
      | _ => exact absurd rfl hmedia
  | opens | refuses | seeks | breaks | fails | ends | fills | starves => rcases hs with hs | hs <;> cases hs

variable [Codec κa RawAudioFrame] [Codec κv RawVideoFrame]

theorem act_unopened {p : Player R κa κv σ} (h : p.Unopened) (a : PlayerAct R κa κv σ) :
    (p.act a).Unopened := by
  have hdoes := p.act_does a
  generalize p.act a = p' at hdoes ⊢
  cases hdoes with
  | works _ _ _ works state => exact h.of_eq state works.alive
  | requests media closed => exact fun _ => (requestOpen_state media closed).2
  | stops | releases => exact fun _ => p.stop_state.2
  | runs task loop => exact run_unopened (p := { p with loop }) h task
  | refuses | waits | rests => exact h

theorem acts_unopened (config : PlayerConfig R) (device : AudioDevice) (filter : RateFilter R)
    (as : List (PlayerAct R κa κv σ)) :
    ((make config device filter : Player R κa κv σ).acts as).Unopened :=
  have hnew : (make config device filter : Player R κa κv σ).Unopened := fun _ => rfl
  List.foldlRecOn (motive := Unopened) as act hnew fun _ hp a _ => act_unopened hp a

/-! ## The graph -/

/-- Whether an act is the turn in which the player's thread takes the report that a stream has ended, and
with it all streams have ended. -/
def CompletesEnd (p : Player R κa κv σ) (a : PlayerAct R κa κv σ) : Prop :=
  a = .step .player ∧ ∃ stream serial loop s,
    p.loop.next? p.now = some (.rendered stream (.ended serial), loop) ∧
      p.session = some s ∧ (markEnded s stream serial).allEnded = true

/-- The report that completes the end is taken in every state. -/
theorem CompletesEnd.state {p : Player R κa κv σ} {a : PlayerAct R κa κv σ} (h : p.CompletesEnd a) :
    (p.act a).state = .ended := by
  obtain ⟨rfl, stream, serial, loop, s, hnext, hs, hall⟩ := h
  have hdoes := p.act_does (.step .player)
  generalize p.act (.step .player) = p' at hdoes ⊢
  cases hdoes with
  | works _ _ quiet => cases quiet
  | rests _ idle => rw [hnext] at idle; cases idle
  | runs task loop' next =>
    rw [hnext] at next
    cases next
    show (onRendered { p with loop } stream (.ended serial)).state = .ended
    unfold onRendered
    simp [hs, hall]

/-- What an act may make of the state, if there is a session only where something was opened. -/
inductive Change (p : Player R κa κv σ) : PlayerAct R κa κv σ → PlaybackState → Prop where
  | stays (a : PlayerAct R κa κv σ) : Change p a p.state
  | requests (media : Media κa κv σ) (closed : p.Closed) : Change p (.requestOpen media) .opening
  | stops : Change p .stop .idle
  | releases : Change p .release .idle
  | opens (opening : p.state = .opening) : Change p (.step .player) .buffering
  | refuses (opening : p.state = .opening) : Change p (.step .player) .error
  | seeks (position : R) (loop : Loop (PlayerTask R κa κv σ))
      (next : p.loop.next? p.now = some (.seek position, loop))
      (settled : p.state = .ready ∨ p.state = .ended) : Change p (.step .player) .buffering
  | breaks (opened : p.state ≠ .idle ∧ p.state ≠ .opening) : Change p (.step .player) .error
  | ends (opened : p.state ≠ .idle ∧ p.state ≠ .opening) (complete : p.CompletesEnd (.step .player)) :
      Change p (.step .player) .ended
  | fills (low : p.state = .buffering) : Change p (.step .player) .ready
  | starves (going : p.state = .ready) : Change p (.step .player) .buffering

theorem act_change {p : Player R κa κv σ} (h : p.Unopened) (a : PlayerAct R κa κv σ) :
    Change p a (p.act a).state := by
  have hdoes := p.act_does a
  generalize p.act a = p' at hdoes ⊢
  cases hdoes with
  | works a _ _ _ state => rw [state]; exact .stays a
  | refuses | waits | rests => exact .stays _
  | requests media closed => rw [(requestOpen_state media closed).1]; exact .requests media closed
  | stops => rw [p.stop_state.1]; exact .stops
  | releases => rw [show p.release.state = .idle from p.stop_state.1]; exact .releases
  | runs task loop next =>
    have hturn := run_turn { p with loop } task
    generalize (run { p with loop } task).state = state at hturn
    cases hturn with
    | stays => exact .stays _
    | opens _ opening => exact .opens opening
    | refuses _ opening => exact .refuses opening
    | seeks position _ settled => exact .seeks position loop next settled
    | breaks _ alive => exact .breaks (h.of_alive alive)
    | fails _ _ alive => exact .breaks (h.of_alive alive)
    | ends stream serial s alive complete =>
      have halive : p.session.isSome = true := by
        rw [show p.session = some s from alive]; rfl
      exact .ends (h.of_alive halive) ⟨rfl, stream, serial, loop, s, next, alive, complete⟩
    | fills low => exact .fills low
    | starves going => exact .starves going

/-- **The graph of playback states.** In every run, whatever happens next either keeps the state, or moves it
along the graph, or moves it from `error` to `ended`. Playing goes on from `ended` only with a seek, `idle`
is entered only by a stop. And `error` is left exactly by a request to open, by a stop, and by the report
that completes the end of all streams. -/
theorem state_changes (config : PlayerConfig R) (device : AudioDevice) (filter : RateFilter R)
    (before : List (PlayerAct R κa κv σ)) (a : PlayerAct R κa κv σ) :
    let p := (make config device filter).acts before
    let state := (p.act a).state
    (state = p.state ∨ p.state.leadsTo state = true ∨ (p.state = .error ∧ state = .ended)) ∧
    (p.state = .ended → state = .buffering →
      a = .step .player ∧ ∃ position loop, p.loop.next? p.now = some (.seek position, loop)) ∧
    (p.state ≠ .idle → state = .idle → a = .stop ∨ a = .release) ∧
    (p.state = .error →
      (state ≠ .error ↔ (∃ media, a = .requestOpen media) ∨ a = .stop ∨ a = .release ∨ p.CompletesEnd a)) := by
  intro p state
  have hchange : Change p a state := act_change (acts_unopened config device filter before) a
  have hcomplete : p.CompletesEnd a → state = .ended := CompletesEnd.state
  have hopen : p.Closed → ∀ media, a = .requestOpen media → state = .opening := by
    rintro hclosed media rfl
    exact (requestOpen_state media hclosed).1
  have hstop : a = .stop ∨ a = .release → state = .idle := by
    rintro (rfl | rfl) <;> exact p.stop_state.1
  generalize state = state at hchange hcomplete hopen hstop
  refine ⟨?_, ?_, ?_, ?_⟩
  -- the edges
  · cases hchange with
    | stays => exact .inl rfl
    | requests media closed => rcases closed with h | h | h <;> simp [h, PlaybackState.leadsTo]
    | stops | releases => cases hp : p.state <;> simp [PlaybackState.leadsTo]
    | opens h | refuses h | fills h | starves h => simp [h, PlaybackState.leadsTo]
    | seeks _ _ _ settled => rcases settled with h | h <;> simp [h, PlaybackState.leadsTo]
    | breaks opened | ends opened => cases hp : p.state <;> simp_all [PlaybackState.leadsTo]
  -- from `ended` on
  · intro hended hbuffering
    cases hchange with
    | seeks position loop next => exact ⟨rfl, position, loop, next⟩
    | opens h | starves h => rw [hended] at h; cases h
    | stays => rw [hended] at hbuffering; cases hbuffering
    | requests | stops | releases | refuses | breaks | ends | fills => cases hbuffering
  -- into `idle`
  · intro hidle hstate
    cases hchange with
    | stops => exact .inl rfl
    | releases => exact .inr rfl
    | stays => exact absurd hstate hidle
    | requests | opens | refuses | seeks | breaks | ends | fills | starves => cases hstate
  -- out of `error`: the cases of a change one way, what the four acts do the other way
  · intro herror
    constructor
    · intro hleft
      cases hchange with
      | requests media => exact .inl ⟨media, rfl⟩
      | stops => exact .inr (.inl rfl)
      | releases => exact .inr (.inr (.inl rfl))
      | ends opened complete => exact .inr (.inr (.inr complete))
      | _ => simp_all
    · rintro (⟨media, ha⟩ | ha | ha | ha)
      · rw [hopen (.inr (.inr herror)) media ha]; simp
      · rw [hstop (.inl ha)]; simp
      · rw [hstop (.inr ha)]; simp
      · rw [hcomplete ha]; simp

/-! A run on the edge from `error` to `ended`. -/

/-- A source that breaks after one packet; before that it is once at its end, which is put out. -/
def breakingSource : ScriptedSource Float :=
  { ScriptedSource.tone 1 with failAt := some (1, .other "broken"), gaps := [(0, 1)] }

/-- A run with this source until the error is reported. The report of the end is already waiting. -/
def untilBroken : List (PlayerAct Float (ScriptedCodec RawAudioFrame) (ScriptedCodec RawVideoFrame)
    (ScriptedSource Float)) :=
  [.setPlayWhenReady true, .requestOpen (.audible breakingSource), .step .player, .step .player]
    ++ List.replicate 3 (.step .demuxer) ++ [.step .audioRenderer]
    ++ List.replicate 25 (.step .audioDecoder) ++ [.step .audioRenderer, .advance 50000000]
    ++ List.replicate 2 (.step .player) ++ List.replicate 3 (.step .demuxer)
    ++ [.pull [0, 0], .step .player]

theorem error_left_by_report :
    let p : ScriptedPlayer Float := (make .default .obliging .silent).acts untilBroken
    p.state = .error ∧ (p.act (.step .player)).state = .ended ∧ p.CompletesEnd (.step .player) := by
  intro p
  have herror : p.state = .error := by decide +kernel
  have hended : (p.act (.step .player)).state = .ended := by decide +kernel
  have hleft := (state_changes .default .obliging .silent untilBroken (.step .player)).2.2.2 herror
  obtain ⟨media, h⟩ | h | h | h := hleft.mp (by rw [hended]; simp)
  · cases h
  · cases h
  · cases h
  · exact ⟨herror, hended, h⟩

end Player
end Playback
