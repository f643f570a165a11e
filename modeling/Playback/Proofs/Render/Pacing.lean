import Playback.Proofs.Player.Controls
import Playback.Proofs.Render.Delay
import Playback.Proofs.Render.Pictures

/-!
# The pace of refreshes

Without rounding, a refresh asks to be called again after some time, but no later than the configured rate, and
the timer never runs ahead of the present time. `VideoRenderer.OnTime` carries this through the passes of one
selection (`select_paced`).

Between refreshes the timer is set when a pause ends, by the time at which the video clock was last set. That this is
the time of the pause depends on the clocks: they are stopped together with the renderer and after it, and nothing
else sets the video clock of a paused player. `Pacer` therefore has the renderer, the clocks and the time in one
state, and `Pacer.Timely` is what its acts preserve:

> the timer is no later than the present, and no later than the last setting of the video clock while the renderer
> is paused (`act_timely`).

`refreshes_paced` puts the two together. `Session.setPaused_pacer?` says that a player stops its session as `Pacer`
has it.
-/

namespace Playback

open Exact

/-! ## One selection -/

namespace VideoRenderer

/-- The timer is a time that has come, and everything that goes into the next one is a fraction. -/
structure OnTime (v : VideoRenderer Exact) (l : List (VideoFrame Exact)) (now timer : Rat) : Prop where
  sound : v.config.Sound
  holds : v.ring.Holds l
  lasts : ∀ frame ∈ l, frame.Lasts
  shownLasts : ∀ frame, v.lastShown = some frame → frame.Lasts
  set : v.frameTimer = finite timer
  reached : timer ≤ now

namespace OnTime

variable {v : VideoRenderer Exact} {l : List (VideoFrame Exact)} {now timer : Rat}

theorem begun (h : v.OnTime l now timer) (m : MediaClock Exact) (live : LiveSerials) (frame : VideoFrame Exact) :
    ∃ time, (v.reckoning m live (finite now) frame).begun = finite time ∧ time ≤ now := by
  unfold Reckoning.begun
  split
  next => exact ⟨timer, h.set, h.reached⟩
  next => exact ⟨now, rfl, Rat.le_refl⟩

theorem nominal (h : v.OnTime l now timer) (m : MediaClock Exact) (live : LiveSerials) (frame : VideoFrame Exact) :
    ∃ seconds, (v.reckoning m live (finite now) frame).nominal = finite seconds := by
  obtain ⟨longest, hlongest⟩ := h.sound.longest
  unfold Reckoning.nominal reckoning
  dsimp only
  cases hprevious : v.lastShown.filter (·.serial = frame.serial) with
  | none => exact ⟨0, zero_eq⟩
  | some previous =>
    have hshown : v.lastShown = some previous := (Option.filter_eq_some_iff.mp hprevious).1
    rw [hlongest]
    exact VideoFrame.interval_finite (h.shownLasts previous hshown) frame longest

theorem due (h : v.OnTime l now timer) (m : MediaClock Exact) (live : LiveSerials) (frame : VideoFrame Exact) :
    ∃ time, (v.reckoning m live (finite now) frame).due = finite time := by
  obtain ⟨begun, hbegun, -⟩ := h.begun m live frame
  obtain ⟨nominal, hnominal⟩ := h.nominal m live frame
  obtain ⟨target, htarget⟩ := SyncConfig.targetDelay_finite h.sound nominal (m.ahead live (finite now))
  refine ⟨begun + target, ?_⟩
  rw [Reckoning.due, Reckoning.delay, hbegun, hnominal]
  exact (congrArg (fun d => finite begun + d.getD (finite nominal)) htarget).trans (finite_add ..)

/-- Once a picture is due, the timer is set to a time that has come. -/
theorem advanced (h : v.OnTime l now timer) (m : MediaClock Exact) (live : LiveSerials) (frame : VideoFrame Exact)
    (reached : ¬ finite now < (v.reckoning m live (finite now) frame).due) :
    ∃ time, (v.reckoning m live (finite now) frame).timer = finite time ∧ time ≤ now := by
  obtain ⟨due, hdue⟩ := h.due m live frame
  rw [hdue, finite_lt, Rat.not_lt] at reached
  unfold Reckoning.timer
  split
  next => exact ⟨now, rfl, Rat.le_refl⟩
  next => exact ⟨due, hdue, reached⟩

theorem passed {frame : VideoFrame Exact} {time : Rat} (h : v.OnTime (frame :: l) now timer)
    (reached : time ≤ now) : (v.passed (finite time)).OnTime l now time where
  sound := h.sound
  holds := h.holds.popFront_cons.2
  lasts := fun f hf => h.lasts f (List.mem_cons_of_mem _ hf)
  shownLasts := h.shownLasts
  set := rfl
  reached

theorem counted (h : v.OnTime l now timer) (dropped : Nat) : { v with dropped }.OnTime l now timer :=
  ⟨h.sound, h.holds, h.lasts, h.shownLasts, h.set, h.reached⟩

end OnTime

/-- What a selection leaves behind: a timer that has come, and a wait within bounds. -/
structure Paced (now longest : Rat) (r : VideoRenderer Exact × MediaClock Exact × Exact) : Prop where
  timer : ∃ time, r.1.frameTimer = finite time ∧ time ≤ now
  wait : ∃ seconds, r.2.2 = finite seconds ∧ 0 < seconds ∧ seconds ≤ longest

theorem select_paced (fuel : Nat) {v : VideoRenderer Exact} {l : List (VideoFrame Exact)} {now timer : Rat}
    (h : v.OnTime l now timer) (m : MediaClock Exact) (live : LiveSerials) {wait : Rat} (positive : 0 < wait) :
    Paced now wait (v.select m live (finite now) (finite wait) fuel) := by
  have hwait : ∃ seconds, finite wait = finite seconds ∧ 0 < seconds ∧ seconds ≤ wait :=
    ⟨wait, rfl, positive, Rat.le_refl⟩
  induction fuel generalizing v m l timer with
  | zero => exact ⟨⟨timer, h.set, h.reached⟩, hwait⟩
  | succ fuel ih =>
    cases l with
    | nil =>
      have hnone : v.ring.front? = none := h.holds.front?
      rw [select, hnone]
      exact ⟨⟨timer, h.set, h.reached⟩, hwait⟩
    | cons frame l =>
      obtain ⟨more, r, hpass, hselect⟩ := select_pass h.holds.front? m live (finite now) (finite wait)
      rw [hselect]
      cases hpass with
      | past => exact ih (h.set ▸ h.passed h.reached) m
      | held => exact ⟨h.begun m live frame, hwait⟩
      | early _ _ before =>
        -- the picture is due later, so there is something to wait for
        obtain ⟨due, hdue⟩ := h.due m live frame
        rw [hdue, finite_lt] at before
        refine ⟨h.begun m live frame, min (due - now) wait, ?_, ?_, min_le_right ..⟩
        · show Scalar.min _ _ = _
          rw [hdue, finite_sub, min_finite]
        · exact lt_min (sub_pos.mpr before) positive
      | late _ _ reached =>
        obtain ⟨time, htime, hcome⟩ := h.advanced m live frame reached
        rw [htime]
        exact ih ((h.passed hcome).counted _) _
      | shown _ _ reached => exact ⟨h.advanced m live frame reached, hwait⟩

/-- A selection sets the video clock as of now, or leaves it. -/
theorem select_updated {R : Type} [Scalar R] (fuel : Nat) (v : VideoRenderer R) (m : MediaClock R)
    (live : LiveSerials) (now wait : R) :
    (v.select m live now wait fuel).2.1.video.lastUpdated = now ∨
      (v.select m live now wait fuel).2.1.video.lastUpdated = m.video.lastUpdated := by
  have hupdate (v : VideoRenderer R) (m : MediaClock R) (frame : VideoFrame R) :
      (v.updateClock m live now frame).video.lastUpdated = now ∨
        (v.updateClock m live now frame).video.lastUpdated = m.video.lastUpdated := by
    unfold updateClock
    split
    next => exact .inr rfl
    next => exact .inl rfl
  induction fuel generalizing v m with
  | zero => exact .inr rfl
  | succ fuel ih =>
    cases hfront : v.ring.front? with
    | none =>
      rw [select, hfront]
      exact .inr rfl
    | some frame =>
      obtain ⟨more, r, hpass, hselect⟩ := select_pass hfront m live now wait
      rw [hselect]
      cases hpass with
      | past => exact ih _ m
      | held | early => exact .inr rfl
      | late => exact (ih _ _).elim .inl fun h => h ▸ hupdate v m frame
      | shown => exact hupdate v m frame

end VideoRenderer

/-! ## Renderer, clocks and time -/

/-- The nominal durations of all pictures that a renderer has are fractions. -/
structure VideoWatch.Lasting (w : VideoWatch Exact) : Prop where
  ordered : ∃ l, w.Ordered l
  pictures : ∀ frame ∈ w.pictures, frame.Lasts
  lastShown : ∀ frame, w.renderer.lastShown = some frame → frame.Lasts

/-- An act that neither refreshes nor pauses nor asks to show a picture again; a picture that it delivers has a
nominal duration. -/
def PictureAct.Quiet : PictureAct Exact → Prop
  | .act (.deliver (.frame frame)) => frame.Lasts
  | .act (.refresh ..) | .act (.setPaused ..) | .redraw => False
  | _ => True

namespace VideoWatch

theorem Lasting.after {w : VideoWatch Exact} (h : w.Lasting) {a : PictureAct Exact}
    (delivers : ∀ frame, a = .act (.deliver (.frame frame)) → frame.Lasts) : (w.after a).Lasting := by
  obtain ⟨l, hl⟩ := h.ordered
  obtain ⟨hpasses, hordered⟩ := VideoWatch.passes hl a
  -- everything that is in the ring or leaves it was there or is delivered
  have hall : ∀ frame ∈ (w.leaving a).map Prod.fst ++ (w.after a).pictures, frame.Lasts := by
    rw [← hpasses.balance]
    intro frame hframe
    rcases List.mem_append.mp hframe with hold | hnew
    · exact h.pictures frame hold
    · rcases hpasses.entering with hnone | ⟨delivered, ha, -, hentering⟩
      · rw [hnone] at hnew
        cases hnew
      · rw [hentering] at hnew
        exact delivers frame (List.mem_singleton.mp hnew ▸ ha)
  refine ⟨hordered, fun frame hframe => hall frame (List.mem_append_right _ hframe), fun frame hframe => ?_⟩
  rw [hpasses.lastShown] at hframe
  rcases Option.or_eq_some_iff.mp hframe with hshown | ⟨-, hold⟩
  · obtain ⟨⟨shown, fate⟩, hfind, rfl⟩ := Option.map_eq_some_iff.mp hshown
    exact hall shown (List.mem_append_left _ (List.mem_map_of_mem (List.mem_of_find?_eq_some hfind)))
  · exact h.lastShown frame hold

theorem after_quiet (w : VideoWatch Exact) {a : PictureAct Exact} (quiet : a.Quiet) :
    (w.after a).renderer.frameTimer = w.renderer.frameTimer ∧ (w.after a).renderer.paused = w.renderer.paused ∧
      (w.after a).renderer.forceRefresh = w.renderer.forceRefresh := by
  cases a with
  | start => exact ⟨rfl, rfl, rfl⟩
  | redraw => exact quiet.elim
  | act a =>
    cases a with
    | restart | request | stop => exact ⟨rfl, rfl, rfl⟩
    | refresh | setPaused => exact quiet.elim
    | flush =>
      obtain ⟨htimer, hcalm⟩ := w.renderer.flush_timing w.live
      exact ⟨htimer, w.renderer.flush_paused w.live, hcalm⟩
    | deliver result =>
      cases result with
      | endOfStream | aborted | error => exact ⟨rfl, rfl, rfl⟩
      | frame frame =>
        unfold after act VideoRenderer.deliver
        dsimp only
        split <;> exact ⟨rfl, rfl, rfl⟩

end VideoWatch

/-- A video renderer with the clocks of its player, at a time. -/
structure Pacer where
  watch : VideoWatch Exact
  clock : MediaClock Exact
  /-- The generation of the audio stream. -/
  audio : Serial
  /-- The present time, in seconds. -/
  now : Rat

/-- What happens to a renderer and the clocks. -/
inductive PacerAct where
  | wait (seconds : Rat) (forward : 0 ≤ seconds)
  | refresh
  /-- Playback is stopped or goes on. -/
  | setPaused (paused : Bool)
  /-- The clocks that are not the renderer's own, and the generation of audio, change in any way. -/
  | steer (audio external : Clock Exact) (serial : Serial)
  | other (a : PictureAct Exact) (quiet : a.Quiet)

namespace Pacer

def live (p : Pacer) : LiveSerials := ⟨p.audio, p.watch.live⟩

/-- A new renderer, which starts paused or not, and new clocks. -/
def new (config : SyncConfig Exact) (capacity : Nat) (wanted : SyncType) (confirm : SyncType → SyncType)
    (now : Rat) (paused : Bool) : Pacer :=
  let clock := .new wanted confirm (finite now)
  { watch := (VideoWatch.new config capacity).act (.setPaused clock paused (finite now)), clock, audio := 0, now }

/-- What a refresh would lead to now. -/
def refreshed (p : Pacer) : Refreshed Exact :=
  p.watch.renderer.refresh p.clock p.live (finite p.now)

/-- Playback is stopped and let go on as `Session.setPaused` does it, the renderer before the clocks. -/
def act (p : Pacer) : PacerAct → Pacer
  | .wait seconds _ => { p with now := p.now + seconds }
  | .refresh => { p with
      watch := p.watch.act (.refresh p.clock p.audio (finite p.now))
      clock := p.refreshed.clock }
  | .setPaused paused => { p with
      watch := p.watch.act (.setPaused p.clock paused (finite p.now))
      clock := p.clock.setPaused p.live paused (finite p.now) }
  | .steer audio external serial => { p with clock := { p.clock with audio, external }, audio := serial }
  | .other a _ => { p with watch := p.watch.after a }

def acts (p : Pacer) (as : List PacerAct) : Pacer :=
  as.foldl act p

/-- The timer and the video clock against the present time. A paused renderer may be beside a clock that still runs,
at the start, but not the other way round. -/
structure Timely (config : SyncConfig Exact) (p : Pacer) : Prop where
  lasting : p.watch.Lasting
  config : p.watch.renderer.config = config
  calm : p.watch.renderer.forceRefresh = false
  timer : ∃ time, p.watch.renderer.frameTimer = finite time ∧ time ≤ p.now
  updated : ∃ time, p.clock.video.lastUpdated = finite time ∧ time ≤ p.now
  paused : p.watch.renderer.paused = true → p.watch.renderer.frameTimer ≤ p.clock.video.lastUpdated
  playing : p.watch.renderer.paused = false → p.clock.video.paused = false

end Pacer

/-! ## Acts -/

namespace Clock

variable {R : Type} [Scalar R]

theorem setPaused_lastUpdated (c : Clock R) (live : Option Serial) (paused : Bool) (time : R) :
    (c.setPaused live paused time).lastUpdated = if c.paused = paused then c.lastUpdated else time := by
  unfold setPaused
  split
  next => rfl
  next => split <;> rfl

end Clock

namespace VideoRenderer

variable {R : Type} [Scalar R]

theorem setPaused_timing (v : VideoRenderer R) (m : MediaClock R) (paused : Bool) (now : R) :
    (v.setPaused m paused now).frameTimer
        = (if v.paused = true ∧ paused = false then v.frameTimer + (now - m.video.lastUpdated) else v.frameTimer) ∧
      (v.setPaused m paused now).forceRefresh = v.forceRefresh := by
  unfold setPaused
  cases v.paused <;> cases paused <;> exact ⟨rfl, rfl⟩

end VideoRenderer

namespace Pacer

variable {config : SyncConfig Exact} {p : Pacer}

theorem Timely.onTime (h : p.Timely config) (sound : config.Sound) :
    ∃ l timer, p.watch.renderer.OnTime l p.now timer := by
  obtain ⟨l, hl⟩ := h.lasting.ordered
  obtain ⟨timer, hset, hreached⟩ := h.timer
  have hpictures : p.watch.pictures = l := hl.holds.toList
  exact ⟨l, timer, h.config ▸ sound, hl.holds, hpictures ▸ h.lasting.pictures, h.lasting.lastShown, hset, hreached⟩

/-- What a refresh does to the timer, and how long it asks to wait. -/
theorem Timely.refreshed (h : p.Timely config) (sound : config.Sound) :
    (∃ time, p.refreshed.renderer.frameTimer = finite time ∧ time ≤ p.now) ∧
      0.0 < p.refreshed.wait ∧ p.refreshed.wait ≤ config.refreshRate := by
  obtain ⟨rate, hrate, hpositive⟩ := sound.rate
  obtain ⟨htimer, -, -, hwait⟩ := p.watch.renderer.refresh_selects p.clock p.live (finite p.now)
  rw [Pacer.refreshed, htimer, hwait, hrate, zero_eq]
  cases hpaused : p.watch.renderer.paused with
  | true =>
    rw [VideoRenderer.selection_paused hpaused h.calm, h.config, hrate]
    exact ⟨h.timer, (finite_lt ..).mpr hpositive, (finite_le ..).mpr Rat.le_refl⟩
  | false =>
    obtain ⟨l, timer, honTime⟩ := h.onTime sound
    rw [VideoRenderer.selection_playing hpaused, h.config, hrate]
    obtain ⟨hreached, seconds, hseconds, hlow, hhigh⟩ :=
      VideoRenderer.select_paced p.watch.renderer.ring.length honTime p.clock p.live hpositive
    rw [hseconds]
    exact ⟨hreached, (finite_lt ..).mpr hlow, (finite_le ..).mpr hhigh⟩

theorem Timely.wait (h : p.Timely config) {seconds : Rat} (forward : 0 ≤ seconds) :
    (p.act (.wait seconds forward)).Timely config := by
  have hlater {time : Rat} (hcome : time ≤ p.now) : time ≤ p.now + seconds :=
    hcome.trans (le_add_of_nonneg_right forward)
  obtain ⟨timer, hset, hreached⟩ := h.timer
  obtain ⟨updated, hupdated, hcome⟩ := h.updated
  exact ⟨h.lasting, h.config, h.calm, ⟨timer, hset, hlater hreached⟩, ⟨updated, hupdated, hlater hcome⟩, h.paused,
    h.playing⟩

/-- What any act on the renderer keeps. -/
theorem Timely.keeps (h : p.Timely config) {a : PictureAct Exact}
    (delivers : ∀ frame, a = .act (.deliver (.frame frame)) → frame.Lasts) :
    (p.watch.after a).Lasting ∧ (p.watch.after a).renderer.config = config := by
  obtain ⟨l, hl⟩ := h.lasting.ordered
  exact ⟨h.lasting.after delivers, (VideoWatch.passes hl a).1.config.trans h.config⟩

theorem Timely.refresh (h : p.Timely config) (sound : config.Sound) : (p.act .refresh).Timely config := by
  obtain ⟨hlasting, hconfig⟩ := h.keeps (a := .act (.refresh p.clock p.audio (finite p.now))) nofun
  obtain ⟨-, hcalm, hclock, -⟩ := p.watch.renderer.refresh_selects p.clock p.live (finite p.now)
  obtain ⟨hpaused, hpauses⟩ := p.watch.renderer.refresh_controls p.clock p.live (finite p.now)
  have hvideo : p.refreshed.clock.video.paused = p.clock.video.paused :=
    (List.cons.inj (List.cons.inj hpauses).2).1
  have hupdated : ∃ time, p.refreshed.clock.video.lastUpdated = finite time ∧ time ≤ p.now := by
    rw [Pacer.refreshed, hclock, VideoRenderer.selection]
    split
    next => exact h.updated
    next =>
      rcases VideoRenderer.select_updated p.watch.renderer.ring.length p.watch.renderer p.clock p.live (finite p.now)
        p.watch.renderer.config.refreshRate with hnow | hsame
      · exact ⟨p.now, hnow, Rat.le_refl⟩
      · rw [hsame]
        exact h.updated
  refine ⟨hlasting, hconfig, hcalm, (h.refreshed sound).1, hupdated, fun hp => ?_, fun hp => ?_⟩
  · -- a paused renderer leaves the timer and the clocks alone
    have hp' : p.watch.renderer.paused = true := hpaused.symm.trans hp
    obtain ⟨htimer, -, hclock, -⟩ := p.watch.renderer.refresh_selects p.clock p.live (finite p.now)
    rw [VideoRenderer.selection_paused hp' h.calm] at htimer hclock
    show p.refreshed.renderer.frameTimer ≤ p.refreshed.clock.video.lastUpdated
    rw [Pacer.refreshed, htimer, hclock]
    exact h.paused hp'
  · exact hvideo.trans (h.playing (hpaused.symm.trans hp))

/-- Whatever is asked for, the video clock is set now or not at all. -/
theorem Timely.setPaused_updated (h : p.Timely config) (paused : Bool) :
    ∃ time, (p.act (.setPaused paused)).clock.video.lastUpdated = finite time ∧ time ≤ p.now := by
  show ∃ time, (p.clock.video.setPaused _ paused _).lastUpdated = finite time ∧ time ≤ p.now
  rw [Clock.setPaused_lastUpdated]
  split
  next => exact h.updated
  next => exact ⟨p.now, rfl, Rat.le_refl⟩

theorem Timely.pause (h : p.Timely config) : (p.act (.setPaused true)).Timely config := by
  obtain ⟨hlasting, hconfig⟩ := h.keeps (a := .act (.setPaused p.clock true (finite p.now))) nofun
  obtain ⟨htimer, hcalm⟩ := p.watch.renderer.setPaused_timing p.clock true (finite p.now)
  have hpaused := p.watch.renderer.setPaused_paused p.clock true (finite p.now)
  rw [if_neg (by simp)] at htimer
  obtain ⟨timer, hset, hreached⟩ := h.timer
  refine ⟨hlasting, hconfig, hcalm.trans h.calm, ⟨timer, htimer.trans hset, hreached⟩, h.setPaused_updated true,
    fun _ => ?_, fun hplaying => absurd (hpaused.symm.trans hplaying) (by decide)⟩
  show (p.watch.renderer.setPaused ..).frameTimer ≤ (p.clock.video.setPaused _ true _).lastUpdated
  rw [htimer, Clock.setPaused_lastUpdated]
  split
  next hstands =>
    -- the clock had been stopped, and the renderer with it
    cases hbefore : p.watch.renderer.paused with
    | true => exact h.paused hbefore
    | false => exact absurd ((h.playing hbefore).symm.trans hstands) (by decide)
  next =>
    rw [hset]
    exact (finite_le ..).mpr hreached

theorem Timely.resume (h : p.Timely config) : (p.act (.setPaused false)).Timely config := by
  obtain ⟨hlasting, hconfig⟩ := h.keeps (a := .act (.setPaused p.clock false (finite p.now))) nofun
  obtain ⟨htimer, hcalm⟩ := p.watch.renderer.setPaused_timing p.clock false (finite p.now)
  have hpaused := p.watch.renderer.setPaused_paused p.clock false (finite p.now)
  have hplaying := p.clock.video.setPaused_paused (some p.watch.live) false (finite p.now)
  have hreached : ∃ time, (p.watch.renderer.setPaused p.clock false (finite p.now)).frameTimer = finite time ∧
      time ≤ p.now := by
    rw [htimer]
    split
    next hbefore =>
      obtain ⟨timer, hset, -⟩ := h.timer
      obtain ⟨updated, hlast, -⟩ := h.updated
      have hle := h.paused hbefore.1
      rw [hset, hlast, finite_le] at hle
      refine ⟨timer + (p.now - updated), ?_, by linarith⟩
      rw [hset, hlast, finite_sub, finite_add]
    next => exact h.timer
  exact ⟨hlasting, hconfig, hcalm.trans h.calm, hreached, h.setPaused_updated false,
    fun hp => absurd (hpaused.symm.trans hp) (by decide), fun _ => hplaying⟩

theorem act_timely (sound : config.Sound) (h : p.Timely config) (a : PacerAct) : (p.act a).Timely config := by
  cases a with
  | wait seconds forward => exact h.wait forward
  | refresh => exact h.refresh sound
  | setPaused paused =>
    cases paused with
    | true => exact h.pause
    | false => exact h.resume
  | steer => exact ⟨h.lasting, h.config, h.calm, h.timer, h.updated, h.paused, h.playing⟩
  | other a quiet =>
    have hdelivers : ∀ frame, a = .act (.deliver (.frame frame)) → frame.Lasts := by
      rintro frame rfl
      exact quiet
    obtain ⟨hlasting, hconfig⟩ := h.keeps hdelivers
    obtain ⟨htimer, hpaused, hcalm⟩ := p.watch.after_quiet quiet
    refine ⟨hlasting, hconfig, hcalm.trans h.calm, ?_, h.updated, fun hp => ?_, fun hp => ?_⟩
    · obtain ⟨timer, hset, hreached⟩ := h.timer
      exact ⟨timer, htimer.trans hset, hreached⟩
    · exact htimer.symm ▸ h.paused (hpaused.symm.trans hp)
    · exact h.playing (hpaused.symm.trans hp)

theorem new_timely (config : SyncConfig Exact) (capacity : Nat) (wanted : SyncType)
    (confirm : SyncType → SyncType) {now : Rat} (started : 0 ≤ now) (paused : Bool) :
    (new config capacity wanted confirm now paused).Timely config := by
  have hempty : (VideoWatch.new config capacity).pictures = [] := (Ring.new_holds capacity).toList
  have hnew : (VideoWatch.new config capacity).Lasting :=
    ⟨⟨[], Ring.new_holds capacity, .nil, by simp⟩, by simp [hempty], by simp [VideoWatch.new, VideoRenderer.new]⟩
  have hlasting : (new config capacity wanted confirm now paused).watch.Lasting :=
    hnew.after (a := .act (.setPaused (.new wanted confirm (finite now)) paused (finite now))) (by simp)
  have hzero : (0.0 : Exact) ≤ finite now := by
    rw [zero_eq]
    exact (finite_le ..).mpr started
  cases paused with
  | true =>
    exact ⟨hlasting, rfl, rfl, ⟨0, zero_eq, started⟩, ⟨now, rfl, Rat.le_refl⟩, fun _ => hzero, (by cases ·)⟩
  | false =>
    exact ⟨hlasting, rfl, rfl, ⟨0, zero_eq, started⟩, ⟨now, rfl, Rat.le_refl⟩, (by cases ·), fun _ => rfl⟩

theorem acts_timely (sound : config.Sound) (h : p.Timely config) (as : List PacerAct) :
    (p.acts as).Timely config :=
  List.foldlRecOn as act h fun _ hp a _ => act_timely sound hp a

/-! ## Pauses -/

/-- Stopped since a time, with the timer it had then. -/
structure Frozen (timer since : Rat) (p : Pacer) : Prop where
  paused : p.watch.renderer.paused = true
  stands : p.clock.video.paused = true
  calm : p.watch.renderer.forceRefresh = false
  timer : p.watch.renderer.frameTimer = finite timer
  since : p.clock.video.lastUpdated = finite since

variable {timer since : Rat}

theorem Timely.frozen (h : p.Timely config) (playing : p.watch.renderer.paused = false)
    (set : p.watch.renderer.frameTimer = finite timer) : (p.act (.setPaused true)).Frozen timer p.now := by
  obtain ⟨htimer, hcalm⟩ := p.watch.renderer.setPaused_timing p.clock true (finite p.now)
  rw [if_neg (by simp)] at htimer
  refine ⟨VideoRenderer.setPaused_paused .., Clock.setPaused_paused .., hcalm.trans h.calm, htimer.trans set, ?_⟩
  show (p.clock.video.setPaused _ true _).lastUpdated = _
  rw [Clock.setPaused_lastUpdated, h.playing playing]
  rfl

/-- Whatever happens until playback goes on leaves the timer and the video clock alone. -/
theorem Frozen.act (h : p.Frozen timer since) {a : PacerAct} (rests : a ≠ .setPaused false) :
    (p.act a).Frozen timer since := by
  cases a with
  | wait | steer => exact ⟨h.paused, h.stands, h.calm, h.timer, h.since⟩
  | refresh =>
    obtain ⟨htimer, hcalm, hclock, -⟩ := p.watch.renderer.refresh_selects p.clock p.live (finite p.now)
    rw [VideoRenderer.selection_paused h.paused h.calm] at htimer hclock
    have hclock' : (p.act .refresh).clock = p.clock := hclock
    have hpaused := (p.watch.renderer.refresh_controls p.clock p.live (finite p.now)).1
    exact ⟨hpaused.trans h.paused, hclock' ▸ h.stands, hcalm, htimer.trans h.timer, hclock' ▸ h.since⟩
  | setPaused paused =>
    cases paused with
    | false => exact absurd rfl rests
    | true =>
      have hwatch : (p.act (.setPaused true)).watch.renderer = p.watch.renderer := if_pos h.paused
      have hvideo : (p.act (.setPaused true)).clock.video = p.clock.video := if_pos h.stands
      exact ⟨hwatch ▸ h.paused, hvideo ▸ h.stands, hwatch ▸ h.calm, hwatch ▸ h.timer, hvideo ▸ h.since⟩
  | other a quiet =>
    obtain ⟨htimer, hpaused, hcalm⟩ := p.watch.after_quiet quiet
    exact ⟨hpaused.trans h.paused, h.stands, hcalm.trans h.calm, htimer.trans h.timer, h.since⟩

theorem Frozen.acts (h : p.Frozen timer since) {as : List PacerAct} (rests : ∀ a ∈ as, a ≠ .setPaused false) :
    (p.acts as).Frozen timer since :=
  List.foldlRecOn as Pacer.act h fun _ hp a ha => hp.act (rests a ha)

theorem Frozen.resume (h : p.Frozen timer since) :
    (p.act (.setPaused false)).watch.renderer.frameTimer = finite (timer + (p.now - since)) := by
  have htimer := (p.watch.renderer.setPaused_timing p.clock false (finite p.now)).1
  rw [if_pos ⟨h.paused, rfl⟩, h.timer, h.since, finite_sub, finite_add] at htimer
  exact htimer

end Pacer

/-! ## Players -/

/-- The renderer and the clocks of a session, at a time. -/
def Session.pacer? {κa κv σ : Type} (s : Session Exact κa κv σ) (now : Nat) : Option Pacer :=
  s.video.map fun v => ⟨⟨v.renderer, s.live.video, [], []⟩, s.clock, s.live.audio, now / 1000000000⟩

/-- A player stops its session and lets it go on in the way of `Pacer.act`. -/
theorem Session.setPaused_pacer? {κa κv σ : Type} (s : Session Exact κa κv σ) (paused : Bool) (now : Nat) :
    (s.setPaused paused now).pacer? now = (s.pacer? now).map (·.act (.setPaused paused)) := by
  have hlive : (s.setPaused paused now).live = s.live := by
    simp [live, setPaused, Function.comp_def]
  unfold pacer?
  rw [hlive]
  simp only [setPaused, ofNanos_eq, Option.map_map]
  rfl

/-- **Refreshes keep their pace, and pauses do not count.** Under an accepted configuration, at any point of any run
of a video renderer and the clocks without rounding: a refresh asks to wait for more than no time and at most for the
configured rate; the timer is a time that has come; and if the renderer is playing, and playback is stopped and some
time later let go on, then the timer has moved by the time in between, whatever else happened. -/
theorem refreshes_paced (config : PlayerConfig Exact) (accepted : config.validate = .ok config) (capacity : Nat)
    (wanted : SyncType) (confirm : SyncType → SyncType) (now : Rat) (started : 0 ≤ now) (paused : Bool)
    (as : List PacerAct) :
    let p := (Pacer.new config.sync capacity wanted confirm now paused).acts as
    (0.0 < p.refreshed.wait ∧ p.refreshed.wait ≤ config.sync.refreshRate) ∧
    ∃ timer, p.watch.renderer.frameTimer = finite timer ∧ timer ≤ p.now ∧
      (p.watch.renderer.paused = false → ∀ rest : List PacerAct, (∀ a ∈ rest, a ≠ .setPaused false) →
        let q := (p.act (.setPaused true)).acts rest
        (q.act (.setPaused false)).watch.renderer.frameTimer = finite (timer + (q.now - p.now))) := by
  intro p
  have hsound := PlayerConfig.sync_sound accepted
  have htimely := Pacer.acts_timely hsound (Pacer.new_timely config.sync capacity wanted confirm started paused) as
  obtain ⟨timer, hset, hreached⟩ := htimely.timer
  refine ⟨(htimely.refreshed hsound).2, timer, hset, hreached, fun hplaying rest hrests => ?_⟩
  exact ((htimely.frozen hplaying hset).acts hrests).resume

def pictureAt (pts : Exact) : PacerAct :=
  .other (.act (.deliver (.frame ⟨pts, 0.04, 1, 16, 9, .rgba, []⟩))) ⟨0.04, rfl⟩

/-- The default configuration, and two pictures of which the first one is shown: ten milliseconds later a refresh
asks to wait, and a pause of five seconds moves the timer from 0 to 5. -/
theorem default_refreshes_paced :
    let p := (Pacer.new .default 3 .videoMaster id 0 false).acts
      [.other (.act .restart) trivial, pictureAt 0.0, pictureAt 0.04, .refresh, .wait 0.01 (by decide +kernel)]
    0.0 < p.refreshed.wait ∧ p.refreshed.wait ≤ 0.01 ∧ p.watch.renderer.lastShown.isSome ∧
      (((p.act (.setPaused true)).acts [.wait 5 (by decide +kernel), .refresh]).act
        (.setPaused false)).watch.renderer.frameTimer = finite 5 := by
  intro p
  have haccepted : (PlayerConfig.default : PlayerConfig Exact).validate = .ok .default :=
    PlayerConfig.validate_eq_ok.mpr ⟨Option.isNone_iff_eq_none.mp (by decide +kernel), rfl⟩
  obtain ⟨hwait, timer, hset, -, hpause⟩ := refreshes_paced .default haccepted 3 .videoMaster id 0 Rat.le_refl false
    [.other (.act .restart) trivial, pictureAt 0.0, pictureAt 0.04, .refresh, .wait 0.01 (by decide +kernel)]
  have htimer : p.watch.renderer.frameTimer = finite 0 := by decide +kernel
  have hzero : timer = 0 := Exact.finite.inj (hset.symm.trans htimer)
  have hmoved := hpause (by decide +kernel) [.wait 5 (by decide +kernel), .refresh] (by simp)
  refine ⟨hwait.1, hwait.2, by decide +kernel, hmoved.trans (congrArg finite ?_)⟩
  rw [hzero]
  decide +kernel

end Playback
