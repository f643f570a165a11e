import Playback.Render.Video

/-!
# Passes of a selection

A selection looks at one picture after the other. What it does with one is a pass, and `select_pass` says what
becomes of the picture, of the timer and of the clocks. A pass reckons from the picture that was shown last, if that
is of the same generation (`VideoRenderer.reckoning`): the nominal wait since then, corrected by the clocks, gives the
time at which the picture is due, and from that the timer.
-/

namespace Playback

variable {R : Type} [Scalar R]

/-- How far video is ahead of the master; undefined if video is the master. -/
def MediaClock.ahead (m : MediaClock R) (live : LiveSerials) (now : R) : R :=
  if m.masterType = .videoMaster then Scalar.nan else m.readAt .video live now - m.readMaster live now

/-- What the time of a picture is reckoned from. -/
structure Reckoning (R : Type) where
  config : SyncConfig R
  frame : VideoFrame R
  /-- The picture of the same generation that the wait counts from; the first one has none. -/
  previous : Option (VideoFrame R)
  /-- The timer as it is found. -/
  start : R
  /-- How far video is ahead of the master. -/
  ahead : R
  now : R

namespace Reckoning

variable (r : Reckoning R)

/-- Since when the picture waits: the first one of a generation only since now. -/
def begun : R :=
  if r.previous.isSome then r.start else r.now

/-- The wait by the timestamps. -/
def nominal : R :=
  (r.previous.map (·.interval r.frame r.config.maxFrameDuration)).getD 0.0

/-- The wait as the clocks correct it. -/
def delay : R :=
  (r.config.targetDelay? r.nominal r.ahead).getD r.nominal

def due : R :=
  r.begun + r.delay

/-- Whether the picture was due so long ago that its time is given up. -/
def Lost : Prop :=
  0.0 < r.delay ∧ r.config.thresholdMax < r.now - r.due

instance : Decidable r.Lost :=
  inferInstanceAs (Decidable (_ ∧ _))

/-- The timer once the picture is due. -/
def timer : R :=
  if r.Lost then r.now else r.due

end Reckoning

namespace VideoRenderer

def reckoning (v : VideoRenderer R) (m : MediaClock R) (live : LiveSerials) (now : R) (frame : VideoFrame R) :
    Reckoning R where
  config := v.config
  frame
  previous := v.lastShown.filter (·.serial = frame.serial)
  start := v.frameTimer
  ahead := m.ahead live now
  now

/-- The renderer without the first picture. -/
def passed (v : VideoRenderer R) (timer : R) : VideoRenderer R :=
  { v with frameTimer := timer, ring := v.ring.popFront.2 }

/-- What a selection does with the first picture, and whether it goes on. The picture is passed over if its
generation is past; it is held by a pause or waits until it is due; and from then on it is shown, or left out if the
one behind it is due as well and late pictures are dropped. -/
inductive Pass (v : VideoRenderer R) (m : MediaClock R) (live : LiveSerials) (now wait : R)
    (frame : VideoFrame R) : Bool → VideoRenderer R × MediaClock R × R → Prop where
  | past (other : frame.serial ≠ live.video) :
    Pass v m live now wait frame true (v.passed v.frameTimer, m, wait)
  | held (present : frame.serial = live.video) (paused : v.paused = true) :
    Pass v m live now wait frame false
      ({ v with frameTimer := (v.reckoning m live now frame).begun }, m, wait)
  | early (present : frame.serial = live.video) (playing : v.paused = false)
      (before : now < (v.reckoning m live now frame).due) :
    Pass v m live now wait frame false
      ({ v with frameTimer := (v.reckoning m live now frame).begun }, m,
        Scalar.min ((v.reckoning m live now frame).due - now) wait)
  | late (present : frame.serial = live.video) (playing : v.paused = false)
      (reached : ¬ now < (v.reckoning m live now frame).due) (next : VideoFrame R)
      (followed : v.ring.get? 1 = some next) (drops : v.dropsLate m = true)
      (overdue : (v.reckoning m live now frame).timer + frame.interval next v.config.maxFrameDuration < now) :
    Pass v m live now wait frame true
      ({ v.passed (v.reckoning m live now frame).timer with dropped := v.dropped + 1 },
        v.updateClock m live now frame, wait)
  | shown (present : frame.serial = live.video) (playing : v.paused = false)
      (reached : ¬ now < (v.reckoning m live now frame).due) :
    Pass v m live now wait frame false
      ({ v.passed (v.reckoning m live now frame).timer with lastShown := some frame, forceRefresh := true },
        v.updateClock m live now frame, wait)

theorem updateClock_masterType (v : VideoRenderer R) (m : MediaClock R) (live : LiveSerials) (now : R)
    (frame : VideoFrame R) : (v.updateClock m live now frame).masterType = m.masterType := by
  unfold updateClock
  split <;> rfl

omit [Scalar R] in
theorem dropsLate_congr (v : VideoRenderer R) {m m' : MediaClock R} (master : m'.masterType = m.masterType) :
    v.dropsLate m' = v.dropsLate m := by
  unfold dropsLate
  rw [master]

/-- One pass, in terms of what the picture is reckoned from. -/
theorem select_succ {v : VideoRenderer R} {frame : VideoFrame R} (h : v.ring.front? = some frame)
    (m : MediaClock R) (live : LiveSerials) (now wait : R) (fuel : Nat) :
    let r := v.reckoning m live now frame
    let m' := v.updateClock m live now frame
    v.select m live now wait (fuel + 1)
      = if frame.serial ≠ live.video then (v.passed v.frameTimer).select m live now wait fuel
        else if v.paused then ({ v with frameTimer := r.begun }, m, wait)
        else if now < r.due then ({ v with frameTimer := r.begun }, m, Scalar.min (r.due - now) wait)
        else if (v.ring.get? 1).any fun next =>
            v.dropsLate m' && r.timer + frame.interval next v.config.maxFrameDuration < now then
          select { v.passed r.timer with dropped := v.dropped + 1 } m' live now wait fuel
        else ({ v.passed r.timer with lastShown := some frame, forceRefresh := true }, m', wait) := by
  have hbegun : (if (v.lastShown.filter (·.serial = frame.serial)).isSome then v else { v with frameTimer := now })
      = { v with frameTimer := (v.reckoning m live now frame).begun } := by
    unfold Reckoning.begun reckoning
    split <;> rfl
  rw [select, h]
  dsimp only
  rw [hbegun]
  rfl

theorem select_pass {v : VideoRenderer R} {frame : VideoFrame R} (h : v.ring.front? = some frame)
    (m : MediaClock R) (live : LiveSerials) (now wait : R) :
    ∃ more r, Pass v m live now wait frame more r ∧
      ∀ fuel, v.select m live now wait (fuel + 1) = bif more then r.1.select r.2.1 live now wait fuel else r := by
  have hselect := select_succ h m live now wait
  by_cases hother : frame.serial ≠ live.video
  · exact ⟨true, _, .past hother, fun fuel => (hselect fuel).trans (if_pos hother)⟩
  have hpresent : frame.serial = live.video := Decidable.not_not.mp hother
  simp only [if_neg hother] at hselect
  by_cases hpaused : v.paused = true
  · exact ⟨false, _, .held hpresent hpaused, fun fuel => (hselect fuel).trans (if_pos hpaused)⟩
  have hplaying : v.paused = false := by simpa using hpaused
  simp only [if_neg hpaused] at hselect
  by_cases hbefore : now < (v.reckoning m live now frame).due
  · exact ⟨false, _, .early hpresent hplaying hbefore, fun fuel => (hselect fuel).trans (if_pos hbefore)⟩
  simp only [if_neg hbefore] at hselect
  by_cases hlate : (v.ring.get? 1).any fun next => v.dropsLate (v.updateClock m live now frame) &&
      (v.reckoning m live now frame).timer + frame.interval next v.config.maxFrameDuration < now
  · -- the picture is late with respect to the one behind it
    obtain ⟨next, hnext, hdue⟩ := (Option.any_eq_true _ _).mp hlate
    obtain ⟨hdrops, hoverdue⟩ := Bool.and_eq_true_iff.mp hdue
    have hdrops' : v.dropsLate m = true :=
      (v.dropsLate_congr (v.updateClock_masterType m live now frame)).symm.trans hdrops
    exact ⟨true, _, .late hpresent hplaying hbefore next hnext hdrops' (of_decide_eq_true hoverdue),
      fun fuel => (hselect fuel).trans (if_pos hlate)⟩
  · exact ⟨false, _, .shown hpresent hplaying hbefore, fun fuel => (hselect fuel).trans (if_neg hlate)⟩

/-! ## One refresh -/

/-- What a refresh chooses: nothing during a pause. -/
def selection (v : VideoRenderer R) (m : MediaClock R) (live : LiveSerials) (now : R) :
    VideoRenderer R × MediaClock R × R :=
  if v.paused && !v.forceRefresh then (v, m, v.config.refreshRate)
  else v.select m live now v.config.refreshRate v.ring.length

omit [Scalar R] in
theorem display_timing (v : VideoRenderer R) :
    v.display.2.frameTimer = v.frameTimer ∧ v.display.2.forceRefresh = false := by
  unfold display
  split <;> exact ⟨rfl, rfl⟩

/-- The timing of a refresh is that of its choice, and nothing is left to be shown again. -/
theorem refresh_selects (v : VideoRenderer R) (m : MediaClock R) (live : LiveSerials) (now : R) :
    (v.refresh m live now).renderer.frameTimer = (v.selection m live now).1.frameTimer ∧
      (v.refresh m live now).renderer.forceRefresh = false ∧
      (v.refresh m live now).clock = (v.selection m live now).2.1 ∧
      (v.refresh m live now).wait = (v.selection m live now).2.2 := by
  have hdisplay := (v.selection m live now).1.display_timing
  exact ⟨hdisplay.1, hdisplay.2, rfl, rfl⟩

omit [Scalar R] in
theorem flush_timing (v : VideoRenderer R) (serial : Serial) :
    (v.flush serial).frameTimer = v.frameTimer ∧ (v.flush serial).forceRefresh = v.forceRefresh := by
  unfold flush
  dsimp only
  split <;> exact ⟨rfl, rfl⟩

theorem selection_paused {v : VideoRenderer R} (paused : v.paused = true) (calm : v.forceRefresh = false)
    (m : MediaClock R) (live : LiveSerials) (now : R) :
    v.selection m live now = (v, m, v.config.refreshRate) := by
  rw [selection, paused, calm]
  rfl

theorem selection_playing {v : VideoRenderer R} (playing : v.paused = false)
    (m : MediaClock R) (live : LiveSerials) (now : R) :
    v.selection m live now = v.select m live now v.config.refreshRate v.ring.length := by
  rw [selection, playing]
  rfl

end VideoRenderer
end Playback
