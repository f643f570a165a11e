import Playback.Proofs.Render.Delay
import Playback.Proofs.Render.Pictures

/-!
# What the timer counts

Each picture that comes due moves the timer, whether it is then shown or left out. `Booking` says how, as it is seen
from outside: by one pass of a selection at a time (`VideoRenderer.book`). `Journal` says what may happen to the timer
between two bookings of one generation, and every run keeps one (`bookings_keeps`):

> a booking starts from the timer of the one before it and reckons from the picture that was *shown* last.

If the picture before was shown, the wait that is booked is the one between neighbours. If it was left out, its own
wait has been booked already and is booked a second time as a part of the next one, so that the timer falls behind
by it (`late_waits_booked_again`).
-/

namespace Playback

variable {R : Type}

/-- A picture that was due, what became of it, and what that made of the timer. -/
structure Booking (R : Type) where
  frame : VideoFrame R
  fate : Fate
  /-- How far video was ahead of the master. -/
  ahead : R
  now : R
  /-- The timer before. -/
  start : R
  /-- The timer afterwards. -/
  timer : R
deriving Repr, DecidableEq

/-- The picture that was shown last, in a log with the newest first. -/
def lastShownOf (log : List (Booking R)) : Option (VideoFrame R) :=
  (log.find? (·.fate = .shown)).map (·.frame)

/-- What a booking reckons from, if it counts from this picture. -/
def Booking.reckoning (b : Booking R) (config : SyncConfig R) (previous : Option (VideoFrame R)) : Reckoning R :=
  ⟨config, b.frame, previous, b.start, b.ahead, b.now⟩

variable [Scalar R]

/-- Neither did the clocks correct the wait since a picture, nor was the time given up. -/
def Booking.Plain (b : Booking R) (config : SyncConfig R) (since : VideoFrame R) : Prop :=
  (b.reckoning config (some since)).delay = (b.reckoning config (some since)).nominal ∧
    ¬ (b.reckoning config (some since)).Lost

instance [DecidableEq R] (b : Booking R) (config : SyncConfig R) (since : VideoFrame R) :
    Decidable (b.Plain config since) :=
  inferInstanceAs (Decidable (_ ∧ _))

/-- Then the timer moves by the interval. -/
theorem Booking.Plain.timer_eq {b : Booking R} {config : SyncConfig R} {since : VideoFrame R}
    (plain : b.Plain config since) :
    (b.reckoning config (some since)).timer = b.start + since.interval b.frame config.maxFrameDuration := by
  obtain ⟨hdelay, hkept⟩ := plain
  rw [Reckoning.timer, if_neg hkept, Reckoning.due, hdelay]
  rfl

omit [Scalar R] in
/-- Late pictures do not change which one was shown last. -/
theorem lastShownOf_lates {lates front : List (Booking R)} {s : Booking R} (shown : s.fate = .shown)
    (late : ∀ d ∈ lates, d.fate = .late) : lastShownOf (lates ++ s :: front) = some s.frame := by
  have hnone : lates.find? (·.fate = .shown) = none := List.find?_eq_none.mpr fun d hd => by simp [late d hd]
  simp [lastShownOf, List.find?_append, hnone, shown]

/-- Playback is stopped or let go on. -/
def PictureAct.Pauses (a : PictureAct R) : Prop :=
  ∃ clock paused now, a = .act (.setPaused clock paused now)

/-! ## Bookings -/

namespace VideoRenderer

/-- Adds the bookings of a selection to a log. The selection is made one picture at a time: if the ring is not
shorter afterwards the picture waits, and if the counter of late pictures has not moved it was shown. -/
def book (v : VideoRenderer R) (live : LiveSerials) (now wait : R) :
    Nat → MediaClock R → List (Booking R) → List (Booking R)
  | 0, _, log => log
  | fuel + 1, m, log =>
    match v.ring.front? with
    | none => log
    | some frame =>
      let r := v.select m live now wait 1
      let booking (fate : Fate) : Booking R :=
        ⟨frame, fate, m.ahead live now, now, v.frameTimer, r.1.frameTimer⟩
      if r.1.ring.length = v.ring.length then log
      else if frame.serial ≠ live.video then r.1.book live now wait fuel r.2.1 log
      else if r.1.dropped = v.dropped then booking .shown :: log
      else r.1.book live now wait fuel r.2.1 (booking .late :: log)

end VideoRenderer

namespace VideoWatch

/-- Adds the bookings of an act to a log. -/
def book (w : VideoWatch R) (log : List (Booking R)) : PictureAct R → List (Booking R)
  | .act (.refresh clock audio now) =>
    if w.renderer.paused && !w.renderer.forceRefresh then log
    else
      let v := w.renderer
      v.book ⟨audio, w.live⟩ now v.config.refreshRate v.ring.length clock log
  | _ => log

/-- Adds the bookings of a run to a log. -/
def bookings (w : VideoWatch R) (log : List (Booking R)) : List (PictureAct R) → List (Booking R)
  | [] => log
  | a :: as => (w.after a).bookings (w.book log a) as

end VideoWatch

/-! ## What may happen to the timer -/

/-- A log of one generation, with the picture shown last and the timer. Until a picture of the generation was shown
the timer may be set in any way; from then on it moves only with a booking, or when playback goes on after a pause.
-/
inductive Journal (config : SyncConfig R) (live : Serial) (pauses : Prop) :
    List (Booking R) → Option (VideoFrame R) → R → Prop where
  | new (timer : R) : Journal config live pauses [] none timer
  | reset {log : List (Booking R)} {before : R} (h : Journal config live pauses log none before) (timer : R) :
    Journal config live pauses log none timer
  | resume {log : List (Booking R)} {previous : Option (VideoFrame R)} {before : R} (may : pauses)
    (h : Journal config live pauses log previous before) (timer : R) : Journal config live pauses log previous timer
  | late {log : List (Booking R)} {previous : Option (VideoFrame R)} (b : Booking R)
    (h : Journal config live pauses log previous b.start) (present : b.frame.serial = live) (fate : b.fate = .late)
    (counts : b.timer = (b.reckoning config previous).timer) : Journal config live pauses (b :: log) previous b.timer
  | shown {log : List (Booking R)} {previous : Option (VideoFrame R)} (b : Booking R)
    (h : Journal config live pauses log previous b.start) (present : b.frame.serial = live) (fate : b.fate = .shown)
    (counts : b.timer = (b.reckoning config previous).timer) :
    Journal config live pauses (b :: log) (some b.frame) b.timer

namespace Journal

variable {config : SyncConfig R} {live : Serial} {pauses : Prop} {log : List (Booking R)}
  {previous : Option (VideoFrame R)} {timer : R}

theorem previous_eq (h : Journal config live pauses log previous timer) : previous = lastShownOf log := by
  induction h with
  | new => rfl
  | reset _ _ ih | resume _ _ _ ih => exact ih
  | late b _ _ fate _ ih => rw [ih]; simp [lastShownOf, fate]
  | shown b _ _ fate _ _ => simp [lastShownOf, fate]

/-- Every booking counts from the picture that was shown last before it. -/
theorem booked (h : Journal config live pauses log previous timer) {later earlier : List (Booking R)} {b : Booking R}
    (split : log = later ++ b :: earlier) :
    b.frame.serial = live ∧ b.timer = (b.reckoning config (lastShownOf earlier)).timer ∧
      Journal config live pauses earlier (lastShownOf earlier) b.start := by
  induction h generalizing later with
  | new => exact absurd split.symm (by simp)
  | reset _ _ ih | resume _ _ _ ih => exact ih split
  | late b' h present _ counts ih | shown b' h present _ counts ih =>
    cases later with
    | cons _ later => exact ih (List.cons.inj split).2
    | nil =>
      obtain ⟨rfl, rfl⟩ := List.cons.inj split
      obtain rfl := h.previous_eq
      exact ⟨present, counts, h⟩

theorem present (h : Journal config live pauses log previous timer) {b : Booking R} (mem : b ∈ log) :
    b.frame.serial = live := by
  obtain ⟨later, earlier, split⟩ := List.append_of_mem mem
  exact (h.booked split).1

/-- Without pauses the timer stays as the newest booking left it, once a picture was shown. -/
theorem timer_eq {b : Booking R} {shown : VideoFrame R} (steady : ¬ pauses)
    (h : Journal config live pauses (b :: log) (some shown) timer) : timer = b.timer := by
  cases h with
  | resume may => exact absurd may steady
  | late | shown => rfl

/-- If nothing is corrected, what the timer moves by after a picture that was shown are the intervals from that
picture to each of those that follow. -/
theorem timer_sum (steady : ¬ pauses) (h : Journal config live pauses log previous timer)
    {later lates front : List (Booking R)} {b s : Booking R} (split : log = later ++ b :: (lates ++ s :: front))
    (shown : s.fate = .shown) (late : ∀ d ∈ lates, d.fate = .late) (plain : ∀ d ∈ b :: lates, d.Plain config s.frame) :
    b.timer = (b :: lates).foldr (fun d t => t + s.frame.interval d.frame config.maxFrameDuration) s.timer := by
  induction lates generalizing later b with
  | nil =>
    obtain ⟨-, hcounts, hjournal⟩ := h.booked split
    rw [lastShownOf_lates shown late] at hcounts hjournal
    rw [hcounts, (plain b (List.mem_cons_self ..)).timer_eq, hjournal.timer_eq steady]
    rfl
  | cons d lates ih =>
    have hsplit : log = (later ++ [b]) ++ d :: (lates ++ s :: front) := by
      rw [split, List.append_assoc]
      rfl
    -- the late picture before this one was booked from the same picture
    have hd : d.timer = (d :: lates).foldr _ s.timer :=
      ih hsplit (fun d' hd' => late d' (List.mem_cons_of_mem _ hd'))
        (fun d' hd' => plain d' (List.mem_cons_of_mem _ hd'))
    obtain ⟨-, hcounts, hjournal⟩ := h.booked split
    rw [lastShownOf_lates shown late] at hcounts hjournal
    rw [hcounts, (plain b (List.mem_cons_self ..)).timer_eq, hjournal.timer_eq steady, hd]
    rfl

end Journal

/-! ## Renderers keep a journal -/

namespace VideoRenderer

variable {config : SyncConfig R} {pauses : Prop} {log : List (Booking R)} {v : VideoRenderer R}

/-- A log is the journal of a renderer. -/
structure Keeps (v : VideoRenderer R) (config : SyncConfig R) (live : Serial) (pauses : Prop)
    (log : List (Booking R)) : Prop where
  ring : v.ring.Intact
  journal : Journal config live pauses log (v.lastShown.filter (·.serial = live)) v.frameTimer
  config : v.config = config

/-- To look at a picture is no more than to set the timer before the first one. -/
theorem Keeps.begun {live : LiveSerials} (h : v.Keeps config live.video pauses log) {frame : VideoFrame R}
    (present : frame.serial = live.video) (m : MediaClock R) (now : R) :
    { v with frameTimer := (v.reckoning m live now frame).begun }.Keeps config live.video pauses log := by
  refine ⟨h.ring, ?_, h.config⟩
  have hjournal := h.journal
  unfold Reckoning.begun reckoning
  dsimp only
  rw [present]
  cases hprevious : v.lastShown.filter (·.serial = live.video) with
  | none =>
    rw [hprevious] at hjournal
    exact hjournal.reset now
  | some previous =>
    rw [hprevious] at hjournal
    exact hjournal

/-- A booking reckons as the renderer does. -/
theorem Keeps.reckoning_eq {live : LiveSerials} (h : v.Keeps config live.video pauses log) {frame : VideoFrame R}
    (present : frame.serial = live.video) (m : MediaClock R) (now timer : R) (fate : Fate) :
    v.reckoning m live now frame
      = (Booking.mk frame fate (m.ahead live now) now v.frameTimer timer).reckoning config
          (v.lastShown.filter (·.serial = live.video)) := by
  unfold reckoning Booking.reckoning
  rw [h.config, present]

theorem book_succ {frame : VideoFrame R} (hfront : v.ring.front? = some frame) {m : MediaClock R}
    {live : LiveSerials} {now wait : R} {r : VideoRenderer R × MediaClock R × R}
    (hone : v.select m live now wait 1 = r) (fuel : Nat) (log : List (Booking R)) :
    let booking (fate : Fate) : Booking R := ⟨frame, fate, m.ahead live now, now, v.frameTimer, r.1.frameTimer⟩
    v.book live now wait (fuel + 1) m log
      = if r.1.ring.length = v.ring.length then log
        else if frame.serial ≠ live.video then r.1.book live now wait fuel r.2.1 log
        else if r.1.dropped = v.dropped then booking .shown :: log
        else r.1.book live now wait fuel r.2.1 (booking .late :: log) := by
  subst hone
  rw [book, hfront]

theorem book_keeps (fuel : Nat) (m : MediaClock R) (live : LiveSerials) (now wait : R)
    (h : v.Keeps config live.video pauses log) :
    (v.select m live now wait fuel).1.Keeps config live.video pauses (v.book live now wait fuel m log) := by
  induction fuel generalizing v m log with
  | zero => exact h
  | succ fuel ih =>
    obtain ⟨l, hl⟩ := h.ring
    cases l with
    | nil =>
      have hnone : v.ring.front? = none := hl.front?
      rw [select, book, hnone]
      exact h
    | cons frame l =>
      have hfront : v.ring.front? = some frame := hl.front?
      have hpop := hl.popFront_cons.2
      have hshorter : v.ring.popFront.2.length ≠ v.ring.length := by
        rw [hl.length, hpop.length, List.length_cons]
        exact Nat.ne_of_lt (Nat.lt_succ_self _)
      -- the log sees this pass alone, the selection goes on with it
      obtain ⟨more, r, hpass, hselect⟩ := select_pass hfront m live now wait
      have hone : v.select m live now wait 1 = r := by cases hpass <;> exact hselect 0
      have hbook := book_succ hfront hone fuel log
      rw [hselect fuel]
      cases hpass with
      | past other =>
        rw [hbook.trans ((if_neg hshorter).trans (if_pos other))]
        exact ih m ⟨⟨l, hpop⟩, h.journal, h.config⟩
      | held present _ | early present _ _ =>
        rw [hbook.trans (if_pos rfl)]
        exact h.begun present m now
      | late present =>
        have hcounted : v.dropped + 1 ≠ v.dropped := Nat.succ_ne_self _
        rw [hbook.trans ((if_neg hshorter).trans ((if_neg (not_not_intro present)).trans (if_neg hcounted)))]
        refine ih _ ⟨⟨l, hpop⟩, ?_, h.config⟩
        exact .late ⟨frame, .late, m.ahead live now, now, v.frameTimer, (v.reckoning m live now frame).timer⟩
          h.journal present rfl (congrArg Reckoning.timer (h.reckoning_eq present m now _ _))
      | shown present =>
        rw [hbook.trans ((if_neg hshorter).trans ((if_neg (not_not_intro present)).trans (if_pos rfl)))]
        refine ⟨⟨l, hpop⟩, ?_, h.config⟩
        have hlast : (some frame).filter (·.serial = live.video) = some frame := by simp [present]
        dsimp only [cond_false]
        rw [hlast]
        exact .shown ⟨frame, .shown, m.ahead live now, now, v.frameTimer, (v.reckoning m live now frame).timer⟩
          h.journal present rfl (congrArg Reckoning.timer (h.reckoning_eq present m now _ _))

end VideoRenderer

namespace VideoWatch

variable {config : SyncConfig R} {pauses : Prop} {log : List (Booking R)} {w : VideoWatch R}

theorem refresh_keeps (h : w.renderer.Keeps config w.live pauses log) (clock : MediaClock R) (audio : Serial)
    (now : R) :
    (w.after (.act (.refresh clock audio now))).renderer.Keeps config w.live pauses
      (w.book log (.act (.refresh clock audio now))) := by
  have hselection : (w.renderer.selection clock ⟨audio, w.live⟩ now).1.Keeps config w.live pauses
      (w.book log (.act (.refresh clock audio now))) := by
    unfold VideoRenderer.selection VideoWatch.book
    split
    next => exact h
    next => exact VideoRenderer.book_keeps w.renderer.ring.length clock ⟨audio, w.live⟩ now _ h
  have hrenderer := (w.renderer.refresh_displays clock ⟨audio, w.live⟩ now).2
  rw [VideoRenderer.chosen_eq] at hrenderer
  obtain ⟨-, -, hring, -, hlast, hconfig⟩ := (w.renderer.selection clock ⟨audio, w.live⟩ now).1.display_keeps
  have htimer := (w.renderer.selection clock ⟨audio, w.live⟩ now).1.display_timing.1
  show (w.renderer.refresh clock ⟨audio, w.live⟩ now).renderer.Keeps config w.live pauses _
  rw [hrenderer]
  refine ⟨hring ▸ hselection.ring, ?_, hconfig.trans hselection.config⟩
  dsimp only
  rw [hlast, htimer]
  exact hselection.journal

/-- Whatever else happens in a generation leaves the journal alone; a pause may move the timer. -/
theorem after_keeps (h : w.renderer.Keeps config w.live pauses log) {a : PictureAct R} (same : a ≠ .act .restart)
    (may : a.Pauses → pauses) :
    (w.after a).live = w.live ∧ (w.after a).renderer.Keeps config w.live pauses (w.book log a) := by
  cases a with
  | start | redraw => exact ⟨rfl, h.ring, h.journal, h.config⟩
  | act a =>
    cases a with
    | restart => exact absurd rfl same
    | request => exact ⟨rfl, h.ring, h.journal, h.config⟩
    | stop => exact ⟨rfl, ⟨[], w.renderer.ring.clear_holds⟩, h.journal, h.config⟩
    | refresh clock audio now => exact ⟨rfl, refresh_keeps h clock audio now⟩
    | flush =>
      obtain ⟨hring, -, hlast, hconfig⟩ := w.renderer.flush_keeps w.live
      refine ⟨rfl, ?_, ?_, hconfig.trans h.config⟩
      · exact hring ▸ h.ring.retain _
      · show Journal config w.live pauses log ((w.renderer.flush w.live).lastShown.filter _)
          (w.renderer.flush w.live).frameTimer
        rw [hlast, (w.renderer.flush_timing w.live).1]
        exact h.journal
    | setPaused clock paused now =>
      obtain ⟨hring, -, hlast, hconfig⟩ := w.renderer.setPaused_keeps clock paused now
      refine ⟨rfl, hring ▸ h.ring, ?_, hconfig.trans h.config⟩
      show Journal config w.live pauses log ((w.renderer.setPaused clock paused now).lastShown.filter _) _
      rw [hlast]
      exact .resume (may ⟨clock, paused, now, rfl⟩) h.journal _
    | deliver result =>
      cases result with
      | endOfStream | aborted | error => exact ⟨rfl, h.ring, h.journal, h.config⟩
      | frame frame =>
        refine ⟨rfl, ?_⟩
        unfold after act VideoRenderer.deliver
        dsimp only
        split
        next => exact ⟨h.ring.pushBack frame, h.journal, h.config⟩
        next => exact ⟨h.ring, h.journal, h.config⟩

theorem bookings_keeps (h : w.renderer.Keeps config w.live pauses log) {as : List (PictureAct R)}
    (same : ∀ a ∈ as, a ≠ .act .restart) (may : ∀ a ∈ as, a.Pauses → pauses) :
    (as.foldl after w).renderer.Keeps config w.live pauses (w.bookings log as) := by
  induction as generalizing w log with
  | nil => exact h
  | cons a as ih =>
    obtain ⟨hlive, hkept⟩ := after_keeps h (same a (List.mem_cons_self ..)) (may a (List.mem_cons_self ..))
    rw [← hlive] at hkept
    have hrest := ih hkept (fun b hb => same b (List.mem_cons_of_mem _ hb))
      (fun b hb => may b (List.mem_cons_of_mem _ hb))
    exact hlive ▸ hrest

end VideoWatch

/-! ## Without rounding -/

open Exact

/-- After one that was shown, some pictures are left out, and then another one comes due (newest first). Their
timestamps are credible, and nothing about their waits is corrected. -/
structure Skips (config : SyncConfig Exact) (s : Booking Exact) (lates : List (Booking Exact)) (b : Booking Exact)
    (time : Booking Exact → Rat) : Prop where
  shown : s.fate = .shown
  late : ∀ d ∈ lates, d.fate = .late
  plain : ∀ d ∈ b :: lates, d.Plain config s.frame
  pts : ∀ d ∈ s :: b :: lates, d.frame.pts = finite (time d)
  credible : ∃ longest, config.maxFrameDuration = finite longest ∧
    ∀ d ∈ b :: lates, time s < time d ∧ time d - time s ≤ longest

variable {config : SyncConfig Exact} {live : Serial} {log : List (Booking Exact)}
  {previous : Option (VideoFrame Exact)} {timer : Exact}

theorem Journal.skips (h : Journal config live False log previous timer) {later lates front : List (Booking Exact)}
    {b s : Booking Exact} (split : log = later ++ b :: (lates ++ s :: front)) {time : Booking Exact → Rat}
    (skips : Skips config s lates b time) {start : Rat} (set : s.timer = finite start) :
    b.timer = finite (start + (lates.map fun d => time d - time s).sum + (time b - time s)) := by
  obtain ⟨longest, hlongest, hcredible⟩ := skips.credible
  have hpresent : ∀ d ∈ s :: b :: lates, d.frame.serial = live := by
    intro d hd
    refine h.present ?_
    rw [split]
    simp only [List.mem_cons, List.mem_append] at hd ⊢
    tauto
  have hinterval : ∀ d ∈ b :: lates,
      s.frame.interval d.frame config.maxFrameDuration = finite (time d - time s) := by
    intro d hd
    obtain ⟨hordered, hnear⟩ := hcredible d hd
    have hmem : d ∈ s :: b :: lates := List.mem_cons_of_mem _ hd
    have hsame : s.frame.serial = d.frame.serial :=
      (hpresent s (List.mem_cons_self ..)).trans (hpresent d hmem).symm
    rw [hlongest]
    exact VideoFrame.interval_credible hsame (skips.pts s (List.mem_cons_self ..)) (skips.pts d hmem) hordered hnear
  calc b.timer
    _ = (b :: lates).foldr (fun d t => t + s.frame.interval d.frame config.maxFrameDuration) (finite start) :=
      set ▸ h.timer_sum id split skips.shown skips.late skips.plain
    _ = finite (start + (lates.map fun d => time d - time s).sum) + finite (time b - time s) := by
      rw [List.foldr_cons, foldr_add (fun d hd => hinterval d (List.mem_cons_of_mem _ hd)),
        hinterval b (List.mem_cons_self ..)]
    _ = _ := finite_add ..

/-- **What is booked for a late picture is booked again.** Let a renderer have shown nothing of the present generation
yet, and let any run of it stay in that generation. Every booking moves the timer by the corrected wait since the
picture that was *shown* last before it. So if the picture before it was shown, it is the wait between these two. But if
late pictures were left out after one that was shown, nothing was corrected and nobody paused, the timer at the next
picture is not at its distance from the one that was shown: it is further on by the distance of each late picture.
And while nobody pauses, the timer of the renderer is the one that the newest booking left. -/
theorem late_waits_booked_again (w : VideoWatch Exact) (intact : w.renderer.ring.Intact)
    (fresh : ∀ frame, w.renderer.lastShown = some frame → frame.serial ≠ w.live) (as : List (PictureAct Exact))
    (same : ∀ a ∈ as, a ≠ .act .restart) :
    let config := w.renderer.config
    (∀ later b earlier, w.bookings [] as = later ++ b :: earlier →
      b.frame.serial = w.live ∧ b.timer = (b.reckoning config (lastShownOf earlier)).timer ∧
      ∀ p front, earlier = p :: front → p.fate = .shown → b.timer = (b.reckoning config (some p.frame)).timer) ∧
    ((∀ a ∈ as, ¬ a.Pauses) →
      (∀ later b lates s front, w.bookings [] as = later ++ b :: (lates ++ s :: front) →
        ∀ (time : Booking Exact → Rat) (start : Rat), Skips config s lates b time → s.timer = finite start →
          b.timer = finite (start + (lates.map fun d => time d - time s).sum + (time b - time s))) ∧
      ∀ b earlier, w.bookings [] as = b :: earlier → (lastShownOf (b :: earlier)).isSome = true →
        (as.foldl VideoWatch.after w).renderer.frameTimer = b.timer) := by
  intro config
  have hnone : w.renderer.lastShown.filter (·.serial = w.live) = none :=
    Option.filter_eq_none_iff.mpr fun frame hframe => by simpa using fresh frame hframe
  have hkeeps (pauses : Prop) : w.renderer.Keeps config w.live pauses [] :=
    ⟨intact, hnone ▸ .new _, rfl⟩
  refine ⟨fun later b earlier split => ?_, fun steady => ⟨fun later b lates s front split time start skips set => ?_,
    fun b earlier split hshown => ?_⟩⟩
  · have hjournal := (VideoWatch.bookings_keeps (hkeeps True) same fun _ _ _ => trivial).journal
    obtain ⟨hserial, hcounts, -⟩ := hjournal.booked split
    refine ⟨hserial, hcounts, fun p front hearlier hshown => ?_⟩
    have hlast : lastShownOf earlier = some p.frame := by simp [lastShownOf, hearlier, hshown]
    rwa [hlast] at hcounts
  · exact (VideoWatch.bookings_keeps (hkeeps False) same steady).journal.skips split skips set
  · have hjournal := (VideoWatch.bookings_keeps (hkeeps False) same steady).journal
    obtain ⟨shown, hlast⟩ := Option.isSome_iff_exists.mp hshown
    rw [split] at hjournal
    rw [hjournal.previous_eq, hlast] at hjournal
    exact hjournal.timer_eq id

/-- A booking at 25 pictures a second, where the clocks correct nothing. -/
def bookingOf (pts : Exact) (fate : Fate) (now start timer : Exact) : Booking Exact :=
  ⟨⟨pts, 0.04, 1, 16, 9, .rgba, []⟩, fate, undefined, now, start, timer⟩

/-- Three pictures, 40 ms apart. The second one is due at 40 ms and is left out at 100 ms; the third one is then due at
120 ms instead of 80 ms. -/
theorem second_wait_booked_again :
    let config : SyncConfig Exact := { SyncConfig.default with frameDrop := .always }
    let clock : MediaClock Exact := .new .videoMaster id 0.0
    let picture (pts : Exact) : PictureAct Exact := .act (.deliver (.frame ⟨pts, 0.04, 1, 16, 9, .rgba, []⟩))
    let shown := bookingOf 0.0 .shown 0.0 0.0 0.0
    let late := bookingOf 0.04 .late 0.1 0.0 0.04
    ∃ third : Booking Exact,
      ((VideoWatch.new config 8).after (.act .restart)).bookings []
          [picture 0.0, picture 0.04, picture 0.08, .act (.refresh clock 1 0.0), .act (.refresh clock 1 0.1),
            .act (.refresh clock 1 0.12)] = [third, late, shown] ∧
        third.frame.pts = finite 0.08 ∧ third.timer = finite (0 + [0.04].sum + 0.08) := by
  intro config clock picture shown late
  let third := bookingOf 0.08 .shown 0.12 0.04 0.12
  have hlog : ((VideoWatch.new config 8).after (.act .restart)).bookings []
      [picture 0.0, picture 0.04, picture 0.08, .act (.refresh clock 1 0.0), .act (.refresh clock 1 0.1),
        .act (.refresh clock 1 0.12)] = [third, late, shown] := by decide +kernel
  refine ⟨third, hlog, rfl, ?_⟩
  have hskips : Skips config shown [late] third (fun d => (Scalar.fraction? d.frame.pts).getD 0) :=
    ⟨rfl, by simp [late, bookingOf], by decide +kernel, by decide +kernel, 10, by decide +kernel, by decide +kernel⟩
  have hbooked := ((late_waits_booked_again ((VideoWatch.new config 8).after (.act .restart)) ⟨[], Ring.new_holds 8⟩
    nofun _ (by simp [picture])).2 (by simp [picture, PictureAct.Pauses])).1 [] third [late] shown [] hlog _ 0 hskips
    (by decide +kernel)
  exact hbooked.trans (by decide +kernel)

end Playback
