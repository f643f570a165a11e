import Mathlib.Tactic.Ring
import Playback.Clock.Basic
import Playback.Proofs.Exact

/-!
# What a clock reads

A clock that was set goes on from where it was set: without rounding, its reading is the position it was set to and the
way that it has made since, its speed times the time for which it ran (`Pace.way`). Its speed may change, and it may be
stopped and let run on, in any order and also twice in a row (`reads_way`); none of it makes the reading jump.

A clock that belongs to a queue is set for one generation. In another one it reads nothing; and if its speed is changed
there, or it is stopped, it has nothing to go on from, and reads nothing more until it is set again (`Pace.loses`).

The fields of a clock are set anew by some changes and not by others. What they all preserve is `Clock.Goes`: where the
clock would be at any time if nothing else happened to it.
-/

namespace Playback

open Exact

/-- What may be changed about a clock that was set. -/
inductive ClockChange where
  | speed (speed : Rat)
  | paused (paused : Bool)

/-- A change at a time, with the serial that the clock's queue has then, if it has one. -/
structure ClockEvent where
  change : ClockChange
  time : Rat
  live : Option Serial

/-- How fast a clock goes when it runs, and whether it is stopped. -/
structure Pace where
  speed : Rat
  paused : Bool

namespace Pace

/-- The way per second. -/
def rate (g : Pace) : Rat :=
  if g.paused then 0 else g.speed

def change (g : Pace) : ClockChange → Pace
  | .speed speed => { g with speed }
  | .paused paused => { g with paused }

/-- The way from a time until another one, with changes in between. -/
def way (g : Pace) (since : Rat) : List ClockEvent → Rat → Rat
  | [], now => g.rate * (now - since)
  | e :: es, now => g.rate * (e.time - since) + (g.change e.change).way e.time es now

/-- Whether a change takes the reading of the clock to go on from. -/
def takesReading (g : Pace) : ClockChange → Bool
  | .speed _ => true
  | .paused paused => paused && !g.paused

/-- Whether a reading is taken to go on from in another generation than that of the clock. -/
def losesAt (g : Pace) (serial : Serial) (e : ClockEvent) : Bool :=
  g.takesReading e.change && e.live.any (· ≠ serial)

def loses (g : Pace) (serial : Serial) : List ClockEvent → Bool
  | [] => false
  | e :: es => g.losesAt serial e || (g.change e.change).loses serial es

end Pace

namespace Clock

theorem readAt_eq {R : Type} [Scalar R] (c : Clock R) (live : Option Serial) (time : R) :
    c.readAt live time = if c.isCurrent live then c.readAt none time else Scalar.nan := by
  have hnone : c.isCurrent none = true := rfl
  unfold readAt
  rw [hnone]
  cases c.isCurrent live <;> rfl

/-- A clock after a change. -/
def apply (c : Clock Exact) (e : ClockEvent) : Clock Exact :=
  match e.change with
  | .speed speed => c.setSpeed e.live (finite speed) (finite e.time)
  | .paused paused => c.setPaused e.live paused (finite e.time)

def after (c : Clock Exact) (es : List ClockEvent) : Clock Exact :=
  es.foldl apply c

/-- The position of a clock as it goes on from where it was at a time, or from nowhere. -/
def goingOn (position : Option Rat) (g : Pace) (since now : Rat) : Exact :=
  match position with
  | some p => finite (p + g.rate * (now - since))
  | none => undefined

/-- A clock of a generation, and where it goes. -/
structure Goes (c : Clock Exact) (position : Option Rat) (since : Rat) (g : Pace) (serial : Serial) : Prop where
  reads : ∀ now, c.readAt none (finite now) = goingOn position g since now
  speed : c.speed = finite g.speed
  paused : c.paused = g.paused
  serial : c.serial = some serial

variable {c : Clock Exact} {position : Option Rat} {since : Rat} {g : Pace} {serial : Serial}

theorem Goes.isCurrent (h : c.Goes position since g serial) (live : Option Serial) :
    c.isCurrent live = !live.any (· ≠ serial) := by
  unfold Clock.isCurrent
  rw [h.serial]
  cases live with
  | none => rfl
  | some s => simp [beq_eq_decide, eq_comm]

/-- A clock that is placed goes on from there. -/
theorem place_goes (speed : c.speed = finite g.speed) (paused : c.paused = g.paused) (position : Option Rat)
    (since : Rat) :
    (c.place (position.elim undefined finite) (some serial) (finite since)).Goes position since g serial where
  reads now := by
    have hone : (1.0 : Exact) = finite 1 := by norm_num
    unfold readAt place goingOn Pace.rate
    dsimp only [Clock.isCurrent]
    rw [speed, paused]
    cases position with
    | none => cases g.paused <;> simp [hone]
    | some p =>
      cases g.paused with
      | true => simp
      | false =>
        simp [hone]
        ring
  speed := speed
  paused := paused
  serial := rfl

/-- Where a clock goes does not hang on the time that it is reckoned from. -/
theorem Goes.later (h : c.Goes position since g serial) (time : Rat) :
    c.Goes (position.map (· + g.rate * (time - since))) time g serial where
  reads now := by
    rw [h.reads]
    cases position with
    | none => rfl
    | some p =>
      show finite _ = finite (p + g.rate * (time - since) + g.rate * (now - time))
      congr 1
      ring
  speed := h.speed
  paused := h.paused
  serial := h.serial

theorem Goes.readAt (h : c.Goes position since g serial) (live : Option Serial) (time : Rat) :
    c.readAt live (finite time) = (if live.any (· ≠ serial) then none
      else position.map (· + g.rate * (time - since))).elim undefined finite := by
  rw [readAt_eq, h.isCurrent, h.reads]
  cases live.any (· ≠ serial) <;> cases position <;> rfl

/-- A change leaves a clock where it is at its time, unless the position is lost. -/
theorem Goes.apply (h : c.Goes position since g serial) (e : ClockEvent) :
    (c.apply e).Goes (if g.losesAt serial e then none else position.map (· + g.rate * (e.time - since))) e.time
      (g.change e.change) serial := by
  obtain ⟨change, time, live⟩ := e
  have hread := h.readAt live time
  cases change with
  | speed speed =>
    have hset : c.apply ⟨.speed speed, time, live⟩
        = { c with speed := finite speed }.place (c.readAt live (finite time)) c.serial (finite time) := rfl
    rw [hset, hread, h.serial]
    exact place_goes (c := { c with speed := finite speed }) (g := { g with speed }) rfl h.paused _ time
  | paused paused =>
    by_cases hsame : c.paused = paused
    · have hset : c.apply ⟨.paused paused, time, live⟩ = c := if_pos hsame
      have hpace : g.change (.paused paused) = g := by rw [← hsame, h.paused]; rfl
      have hkept : g.losesAt serial ⟨.paused paused, time, live⟩ = false := by
        simp [Pace.losesAt, Pace.takesReading, ← h.paused, hsame]
      rw [hset, hpace, hkept]
      exact h.later time
    · cases paused with
      | true =>
        have hset : c.apply ⟨.paused true, time, live⟩
            = { c with paused := true }.place (c.readAt live (finite time)) c.serial (finite time) :=
          (if_neg hsame).trans (if_pos rfl)
        have hruns : g.paused = false := h.paused ▸ Bool.eq_false_of_not_eq_true hsame
        have hloses : g.losesAt serial ⟨.paused true, time, live⟩ = live.any (· ≠ serial) := by
          simp [Pace.losesAt, Pace.takesReading, hruns]
        rw [hset, hread, h.serial, hloses]
        exact place_goes (c := { c with paused := true }) (g := { g with paused := true }) h.speed rfl _ time
      | false =>
        -- a clock that was stopped goes on from where it stands, whatever the generation
        have hstops : c.paused = true := Bool.eq_true_of_not_eq_false hsame
        have hset : c.apply ⟨.paused false, time, live⟩
            = { c with paused := false }.place c.pts c.serial (finite time) :=
          (if_neg hsame).trans (if_neg Bool.false_ne_true)
        have hstands : c.pts = (position.map (· + g.rate * (time - since))).elim undefined finite := by
          have hstanding : c.readAt none (finite time) = c.pts := if_pos hstops
          exact hstanding.symm.trans (h.readAt none time)
        rw [hset, hstands, h.serial]
        exact place_goes (c := { c with paused := false }) (g := { g with paused := false }) h.speed rfl _ time

/-- After any changes a clock is where its way has led it, unless its position was lost. -/
theorem Goes.after (h : c.Goes position since g serial) (es : List ClockEvent) :
    ∃ position' since' g', (c.after es).Goes position' since' g' serial ∧
      ∀ now, goingOn position' g' since' now = (if g.loses serial es then none
        else position.map (· + g.way since es now)).elim undefined finite := by
  induction es generalizing c position since g with
  | nil =>
    refine ⟨position, since, g, h, fun now => ?_⟩
    cases position <;> rfl
  | cons e es ih =>
    obtain ⟨position', since', g', hgoes, hreads⟩ := ih (h.apply e)
    refine ⟨position', since', g', hgoes, fun now => ?_⟩
    rw [hreads now, Pace.loses, Pace.way]
    cases g.losesAt serial e with
    | true => cases (g.change e.change).loses serial es <;> rfl
    | false =>
      cases (g.change e.change).loses serial es with
      | true => rfl
      | false => cases position <;> simp [add_assoc]

/-- **A clock reads the way it has made.** Let a clock be set to a position, and then its speed be changed and the clock
be stopped and let run on, each as often as one likes and at any times. Without rounding, its reading in its generation
is the position and the way since; and no change makes it jump. In another generation it reads nothing. If in another
generation its speed was changed, or it was stopped while it ran, it reads nothing at all. -/
theorem reads_way (c : Clock Exact) (position since speed : Rat) (serial : Serial) (es : List ClockEvent)
    (finite_speed : c.speed = finite speed) :
    let g : Pace := ⟨speed, c.paused⟩
    let c' := (c.setAt (finite position) serial (finite since)).after es
    (∀ live now, live = none ∨ live = some serial → c'.readAt live (finite now)
        = if g.loses serial es then undefined else finite (position + g.way since es now)) ∧
    (∀ live now, live ≠ none → live ≠ some serial → c'.readAt live (finite now) = undefined) ∧
    ∀ e : ClockEvent, e.live = none ∨ e.live = some serial →
      (c'.apply e).readAt e.live (finite e.time) = c'.readAt e.live (finite e.time) := by
  intro g c'
  have hset : (c.setAt (finite position) serial (finite since)).Goes (some position) since g serial :=
    place_goes finite_speed rfl (some position) since
  obtain ⟨position', since', g', hgoes, hreads⟩ := hset.after es
  have hcurrent {live : Option Serial} (h : live = none ∨ live = some serial) :
      live.any (· ≠ serial) = false := by
    rcases h with rfl | rfl <;> simp
  refine ⟨fun live now hlive => ?_, fun live now hsome hother => ?_, fun e hlive => ?_⟩
  · rw [readAt_eq, hgoes.isCurrent, hcurrent hlive, hgoes.reads, hreads]
    cases g.loses serial es <;> rfl
  · obtain ⟨s, rfl⟩ := Option.ne_none_iff_exists'.mp hsome
    have hstale : (some s).any (· ≠ serial) = true := by simpa using hother
    rw [readAt_eq, hgoes.isCurrent, hstale]
    rfl
  · have hkept : g'.losesAt serial e = false := by rw [Pace.losesAt, hcurrent hlive, Bool.and_false]
    rw [(hgoes.apply e).readAt, hgoes.readAt, hcurrent hlive, hkept]
    cases position' <;> simp

/-- A change to half the speed, and a stop. A second stop and the end of the pause fall into another generation, where
they take no reading. -/
def slowedAndStopped : List ClockEvent :=
  [⟨.speed (1 / 2), 102, some 1⟩, ⟨.paused true, 104, some 1⟩, ⟨.paused true, 105, some 2⟩, ⟨.paused false, 110, some 2⟩]

/-- From position 5 at time 100: two seconds at full speed, two and then two more at half the speed. A speed that is
changed in the other generation ends it. -/
theorem way_of_slowed_and_stopped :
    let c := (Clock.new (finite 0)).setAt (finite 5) 1 (finite 100)
    (c.after slowedAndStopped).readAt (some 1) (finite 112) = finite 9 ∧
    (c.after slowedAndStopped).readAt (some 2) (finite 112) = undefined ∧
    (c.after (slowedAndStopped ++ [⟨.speed 1, 112, some 2⟩])).readAt (some 1) (finite 112) = undefined := by
  have hspeed : (Clock.new (finite 0)).speed = finite 1 := by
    show (1.0 : Exact) = finite 1
    norm_num
  obtain ⟨hcurrent, hstale, -⟩ := reads_way (Clock.new (finite 0)) 5 100 1 1 slowedAndStopped hspeed
  obtain ⟨hlost, -, -⟩ := reads_way (Clock.new (finite 0)) 5 100 1 1
    (slowedAndStopped ++ [⟨.speed 1, 112, some 2⟩]) hspeed
  refine ⟨(hcurrent (some 1) 112 (.inr rfl)).trans ?_, hstale (some 2) 112 (by decide) (by decide),
    (hlost (some 1) 112 (.inr rfl)).trans ?_⟩
  · show finite (5 + (1 * (102 - 100) + (1 / 2 * (104 - 102) + (0 * (105 - 104)
      + (0 * (110 - 105) + 1 / 2 * (112 - 110)))))) = finite 9
    norm_num
  · rfl

end Clock
end Playback
