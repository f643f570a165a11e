import Playback.Proofs.Clock.Reading

/-!
# Clocks that are pulled to others

A clock is pulled to another one that it is too far from. It takes over the position of the other clock, and with it the
generation that the other clock was set in. A clock without a queue then reads what the other one reads, and at that
time a second pull finds nothing to do. A clock of a queue checks the generation it has taken over against its own queue:
if they differ it reads nothing, even if it had a reading before, and every further pull does the same again
(`pulled_reads_iff`).
-/

namespace Playback

open Exact

/-! ## Distances -/

namespace Exact

/-- A value is no further from itself than a threshold. -/
theorem not_apart_self {threshold : Exact} (nonneg : 0.0 ≤ threshold) (x : Exact) :
    ¬ threshold < Scalar.abs (x - x) := by
  rw [zero_eq] at nonneg
  intro h
  cases x with
  | finite q =>
    rw [finite_sub, sub_self, abs_finite, abs_zero] at h
    cases threshold with
    | undefined | negInf => cases nonneg
    | posInf => cases h
    | finite t => exact absurd ((finite_le ..).mp nonneg) (Rat.not_le.mpr ((finite_lt ..).mp h))
  | undefined | negInf | posInf => cases threshold <;> cases h

/-- Two different values that are defined have a distance. -/
theorem distance_defined {x y : Exact} (hx : x ≠ undefined) (hy : y ≠ undefined) (h : x ≠ y) :
    Scalar.abs (x - y) ≠ undefined := by
  cases x with
  | undefined => exact absurd rfl hx
  | finite a => cases y with
    | undefined => exact absurd rfl hy
    | finite b => rw [finite_sub, abs_finite]; exact nofun
    | negInf | posInf => exact nofun
  | negInf => cases y with
    | undefined => exact absurd rfl hy
    | negInf => exact absurd rfl h
    | finite | posInf => exact nofun
  | posInf => cases y with
    | undefined => exact absurd rfl hy
    | posInf => exact absurd rfl h
    | finite | negInf => exact nofun

/-- Values that are not further apart than a threshold are the same, which infinities may be, or within it. -/
theorem within_of_not_apart {x y threshold : Exact} (hx : x ≠ undefined) (hy : y ≠ undefined) (nonneg : 0.0 ≤ threshold)
    (h : ¬ threshold < Scalar.abs (x - y)) : x = y ∨ Scalar.abs (x - y) ≤ threshold := by
  have hthreshold : threshold ≠ undefined := by
    rintro rfl
    cases nonneg
  by_cases hsame : x = y
  · exact .inl hsame
  · exact .inr (le_of_not_lt hthreshold (distance_defined hx hy hsame) h)

end Exact

/-! ## Pulling -/

namespace Clock

variable {c : Clock Exact} {speed : Rat}

/-- At the time at which a clock is set to a position it reads that position, unless its queue is in another generation
than the one it is set for. -/
theorem readAt_place (finite_speed : c.speed = finite speed) (position : Exact) (serial live : Option Serial)
    (time : Rat) : (c.place position serial (finite time)).readAt live (finite time)
      = if live = none ∨ live = serial then position else undefined := by
  have hone : (1.0 : Exact) = finite 1 := by norm_num
  have hstands : (c.place position serial (finite time)).readAt none (finite time) = position := by
    unfold readAt place
    dsimp only [Clock.isCurrent]
    rw [finite_speed]
    cases c.paused with
    | true => rfl
    | false =>
      cases position with
      | undefined | negInf | posInf => simp [hone] <;> rfl
      | finite p => simp [hone]
  have hcurrent : (c.place position serial (finite time)).isCurrent live = decide (live = none ∨ live = serial) := by
    unfold Clock.isCurrent place
    cases live with
    | none => rfl
    | some s => simp [beq_eq_decide, eq_comm]
  rw [readAt_eq, hstands, hcurrent]
  simp

/-- When a clock is pulled, and what it is then. -/
theorem syncTo_cases (c : Clock Exact) (live : Option Serial) (other : Clock Exact) (otherLive : Option Serial)
    (threshold time : Exact) :
    let own := c.readAt live time
    let target := other.readAt otherLive time
    (target ≠ undefined ∧ (own = undefined ∨ threshold < Scalar.abs (own - target)) ∧
      c.syncTo live other otherLive threshold time = (true, c.place target other.serial time)) ∨
    (¬ (target ≠ undefined ∧ (own = undefined ∨ threshold < Scalar.abs (own - target))) ∧
      c.syncTo live other otherLive threshold time = (false, c)) := by
  intro own target
  unfold syncTo
  dsimp only
  by_cases htarget : target = undefined
  · rw [if_pos (isNaN_iff.mpr htarget)]
    exact .inr ⟨fun h => h.1 htarget, rfl⟩
  · rw [if_neg (mt isNaN_iff.mp htarget)]
    by_cases hfar : own = undefined ∨ threshold < Scalar.abs (own - target)
    · rw [if_pos (hfar.imp_left isNaN_iff.mpr)]
      exact .inl ⟨htarget, hfar, rfl⟩
    · rw [if_neg fun h => hfar (h.imp_left isNaN_iff.mp)]
      exact .inr ⟨fun h => hfar h.2, rfl⟩

/-- What a second pull does hangs on what the clock reads after the first one. -/
theorem syncTo_again (finite_speed : c.speed = finite speed) (live : Option Serial) (other : Clock Exact)
    (otherLive : Option Serial) {threshold : Exact} (nonneg : 0.0 ≤ threshold) (time : Rat)
    (reads : other.readAt otherLive (finite time) ≠ undefined) :
    let c' := c.place (other.readAt otherLive (finite time)) other.serial (finite time)
    c'.syncTo live other otherLive threshold (finite time)
      = (!decide (live = none ∨ live = other.serial), c') := by
  intro c'
  have hread := readAt_place finite_speed (other.readAt otherLive (finite time)) other.serial live time
  by_cases hholds : live = none ∨ live = other.serial
  · rw [if_pos hholds] at hread
    rw [decide_eq_true hholds]
    rcases syncTo_cases c' live other otherLive threshold (finite time) with ⟨-, hfar, -⟩ | ⟨-, hpull⟩
    · rw [hread] at hfar
      exact absurd hfar (not_or.mpr ⟨reads, not_apart_self nonneg _⟩)
    · exact hpull
  · rw [if_neg hholds] at hread
    rw [decide_eq_false hholds]
    rcases syncTo_cases c' live other otherLive threshold (finite time) with ⟨-, -, hpull⟩ | ⟨hstays, -⟩
    · exact hpull
    · exact absurd ⟨reads, .inl hread⟩ hstays

/-- **A clock that is pulled reads what the other one reads, unless its queue is in another generation than that.** A
clock is pulled to another one exactly if that one has a reading and the clock itself has none or is further from it
than the threshold. If it is not pulled it is left as it was, and a second pull leaves it too. If it is pulled, it reads
what the other clock reads exactly if it has no queue or its queue is in the generation that the other clock was set in,
and exactly then a second pull at that time finds nothing to do. Otherwise it reads nothing, and the second pull is
made again with the same outcome. -/
theorem pulled_reads_iff (c other : Clock Exact) (live otherLive : Option Serial) (threshold : Exact) (time speed : Rat)
    (finite_speed : c.speed = finite speed) (nonneg : 0.0 ≤ threshold) :
    let own := c.readAt live (finite time)
    let target := other.readAt otherLive (finite time)
    let pull (c : Clock Exact) := c.syncTo live other otherLive threshold (finite time)
    let c' := (pull c).2
    ((pull c).1 = true ↔ target ≠ undefined ∧ (own = undefined ∨ threshold < Scalar.abs (own - target))) ∧
    ((pull c).1 = false → c' = c ∧ pull c' = (false, c) ∧
      (target = undefined ∨ own = target ∨ Scalar.abs (own - target) ≤ threshold)) ∧
    ((pull c).1 = true →
      (c'.readAt live (finite time) = target ↔ live = none ∨ live = other.serial) ∧
      (pull c' = (false, c') ↔ live = none ∨ live = other.serial) ∧
      (¬ (live = none ∨ live = other.serial) → c'.readAt live (finite time) = undefined ∧ pull c' = (true, c'))) := by
  intro own target pull c'
  rcases syncTo_cases c live other otherLive threshold (finite time) with
    ⟨htarget, hfar, hpull⟩ | ⟨hstays, hpull⟩
  · have hpulled : pull c = (true, c.place target other.serial (finite time)) := hpull
    have hc' : c' = c.place target other.serial (finite time) := congrArg Prod.snd hpulled
    have hread : c'.readAt live (finite time) = if live = none ∨ live = other.serial then target else undefined :=
      hc' ▸ readAt_place finite_speed target other.serial live time
    have hagain : pull c' = (!decide (live = none ∨ live = other.serial), c') :=
      hc' ▸ syncTo_again finite_speed live other otherLive nonneg time htarget
    rw [hpulled, hread, hagain]
    refine ⟨iff_of_true rfl ⟨htarget, hfar⟩, nofun, fun _ => ?_⟩
    by_cases hholds : live = none ∨ live = other.serial
    · rw [if_pos hholds, decide_eq_true hholds]
      exact ⟨iff_of_true rfl hholds, iff_of_true rfl hholds, fun hother => absurd hholds hother⟩
    · rw [if_neg hholds, decide_eq_false hholds]
      exact ⟨iff_of_false (Ne.symm htarget) hholds, iff_of_false nofun hholds, fun _ => ⟨rfl, rfl⟩⟩
  · have hkept : pull c = (false, c) := hpull
    have hc' : c' = c := congrArg Prod.snd hkept
    rw [hc', hkept]
    refine ⟨iff_of_false nofun hstays, fun _ => ⟨rfl, rfl, ?_⟩, nofun⟩
    by_cases htarget : target = undefined
    · exact .inl htarget
    · have hown : own ≠ undefined := fun h => hstays ⟨htarget, .inl h⟩
      have hnear : ¬ threshold < Scalar.abs (own - target) := fun h => hstays ⟨htarget, .inr h⟩
      exact .inr (within_of_not_apart hown htarget nonneg hnear)

/-- A clock of a queue in generation 1, set to position 25. -/
def farClock : Clock Exact := (Clock.new (finite 0)).setAt (finite 25) 1 (finite 0)

/-- A clock without a queue, set to position 3 for no generation in particular. -/
def freeClock : Clock Exact := (Clock.new (finite 0)).setAt (finite 3) 0 (finite 0)

/-- The clock without a queue follows the other one. The other way round the clock of the queue loses its reading, and
is pulled again and again. -/
theorem far_clock_lost :
    let pull (c : Clock Exact) := c.syncTo (some 1) freeClock none (finite 10) (finite 0)
    let c' := (pull farClock).2
    let followed := freeClock.syncTo none farClock (some 1) (finite 10) (finite 0)
    farClock.readAt (some 1) (finite 0) = finite 25 ∧
    (pull farClock).1 = true ∧ c'.readAt (some 1) (finite 0) = undefined ∧ pull c' = (true, c') ∧
    followed.1 = true ∧ followed.2.readAt none (finite 0) = finite 25 ∧
      followed.2.syncTo none farClock (some 1) (finite 10) (finite 0) = (false, followed.2) := by
  intro pull c' followed
  have hspeed : (1.0 : Exact) = finite 1 := by norm_num
  have hthreshold : 0.0 ≤ finite 10 := by rw [zero_eq, finite_le]; norm_num
  have hfar : farClock.readAt (some 1) (finite 0) = finite 25 := by decide +kernel
  have hpulled : (pull farClock).1 = true := by decide +kernel
  have hfollowed : followed.1 = true := by decide +kernel
  obtain ⟨-, -, hlost⟩ := pulled_reads_iff farClock freeClock (some 1) none (finite 10) 0 1 hspeed hthreshold
  obtain ⟨-, -, hfollows⟩ := pulled_reads_iff freeClock farClock none (some 1) (finite 10) 0 1 hspeed hthreshold
  obtain ⟨-, -, hvoid⟩ := hlost hpulled
  obtain ⟨hreads, hquiet, -⟩ := hfollows hfollowed
  obtain ⟨hundefined, hagain⟩ := hvoid (by decide)
  exact ⟨hfar, hpulled, hundefined, hagain, hfollowed, (hreads.mpr (.inl rfl)).trans hfar, hquiet.mpr (.inl rfl)⟩

end Clock
end Playback
