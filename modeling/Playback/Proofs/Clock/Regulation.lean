import Mathlib.Algebra.Order.Field.Basic
import Mathlib.Tactic.LinearCombination
import Playback.Clock.Media
import Playback.Proofs.Clock.Reading

/-!
# The regulated speed of the external clock

For a live source the speed of the external clock follows the levels of the packet queues. Without rounding it moves on
a grid of thousandths, a step at a check: down to nine tenths while a queue starves, up to a hundredth above normal
while all have plenty, and otherwise back toward normal (`Level.step`). So it never leaves these bounds, and from `k`
steps off it is back at normal after `k` checks in the middle (`external_regulated`).

A change of the speed takes the reading of the clock to go on from, and every speed on the grid is positive. The
reading therefore never jumps and never goes back, whatever is checked and however often playback is stopped.
`Regulated` carries both through a run: how many steps the speed is off, and where the clock is now.
-/

namespace Playback

open Exact

/-! ## Levels -/

/-- What a check finds in the queues. -/
inductive Level where
  /-- One of them is nearly empty. -/
  | starving
  /-- All have more than enough. -/
  | plenty
  | middling
deriving DecidableEq

namespace Level

/-- The level of the queues; a missing queue has plenty. -/
def of (videoPackets audioPackets : Option Nat) : Level :=
  if (∃ n ∈ videoPackets, n ≤ MediaClock.starvingBelow) ∨ ∃ n ∈ audioPackets, n ≤ MediaClock.starvingBelow then .starving
  else if (∀ n ∈ videoPackets, MediaClock.plentyAbove < n) ∧ ∀ n ∈ audioPackets, MediaClock.plentyAbove < n then .plenty
  else .middling

/-- How many steps the speed is off after a check, given how many it was off before. -/
def step (k : Int) : Level → Int
  | starving => max (-100) (k - 1)
  | plenty => min 10 (k + 1)
  | middling => k - k.sign

theorem step_bounds {k : Int} (low : -100 ≤ k) (high : k ≤ 10) (level : Level) :
    -100 ≤ level.step k ∧ level.step k ≤ 10 := by
  cases level with
  | starving | plenty =>
    dsimp only [step]
    omega
  | middling =>
    dsimp only [step]
    rcases Int.lt_trichotomy k 0 with h | rfl | h
    · rw [Int.sign_eq_neg_one_of_neg h]
      omega
    · decide
    · rw [Int.sign_eq_one_of_pos h]
      omega

end Level

/-- The speed so many steps above normal. -/
def steppedSpeed (k : Int) : Rat := 1 + k / 1000

theorem steppedSpeed_pos {k : Int} (low : -100 ≤ k) : 0 < steppedSpeed k := by
  have hlow : (-100 : Rat) ≤ k := by exact_mod_cast low
  unfold steppedSpeed
  linarith

theorem steppedSpeed_eq_one {k : Int} : steppedSpeed k = 1 ↔ k = 0 := by
  simp [steppedSpeed]

theorem steppedSpeed_mono {k k' : Int} (h : k ≤ k') : steppedSpeed k ≤ steppedSpeed k' := by
  have hcast : (k : Rat) ≤ k' := by exact_mod_cast h
  unfold steppedSpeed
  linarith

namespace MediaClock

/-- A step back toward normal. -/
theorem step_back {k : Int} (h : k ≠ 0) :
    finite (steppedSpeed k) + 0.001 * (1.0 - finite (steppedSpeed k)) / Scalar.abs (1.0 - finite (steppedSpeed k))
      = finite (steppedSpeed (k - k.sign)) := by
  have hstep : (0.001 : Exact) = finite (1 / 1000) := by norm_num
  have hone : (1.0 : Exact) = finite 1 := by norm_num
  have hgap : 1 - steppedSpeed k = -(k / 1000) := by
    unfold steppedSpeed
    ring
  have habs : |(k : Rat)| / 1000 ≠ 0 := div_ne_zero (abs_ne_zero.mpr (by exact_mod_cast h)) (by norm_num)
  -- what is left over after the division is the sign
  have hsign : 1 / 1000 * -((k : Rat) / 1000) / (|(k : Rat)| / 1000) = -(k.sign / 1000) := by
    have hk : (k : Rat) = k.sign * |(k : Rat)| := by exact_mod_cast (Int.sign_mul_abs k).symm
    rw [div_eq_iff habs]
    linear_combination -(1 / 1000000) * hk
  rw [hstep, hone, finite_sub, hgap, abs_finite, abs_neg, abs_div, abs_of_pos (by norm_num : (0 : Rat) < 1000), finite_mul,
    finite_div _ habs, hsign, finite_add]
  congr 1
  unfold steppedSpeed
  push_cast
  ring

/-- A check moves the speed by one step of its level. -/
theorem adjustedSpeed_eq (k : Int) (videoPackets audioPackets : Option Nat) :
    adjustedSpeed (finite (steppedSpeed k)) videoPackets audioPackets
      = if Level.of videoPackets audioPackets = .middling ∧ k = 0 then none
        else some (finite (steppedSpeed ((Level.of videoPackets audioPackets).step k))) := by
  have hstep : (0.001 : Exact) = finite (1 / 1000) := by norm_num
  have hmono : Monotone steppedSpeed := fun _ _ => steppedSpeed_mono
  have hdown : Scalar.max 0.9 (finite (steppedSpeed k) - 0.001) = finite (steppedSpeed (max (-100) (k - 1))) := by
    have hleast : (0.9 : Exact) = finite (steppedSpeed (-100)) := by
      rw [steppedSpeed]
      norm_num
    have hnext : steppedSpeed k - 1 / 1000 = steppedSpeed (k - 1) := by
      unfold steppedSpeed
      push_cast
      ring
    rw [hstep, finite_sub, hnext, hleast, max_finite, hmono.map_max]
  have hup : Scalar.min 1.01 (finite (steppedSpeed k) + 0.001) = finite (steppedSpeed (min 10 (k + 1))) := by
    have hmost : (1.01 : Exact) = finite (steppedSpeed 10) := by
      rw [steppedSpeed]
      norm_num
    have hnext : steppedSpeed k + 1 / 1000 = steppedSpeed (k + 1) := by
      unfold steppedSpeed
      push_cast
      ring
    rw [hstep, finite_add, hnext, hmost, min_finite, hmono.map_min]
  have hnormal : (finite (steppedSpeed k) == (1.0 : Exact)) = decide (k = 0) := by
    have hone : (1.0 : Exact) = finite 1 := by norm_num
    rw [hone, beq_finite, decide_eq_decide]
    exact steppedSpeed_eq_one
  unfold adjustedSpeed Level.of
  dsimp only
  simp only [Bool.or_eq_true, Bool.and_eq_true, Option.any_eq_true, Option.all_eq_true, decide_eq_true_eq,
    Option.mem_def]
  split
  next => rw [hdown]; rfl
  next =>
    split
    next => rw [hup]; rfl
    next =>
      rw [hnormal]
      by_cases hk : k = 0
      · simp [hk]
      · rw [step_back hk]
        simp [hk, Level.step]

end MediaClock

namespace Clock

variable {c : Clock Exact} {g : Pace} {serial : Serial} {position now : Rat}

/-- A change leaves a clock without a queue where it is. -/
theorem Goes.changed (h : c.Goes (some position) now g serial) (change : ClockChange) :
    (c.apply ⟨change, now, none⟩).Goes (some position) now (g.change change) serial := by
  have happly := h.apply ⟨change, now, none⟩
  have hkept : g.losesAt serial ⟨change, now, none⟩ = false := by simp [Pace.losesAt]
  simpa [hkept] using happly

/-- A check changes nothing but the speed of the external clock. -/
theorem Goes.checked {m : MediaClock Exact} {k : Int} {paused : Bool}
    (h : m.external.Goes (some position) now ⟨steppedSpeed k, paused⟩ serial) (videoPackets audioPackets : Option Nat)
    (live : LiveSerials) : (m.checkExternalSpeed live videoPackets audioPackets (finite now)).external.Goes
      (some position) now ⟨steppedSpeed ((Level.of videoPackets audioPackets).step k), paused⟩ serial := by
  have hspeed := MediaClock.adjustedSpeed_eq k videoPackets audioPackets
  unfold MediaClock.checkExternalSpeed
  rw [h.speed, hspeed]
  by_cases hnormal : Level.of videoPackets audioPackets = .middling ∧ k = 0
  · obtain ⟨hlevel, rfl⟩ := hnormal
    rw [if_pos ⟨hlevel, rfl⟩, hlevel]
    exact h
  · rw [if_neg hnormal]
    exact h.changed (.speed (steppedSpeed ((Level.of videoPackets audioPackets).step k)))

end Clock

/-! ## Runs -/

/-- The clocks of a player at a time. -/
structure ClockWatch where
  clock : MediaClock Exact
  /-- The present time, in seconds. -/
  now : Rat

/-- What happens to the clocks of a live source. -/
inductive ClockAct where
  | wait (seconds : Rat) (forward : 0 ≤ seconds)
  /-- Playback is stopped or goes on. -/
  | setPaused (paused : Bool) (live : LiveSerials)
  /-- The speed of the external clock is adjusted. -/
  | check (videoPackets audioPackets : Option Nat) (live : LiveSerials)

namespace ClockAct

/-- Whether a check, if it is one, finds the queues at a middle level. -/
def isMiddling : ClockAct → Bool
  | .check videoPackets audioPackets _ => Level.of videoPackets audioPackets = .middling
  | _ => true

def isCheck : ClockAct → Bool
  | .check .. => true
  | _ => false

/-- Whether no time goes by. -/
def isInstant : ClockAct → Bool
  | .wait .. => false
  | _ => true

/-- How many steps the speed is off after an act. -/
def step (k : Int) : ClockAct → Int
  | .check videoPackets audioPackets _ => (Level.of videoPackets audioPackets).step k
  | _ => k

end ClockAct

namespace ClockWatch

/-- New clocks, of which the external one was set to a position. -/
def start (wanted : SyncType) (confirm : SyncType → SyncType) (made position : Rat) (serial : Serial) (now : Rat) :
    ClockWatch :=
  ⟨(MediaClock.new wanted confirm (finite made)).setAt .external (finite position) serial (finite now), now⟩

def act (w : ClockWatch) : ClockAct → ClockWatch
  | .wait seconds _ => { w with now := w.now + seconds }
  | .setPaused paused live => { w with clock := w.clock.setPaused live paused (finite w.now) }
  | .check videoPackets audioPackets live =>
    { w with clock := w.clock.checkExternalSpeed live videoPackets audioPackets (finite w.now) }

def acts (w : ClockWatch) (as : List ClockAct) : ClockWatch :=
  as.foldl act w

/-- The reading of the external clock, which has no queue. -/
def reading (w : ClockWatch) : Exact :=
  w.clock.external.readAt none (finite w.now)

/-- The external clock is at a position now, and its speed is so many steps off. -/
structure Regulated (w : ClockWatch) (k : Int) (position : Rat) : Prop where
  low : -100 ≤ k
  high : k ≤ 10
  goes : ∃ serial, w.clock.external.Goes (some position) w.now ⟨steppedSpeed k, w.clock.external.paused⟩ serial

variable {w : ClockWatch} {k : Int} {position : Rat}

theorem start_regulated (wanted : SyncType) (confirm : SyncType → SyncType) (made position : Rat) (serial : Serial)
    (now : Rat) : (start wanted confirm made position serial now).Regulated 0 position where
  low := by decide
  high := by decide
  goes := by
    have hspeed : (1.0 : Exact) = finite (steppedSpeed 0) := by
      rw [steppedSpeed_eq_one.mpr rfl]
      norm_num
    exact ⟨serial, Clock.place_goes (c := .new (finite made)) (g := ⟨steppedSpeed 0, false⟩) hspeed rfl (some position) now⟩

theorem Regulated.speed (h : w.Regulated k position) : w.clock.external.speed = finite (steppedSpeed k) :=
  h.goes.elim fun _ hgoes => hgoes.speed

theorem Regulated.reading (h : w.Regulated k position) : w.reading = finite position := by
  obtain ⟨serial, hgoes⟩ := h.goes
  have hread := hgoes.reads w.now
  rw [Clock.goingOn, sub_self, mul_zero, add_zero] at hread
  exact hread

/-- An act moves the speed by a step of its level and the clock forward; if no time goes by the clock stays where it
is. -/
theorem Regulated.act (h : w.Regulated k position) (a : ClockAct) :
    ∃ position', position ≤ position' ∧ (a.isInstant = true → position' = position) ∧
      (w.act a).Regulated (a.step k) position' := by
  obtain ⟨serial, hgoes⟩ := h.goes
  cases a with
  | wait seconds forward =>
    have hrate : 0 ≤ (Pace.mk (steppedSpeed k) w.clock.external.paused).rate := by
      unfold Pace.rate
      split
      · exact le_refl _
      · exact (steppedSpeed_pos h.low).le
    have hway : w.now + seconds - w.now = seconds := by ring
    refine ⟨_, le_add_of_nonneg_right (mul_nonneg hrate forward), nofun, h.low, h.high, serial, ?_⟩
    have hlater := hgoes.later (w.now + seconds)
    rw [hway] at hlater
    exact hlater
  | setPaused paused live =>
    have hchanged := hgoes.changed (.paused paused)
    have hpaused : (w.act (.setPaused paused live)).clock.external.paused = paused := hchanged.paused
    refine ⟨position, le_refl _, fun _ => rfl, h.low, h.high, serial, ?_⟩
    rw [hpaused]
    exact hchanged
  | check videoPackets audioPackets live =>
    obtain ⟨hlow, hhigh⟩ := Level.step_bounds h.low h.high (Level.of videoPackets audioPackets)
    refine ⟨position, le_refl _, fun _ => rfl, hlow, hhigh, serial, ?_⟩
    have hchecked := hgoes.checked videoPackets audioPackets live
    have hpaused : (w.act (.check videoPackets audioPackets live)).clock.external.paused
        = w.clock.external.paused := hchecked.paused
    rw [hpaused]
    exact hchecked

theorem Regulated.acts (h : w.Regulated k position) (as : List ClockAct) :
    ∃ position', position ≤ position' ∧ (w.acts as).Regulated (as.foldl ClockAct.step k) position' := by
  induction as generalizing w k position with
  | nil => exact ⟨position, le_refl _, h⟩
  | cons a as ih =>
    obtain ⟨next, hle, -, hnext⟩ := h.act a
    obtain ⟨position', hle', hacts⟩ := ih hnext
    exact ⟨position', hle.trans hle', hacts⟩

end ClockWatch

/-- One step back toward zero, and then so many more. -/
theorem step_back_more (k : Int) (n : Nat) :
    (k - k.sign).sign * ((k - k.sign).natAbs - n : Nat) = k.sign * (k.natAbs - (n + 1) : Nat) := by
  rcases Int.lt_trichotomy k 0 with h | rfl | h
  · rw [Int.sign_eq_neg_one_of_neg h]
    rcases Int.lt_or_eq_of_le (Int.add_one_le_of_lt h) with hmore | hlast
    · rw [Int.sign_eq_neg_one_of_neg (by omega)]
      omega
    · rw [(by omega : k = -1)]
      simp
  · simp
  · rw [Int.sign_eq_one_of_pos h]
    rcases Int.lt_or_eq_of_le (Int.add_one_le_of_lt h) with hmore | hlast
    · rw [Int.sign_eq_one_of_pos (by omega)]
      omega
    · rw [(by omega : k = 1)]
      simp

/-- Checks at a middle level bring the speed back to normal, a step each, and leave it there. -/
theorem steps_back {as : List ClockAct} (middling : ∀ a ∈ as, a.isMiddling = true) (k : Int) :
    as.foldl ClockAct.step k = k.sign * (k.natAbs - as.countP (·.isCheck) : Nat) := by
  induction as generalizing k with
  | nil => exact (Int.sign_mul_natAbs k).symm
  | cons a as ih =>
    rw [List.foldl_cons, ih fun b hb => middling b (List.mem_cons_of_mem _ hb)]
    have ha := middling a (List.mem_cons_self ..)
    cases a with
    | wait | setPaused => rfl
    | check videoPackets audioPackets live =>
      have hstep : ClockAct.step k (.check videoPackets audioPackets live) = k - k.sign :=
        congrArg (Level.step k) (of_decide_eq_true ha)
      rw [hstep, List.countP_cons_of_pos rfl, step_back_more]

/-- **The speed of the external clock is bounded, finds back to normal, and never turns time back.** Let the external
clock of new clocks be set to a position, and then let time go by, playback be stopped and go on, and the speed be
checked at any levels of the queues, in any order. Without rounding, the speed is then a whole number of thousandths
between -100 and 10 above normal. While all further checks find the queues at a middle level, each takes it one step
back, so that after as many checks as there were steps it is normal and stays so. The clock has a reading all the time;
nothing makes it jump, and it never goes back. -/
theorem external_regulated (wanted : SyncType) (confirm : SyncType → SyncType) (made position : Rat) (serial : Serial)
    (since : Rat) (as : List ClockAct) :
    let w := (ClockWatch.start wanted confirm made position serial since).acts as
    ∃ (k : Int) (reading : Rat), -100 ≤ k ∧ k ≤ 10 ∧ w.clock.external.speed = finite (1 + k / 1000) ∧
      w.reading = finite reading ∧
      (∀ bs, (∀ b ∈ bs, b.isMiddling = true) →
        (w.acts bs).clock.external.speed
            = finite (1 + ((k.sign * (k.natAbs - bs.countP (·.isCheck) : Nat) : Int) : Rat) / 1000) ∧
          (k.natAbs ≤ bs.countP (·.isCheck) → (w.acts bs).clock.external.speed = finite 1)) ∧
      (∀ b, b.isInstant = true → (w.act b).reading = w.reading) ∧
      ∀ bs, ∃ later, reading ≤ later ∧ (w.acts bs).reading = finite later := by
  intro w
  obtain ⟨reading, -, hw⟩ := (ClockWatch.start_regulated wanted confirm made position serial since).acts as
  refine ⟨_, reading, hw.low, hw.high, hw.speed, hw.reading, fun bs hmiddling => ?_, fun b hinstant => ?_,
    fun bs => ?_⟩
  · obtain ⟨_, -, hbs⟩ := hw.acts bs
    have hspeed := hbs.speed
    rw [steps_back hmiddling] at hspeed
    refine ⟨hspeed, fun henough => ?_⟩
    rw [hspeed, Nat.sub_eq_zero_of_le henough]
    simp [steppedSpeed]
  · obtain ⟨reading', -, hsame, hb⟩ := hw.act b
    rw [hb.reading, hw.reading, hsame hinstant]
  · obtain ⟨later, hle, hbs⟩ := hw.acts bs
    exact ⟨later, hle, hbs.reading⟩

/-- The queues of a live source run low twice, with a pause in between. -/
def lowTwice : List ClockAct :=
  [.check (some 1) (some 20) ⟨1, 1⟩, .wait 10 (by norm_num), .setPaused true ⟨1, 1⟩, .wait 5 (by norm_num),
    .check none (some 2) ⟨1, 1⟩, .setPaused false ⟨1, 1⟩, .wait 10 (by norm_num)]

/-- Two checks that find the queues at a middle level. -/
def middlingTwice : List ClockAct :=
  [.check (some 5) (some 5) ⟨1, 1⟩, .wait 1 (by norm_num), .check none (some 10) ⟨1, 1⟩]

/-- Ten seconds at 0.999 and ten at 0.998, and two checks until the speed is normal again. -/
theorem low_twice_and_back :
    let w := (ClockWatch.start .externalClock id 0 0 0 0).acts lowTwice
    w.clock.external.speed = finite (998 / 1000) ∧ w.reading = finite (1997 / 100) ∧
      (w.acts middlingTwice).clock.external.speed = finite 1 := by
  intro w
  have hspeed : w.clock.external.speed = finite (998 / 1000) := by decide +kernel
  have hreading : w.reading = finite (1997 / 100) := by decide +kernel
  obtain ⟨k, -, -, -, hk, -, hback, -⟩ := external_regulated .externalClock id 0 0 0 0 lowTwice
  have hsteps : k = -2 := by
    have hvalue : (1 + k / 1000 : Rat) = 998 / 1000 := Exact.finite.inj (hk.symm.trans hspeed)
    have hcast : (k : Rat) = (-2 : Int) := by
      push_cast
      linarith
    exact_mod_cast hcast
  exact ⟨hspeed, hreading, (hback middlingTwice (by decide)).2 (by rw [hsteps]; decide)⟩

end Playback
