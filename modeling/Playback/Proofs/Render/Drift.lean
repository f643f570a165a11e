import Playback.Proofs.Exact
import Playback.Proofs.Render.EndOfStream

/-!
# The drift of audio against the master

Where audio is not the master its blocks are stretched or shortened a little while it drifts. Each block that is begun
looks how far audio is from the master. A difference that is undefined or too large starts the account anew, and so does
the flush of a seek; others are added to a sum in which older ones fade.

`DriftWatch` has the account beside the renderer: the differences since it was started anew (`heard`). The renderer
keeps a sum and a count for them (`Accounted`), and what becomes of a block hangs on these alone: `drift_corrected` says
when a block is left as it is, which average decides otherwise, and within which bounds it stays. It needs nothing of
the numbers, so that it holds on doubles as well.
-/

namespace Playback

variable {R : Type} [Scalar R]

/-! ## One block -/

/-- How far audio is ahead of the master. -/
def MediaClock.drift (m : MediaClock R) (live : LiveSerials) (now : R) : R :=
  m.readAt .audio live now - m.readMaster live now

/-- Whether a difference is too large to be corrected, or undefined. -/
def SyncConfig.Incredible (c : SyncConfig R) (diff : R) : Prop :=
  Scalar.isNaN diff = true ∨ c.nosyncThreshold ≤ Scalar.abs diff

instance (c : SyncConfig R) (diff : R) : Decidable (c.Incredible diff) :=
  inferInstanceAs (Decidable (_ ∨ _))

/-- How many differences are averaged. -/
def AudioConfig.averaged (c : AudioConfig R) : Nat :=
  max c.diffAverageCount 1

/-- The sum of differences, newest first, in which each fades by a factor for every newer one. -/
def faded (factor : R) : List R → R
  | [] => 0.0
  | diff :: diffs => diff + factor * faded factor diffs

namespace AudioRenderer

/-- Below which average nothing is corrected: the time of what the device asks for at once. -/
def tolerance (a : AudioRenderer R) (params : AudioParams) : R :=
  Scalar.ofInt a.requestSize / Scalar.ofInt (max params.bytesPerSecond 1)

/-- The sum of the differences with one more. -/
def addedDrift (a : AudioRenderer R) (diff : R) : R :=
  diff + Scalar.fade a.config.averaged * a.diffSum

/-- Whether the average with one more difference is below what is corrected. -/
def Tolerates (a : AudioRenderer R) (diff : R) (params : AudioParams) : Prop :=
  Scalar.abs (a.addedDrift diff * (1.0 - Scalar.fade a.config.averaged)) < a.tolerance params

/-- What becomes of a block of so many samples, and of the account. -/
inductive Synchronizes (a : AudioRenderer R) (m : MediaClock R) (live : LiveSerials) (now : R) (count : Nat)
    (params : AudioParams) : Nat × AudioRenderer R → Prop where
  | master (master : m.masterType = .audioMaster) : Synchronizes a m live now count params (count, a)
  | anew (follows : m.masterType ≠ .audioMaster) (incredible : a.syncConfig.Incredible (m.drift live now)) :
      Synchronizes a m live now count params (count, { a with diffCount := 0, diffSum := 0.0 })
  | early (follows : m.masterType ≠ .audioMaster) (credible : ¬ a.syncConfig.Incredible (m.drift live now))
      (few : a.diffCount < a.config.averaged) :
      Synchronizes a m live now count params
        (count, { a with diffSum := a.addedDrift (m.drift live now), diffCount := a.diffCount + 1 })
  | near (follows : m.masterType ≠ .audioMaster) (credible : ¬ a.syncConfig.Incredible (m.drift live now))
      (enough : ¬ a.diffCount < a.config.averaged) (tolerates : a.Tolerates (m.drift live now) params) :
      Synchronizes a m live now count params (count, { a with diffSum := a.addedDrift (m.drift live now) })
  | far (follows : m.masterType ≠ .audioMaster) (credible : ¬ a.syncConfig.Incredible (m.drift live now))
      (enough : ¬ a.diffCount < a.config.averaged) (exceeds : ¬ a.Tolerates (m.drift live now) params) :
      Synchronizes a m live now count params (a.correctedCount count params.sampleRate (m.drift live now),
        { a with diffSum := a.addedDrift (m.drift live now) })

variable (a : AudioRenderer R) (m : MediaClock R) (live : LiveSerials) (now : R) (count : Nat) (params : AudioParams)

theorem synchronize_synchronizes :
    a.Synchronizes m live now count params (a.synchronize m live now count params) := by
  unfold synchronize
  split
  next hmaster => exact .master hmaster
  next hfollows =>
    dsimp only
    split
    next hincredible => exact .anew hfollows hincredible
    next hcredible =>
      split
      next hfew => exact .early hfollows hcredible hfew
      next henough =>
        split
        next htolerates => exact .near hfollows hcredible henough htolerates
        next hexceeds => exact .far hfollows hcredible henough hexceeds

/-- The corrected number of samples is the wanted one kept between the limits. -/
theorem correctedCount_eq (sampleRate : Nat) (diff : R) :
    (a.correctedCount count sampleRate diff : Int) =
      max ((count * (100 - min a.config.correctionPercentMax 100) / 100 : Nat) : Int)
        (min (count * (100 + a.config.correctionPercentMax) / 100 : Nat)
          (wrap64 (count + Scalar.toInt64 (diff * Scalar.ofInt sampleRate)))) := by
  have hpercent : 100 - min a.config.correctionPercentMax 100 = 100 - a.config.correctionPercentMax := by omega
  rw [hpercent, correctedCount]
  exact Int.toNat_of_nonneg (Int.le_trans (Int.natCast_nonneg _) (Int.le_max_left ..))

/-- A block that is left as it is lies within the limits of correction, too. -/
theorem count_bounds (percent : Nat) :
    count * (100 - min percent 100) / 100 ≤ count ∧ count ≤ count * (100 + percent) / 100 := by
  have hless : count * (100 - min percent 100) ≤ count * 100 := Nat.mul_le_mul_left _ (by omega)
  have hmore : count * 100 ≤ count * (100 + percent) := Nat.mul_le_mul_left _ (by omega)
  omega

section

variable {a m live now count params} {result : Nat × AudioRenderer R}

/-- Every block stays within the limits of correction. -/
theorem Synchronizes.bounds (h : a.Synchronizes m live now count params result) :
    count * (100 - min a.config.correctionPercentMax 100) / 100 ≤ result.1 ∧
      result.1 ≤ count * (100 + a.config.correctionPercentMax) / 100 := by
  have hkept := count_bounds count a.config.correctionPercentMax
  cases h with
  | master | anew | early | near => exact hkept
  | far =>
    have hcorrected := a.correctedCount_eq count params.sampleRate (m.drift live now)
    generalize count * (100 - min a.config.correctionPercentMax 100) / 100 = low at hkept hcorrected ⊢
    generalize count * (100 + a.config.correctionPercentMax) / 100 = high at hkept hcorrected ⊢
    dsimp only
    omega

/-- Which blocks are left as they are without a look at the average. -/
theorem Synchronizes.left (h : a.Synchronizes m live now count params result)
    (left : m.masterType = .audioMaster ∨ a.syncConfig.Incredible (m.drift live now) ∨
      a.diffCount < a.config.averaged) : result.1 = count := by
  cases h with
  | master | anew | early | near => rfl
  | far hfollows hcredible henough =>
    obtain hmaster | hincredible | hfew := left
    · exact absurd hmaster hfollows
    · exact absurd hincredible hcredible
    · exact absurd hfew henough

/-- Otherwise the average decides. -/
theorem Synchronizes.decided (h : a.Synchronizes m live now count params result) (follows : m.masterType ≠ .audioMaster)
    (credible : ¬ a.syncConfig.Incredible (m.drift live now)) (enough : ¬ a.diffCount < a.config.averaged) :
    (a.Tolerates (m.drift live now) params → result.1 = count) ∧
      (¬ a.Tolerates (m.drift live now) params →
        result.1 = a.correctedCount count params.sampleRate (m.drift live now)) := by
  cases h with
  | master hmaster => exact absurd hmaster follows
  | anew _ hincredible => exact absurd hincredible credible
  | early _ _ hfew => exact absurd hfew enough
  | near _ _ _ htolerates => exact ⟨fun _ => rfl, fun hexceeds => absurd htolerates hexceeds⟩
  | far _ _ _ hexceeds => exact ⟨fun htolerates => absurd htolerates hexceeds, fun _ => rfl⟩

end

/-- A flush starts the account anew unless the generation was begun already. -/
theorem flush_account (serial : Serial) :
    (a.flush serial).config = a.config ∧ (a.flush serial).syncConfig = a.syncConfig ∧
      (a.flush serial).diffCount = (if a.clockSerial = some serial then a.diffCount else 0) ∧
      (a.flush serial).diffSum = (if a.clockSerial = some serial then a.diffSum else 0.0) := by
  unfold flush
  dsimp only
  by_cases hended : a.endSerial = some serial
  · rw [if_pos hended]
    split <;> exact ⟨rfl, rfl, rfl, rfl⟩
  · rw [if_neg hended]
    split <;> exact ⟨rfl, rfl, rfl, rfl⟩

end AudioRenderer

/-! ## Runs -/

/-- What happens to the correction of the speed. -/
inductive DriftAct (R : Type) where
  /-- A block of so many samples is begun. -/
  | block (clock : MediaClock R) (live : LiveSerials) (now : R) (count : Nat) (params : AudioParams)
  | flush (serial : Serial)
  /-- Anything else, which leaves the configuration and the account alone. -/
  | aside (after : AudioRenderer R)

/-- An audio renderer with the credible differences since the account was started anew, newest first. -/
structure DriftWatch (R : Type) where
  renderer : AudioRenderer R
  heard : List R

namespace DriftWatch

/-- A new renderer. -/
def new (config : AudioConfig R) (syncConfig : SyncConfig R) (capacity : Nat) (device : AudioDevice)
    (filter : RateFilter R) : DriftWatch R :=
  ⟨.new config syncConfig capacity device filter, []⟩

/-- The credible differences after a block was begun. -/
def hears (w : DriftWatch R) (clock : MediaClock R) (live : LiveSerials) (now : R) : List R :=
  if clock.masterType = .audioMaster then w.heard
  else if w.renderer.syncConfig.Incredible (clock.drift live now) then []
  else clock.drift live now :: w.heard

/-- The flush of a seek, after which nothing of the generation was begun yet, starts the account anew. -/
def act (w : DriftWatch R) : DriftAct R → DriftWatch R
  | .block clock live now count params =>
    ⟨(w.renderer.synchronize clock live now count params).2, w.hears clock live now⟩
  | .flush serial => ⟨w.renderer.flush serial, if w.renderer.clockSerial = some serial then w.heard else []⟩
  | .aside after =>
    { w with renderer := { after with
        config := w.renderer.config
        syncConfig := w.renderer.syncConfig
        diffSum := w.renderer.diffSum
        diffCount := w.renderer.diffCount } }

def acts (w : DriftWatch R) (as : List (DriftAct R)) : DriftWatch R :=
  as.foldl act w

/-- The renderer's account of the differences. -/
structure Accounted (config : AudioConfig R) (syncConfig : SyncConfig R) (w : DriftWatch R) : Prop where
  configured : w.renderer.config = config
  limited : w.renderer.syncConfig = syncConfig
  count : w.renderer.diffCount = min w.heard.length config.averaged
  sum : w.renderer.diffSum = faded (Scalar.fade config.averaged) w.heard

variable {config : AudioConfig R} {syncConfig : SyncConfig R} {w : DriftWatch R}

theorem new_accounted (config : AudioConfig R) (syncConfig : SyncConfig R) (capacity : Nat) (device : AudioDevice)
    (filter : RateFilter R) :
    (new config syncConfig capacity device filter).Accounted config syncConfig :=
  ⟨rfl, rfl, (Nat.zero_min _).symm, rfl⟩

/-- Fewer differences are counted than are averaged exactly if fewer were heard. -/
theorem Accounted.few_iff (h : w.Accounted config syncConfig) :
    w.renderer.diffCount < w.renderer.config.averaged ↔ w.heard.length < config.averaged := by
  rw [h.configured, h.count]
  omega

theorem Accounted.addedDrift (h : w.Accounted config syncConfig) (diff : R) :
    w.renderer.addedDrift diff = faded (Scalar.fade config.averaged) (diff :: w.heard) := by
  rw [AudioRenderer.addedDrift, h.configured, h.sum]
  rfl

theorem Accounted.tolerates_iff (h : w.Accounted config syncConfig) (diff : R) (params : AudioParams) :
    w.renderer.Tolerates diff params ↔
      Scalar.abs (faded (Scalar.fade config.averaged) (diff :: w.heard) * (1.0 - Scalar.fade config.averaged))
        < w.renderer.tolerance params := by
  rw [AudioRenderer.Tolerates, h.addedDrift, h.configured]

theorem Accounted.block (h : w.Accounted config syncConfig) (clock : MediaClock R) (live : LiveSerials) (now : R)
    (count : Nat) (params : AudioParams) :
    (w.act (.block clock live now count params)).Accounted config syncConfig := by
  have hsync := w.renderer.synchronize_synchronizes clock live now count params
  have hcount := h.count
  unfold act hears
  dsimp only
  generalize w.renderer.synchronize clock live now count params = result at hsync
  cases hsync with
  | master hmaster =>
    rw [if_pos hmaster]
    exact h
  | anew hfollows hincredible =>
    rw [if_neg hfollows, if_pos hincredible]
    exact ⟨h.configured, h.limited, (Nat.zero_min _).symm, rfl⟩
  | early hfollows hcredible hfew =>
    rw [if_neg hfollows, if_neg hcredible]
    have hheard := h.few_iff.mp hfew
    refine ⟨h.configured, h.limited, ?_, h.addedDrift _⟩
    show w.renderer.diffCount + 1 = min (w.heard.length + 1) config.averaged
    omega
  | near hfollows hcredible henough | far hfollows hcredible henough =>
    rw [if_neg hfollows, if_neg hcredible]
    have hheard := mt h.few_iff.mpr henough
    refine ⟨h.configured, h.limited, ?_, h.addedDrift _⟩
    show w.renderer.diffCount = min (w.heard.length + 1) config.averaged
    omega

theorem Accounted.flush (h : w.Accounted config syncConfig) (serial : Serial) :
    (w.act (.flush serial)).Accounted config syncConfig := by
  have hact : w.act (.flush serial)
      = ⟨w.renderer.flush serial, if w.renderer.clockSerial = some serial then w.heard else []⟩ := rfl
  obtain ⟨hconfig, hsyncConfig, hcount, hsum⟩ := w.renderer.flush_account serial
  rw [hact]
  by_cases hbegun : w.renderer.clockSerial = some serial
  · rw [if_pos hbegun] at hcount hsum ⊢
    exact ⟨hconfig.trans h.configured, hsyncConfig.trans h.limited, hcount.trans h.count, hsum.trans h.sum⟩
  · rw [if_neg hbegun] at hcount hsum ⊢
    exact ⟨hconfig.trans h.configured, hsyncConfig.trans h.limited, hcount.trans (Nat.zero_min _).symm, hsum⟩

theorem Accounted.act (h : w.Accounted config syncConfig) (a : DriftAct R) :
    (w.act a).Accounted config syncConfig := by
  cases a with
  | block clock live now count params => exact h.block clock live now count params
  | flush serial => exact h.flush serial
  | aside after => exact ⟨h.configured, h.limited, h.count, h.sum⟩

theorem acts_accounted (h : w.Accounted config syncConfig) (as : List (DriftAct R)) :
    (w.acts as).Accounted config syncConfig :=
  List.foldlRecOn as DriftWatch.act h fun _ hw a _ => hw.act a

/-! ## Renderers -/

/-- A run leads from one renderer to another one, whatever was heard before. -/
def Drifts (a a' : AudioRenderer R) : Prop :=
  ∃ as, ∀ w : DriftWatch R, w.renderer = a → (w.acts as).renderer = a'

variable {a a' a'' : AudioRenderer R}

theorem Drifts.trans (h : Drifts a a') (h' : Drifts a' a'') : Drifts a a'' := by
  obtain ⟨as, has⟩ := h
  obtain ⟨as', has'⟩ := h'
  refine ⟨as ++ as', fun w hw => ?_⟩
  have happend : w.acts (as ++ as') = (w.acts as).acts as' := List.foldl_append ..
  rw [happend]
  exact has' _ (has w hw)

/-- Whatever leaves the configuration and the account alone. -/
theorem Drifts.aside (config : a'.config = a.config) (syncConfig : a'.syncConfig = a.syncConfig)
    (sum : a'.diffSum = a.diffSum) (count : a'.diffCount = a.diffCount) : Drifts a a' := by
  refine ⟨[.aside a'], fun w hw => ?_⟩
  show { a' with
    config := w.renderer.config
    syncConfig := w.renderer.syncConfig
    diffSum := w.renderer.diffSum
    diffCount := w.renderer.diffCount } = a'
  rw [hw, ← config, ← syncConfig, ← sum, ← count]

theorem synchronize_drifts (a : AudioRenderer R) (m : MediaClock R) (live : LiveSerials) (now : R) (count : Nat)
    (params : AudioParams) : Drifts a (a.synchronize m live now count params).2 :=
  ⟨[.block m live now count params], fun _ hw => hw ▸ rfl⟩

theorem flush_drifts (a : AudioRenderer R) (serial : Serial) : Drifts a (a.flush serial) :=
  ⟨[.flush serial], fun _ hw => hw ▸ rfl⟩

theorem nextBlock_drifts (a : AudioRenderer R) (m : MediaClock R) (live : LiveSerials) (now : R) :
    Drifts a (a.nextBlock m live now).2 := by
  unfold AudioRenderer.nextBlock
  split
  next => exact .aside rfl rfl rfl rfl
  next block ring _ =>
    dsimp only
    split
    next => exact .aside rfl rfl rfl rfl
    next =>
      have hring : Drifts a { a with ring } := .aside rfl rfl rfl rfl
      exact (hring.trans (synchronize_drifts _ m live now block.sampleCount block.params)).trans
        (.aside rfl rfl rfl rfl)

theorem fill_drifts (a : AudioRenderer R) (m : MediaClock R) (live : LiveSerials) (now : R) (out : Bytes)
    (fuel : Nat) : Drifts a (a.fill m live now out fuel).2.2 := by
  induction fuel generalizing a out with
  | zero => exact .aside rfl rfl rfl rfl
  | succ fuel ih =>
    unfold AudioRenderer.fill
    dsimp only
    generalize hplayed : ({ a with
      playing := a.playing.map fun p =>
        { p with rest := p.rest.drop (min a.unplayed.length out.length) } } : AudioRenderer R) = played
    have hsame : Drifts a played := by
      rw [← hplayed]
      exact .aside rfl rfl rfl rfl
    split
    next => exact hsame
    next =>
      have hnext := hsame.trans (nextBlock_drifts played m live now)
      split
      next next heq => rw [heq] at hnext; exact hnext
      next next heq => rw [heq] at hnext; exact hnext.trans (ih _ _)

theorem render_drifts (a : AudioRenderer R) (m : MediaClock R) (live : LiveSerials) (now delay : R) (out : Bytes) :
    Drifts a (a.render m live now delay out).renderer := by
  have hasked : Drifts a { a with requestSize := out.length } := .aside rfl rfl rfl rfl
  have hfill := hasked.trans
    (fill_drifts { a with requestSize := out.length } m live now out (a.ring.length + 1))
  unfold AudioRenderer.render
  dsimp only
  split
  next => exact .aside rfl rfl rfl rfl
  next =>
    split
    next => exact .aside rfl rfl rfl rfl
    next => exact hfill.trans (.aside rfl rfl rfl rfl)

/-- What happens to a renderer is a run of its correction. -/
theorem act_drifts (w : AudioWatch R) (act : AudioAct R) : Drifts w.renderer (w.act act).renderer := by
  cases act with
  | restart | request | setPaused | setVolume | setMuted | stop => exact .aside rfl rfl rfl rfl
  | deliver result =>
    cases result with
    | endOfStream | aborted | error => exact .aside rfl rfl rfl rfl
    | frame block =>
      show Drifts w.renderer (w.renderer.deliver w.live (.frame block)).2
      unfold AudioRenderer.deliver
      dsimp only
      split <;> exact .aside rfl rfl rfl rfl
  | flush => exact flush_drifts w.renderer w.live
  | render clock video now delay out => exact render_drifts w.renderer clock ⟨w.live, video⟩ now delay out

theorem acts_drift (w : AudioWatch R) (as : List (AudioAct R)) : Drifts w.renderer (w.acts as).renderer := by
  have hstart : Drifts w.renderer w.renderer := ⟨[], fun _ hw => hw⟩
  exact List.foldlRecOn (motive := fun w' => Drifts w.renderer w'.renderer) as AudioWatch.act hstart
    fun w' hw' act _ => hw'.trans (act_drifts w' act)

end DriftWatch

/-- **The correction of a drift is gated and bounded.** Take a new audio renderer, whatever the numbers are made of, and
let blocks be begun at any readings of the clocks, flushes be made and anything else happen that does not touch the
account; each run of a renderer is one of these. A block that is begun then has no fewer and no more samples than the
limits of correction allow. It is left as it is if audio is the master, if the difference is undefined or too large, and
as long as fewer credible differences were heard than are averaged, since the start, an incredible difference, or a
flush that started the account anew. Otherwise the average decides, in which older differences fade: if it is below the
tolerance the block is left as it is, and if not it is corrected by the difference, within those limits. -/
theorem drift_corrected (config : AudioConfig R) (syncConfig : SyncConfig R) (capacity : Nat) (device : AudioDevice)
    (filter : RateFilter R) :
    (∀ (as : List (DriftAct R)) (clock : MediaClock R) (live : LiveSerials) (now : R) (count : Nat)
      (params : AudioParams),
      let w := (DriftWatch.new config syncConfig capacity device filter).acts as
      let percent := config.correctionPercentMax
      let low := count * (100 - min percent 100) / 100
      let high := count * (100 + percent) / 100
      let diff := clock.drift live now
      let fade : R := Scalar.fade config.averaged
      let result := (w.renderer.synchronize clock live now count params).1
      (low ≤ result ∧ result ≤ high) ∧
      (clock.masterType = .audioMaster ∨ syncConfig.Incredible diff ∨ w.heard.length < config.averaged →
        result = count) ∧
      (clock.masterType ≠ .audioMaster → ¬ syncConfig.Incredible diff → config.averaged ≤ w.heard.length →
        (result : Int) = if Scalar.abs (faded fade (diff :: w.heard) * (1.0 - fade)) < w.renderer.tolerance params
          then (count : Int)
          else max (low : Int) (min high (wrap64 (count + Scalar.toInt64 (diff * Scalar.ofInt params.sampleRate)))))) ∧
    ∀ as : List (AudioAct R), ∃ ds : List (DriftAct R),
      ((AudioWatch.new config syncConfig capacity device filter).acts as).renderer
        = ((DriftWatch.new config syncConfig capacity device filter).acts ds).renderer := by
  refine ⟨fun as clock live now count params => ?_, fun as => ?_⟩
  · intro w percent low high diff fade result
    have hw : w.Accounted config syncConfig := DriftWatch.acts_accounted (DriftWatch.new_accounted ..) as
    have hsync := w.renderer.synchronize_synchronizes clock live now count params
    refine ⟨?_, fun hleft => ?_, fun hfollows hcredible henough => ?_⟩
    · have hbounds := hsync.bounds
      rw [hw.configured] at hbounds
      exact hbounds
    · rw [← hw.limited, ← hw.few_iff] at hleft
      exact hsync.left hleft
    · rw [← hw.limited] at hcredible
      rw [← not_lt, ← hw.few_iff] at henough
      obtain ⟨hnear, hfar⟩ := hsync.decided hfollows hcredible henough
      rw [hw.tolerates_iff] at hnear hfar
      split
      next htolerates => exact congrArg Nat.cast (hnear htolerates)
      next hexceeds =>
        have hcorrected := w.renderer.correctedCount_eq count params.sampleRate diff
        rw [hw.configured] at hcorrected
        exact (congrArg Nat.cast (hfar hexceeds)).trans hcorrected
  · obtain ⟨ds, hds⟩ := DriftWatch.acts_drift (AudioWatch.new config syncConfig capacity device filter) as
    exact ⟨ds, (hds (DriftWatch.new config syncConfig capacity device filter) rfl).symm⟩

open Exact

/-- Audio that is a tenth of a second ahead of the external clock, which is the master. -/
def hurriedClock : MediaClock Exact :=
  ((MediaClock.new .externalClock id (finite 0)).setAt .audio (finite (1 / 10)) 1 (finite 0)).setAt .external (finite 0) 0
    (finite 0)

/-- With one difference averaged the first block is left as it is, and the second one is stretched as far as it
may. -/
theorem second_block_stretched :
    let config : AudioConfig Exact := { AudioConfig.default with diffAverageCount := 1 }
    let params : AudioParams := ⟨2000, 1, .i16⟩
    let block : DriftAct Exact := .block hurriedClock ⟨1, 1⟩ (finite 0) 1000 params
    let start : DriftWatch Exact := .new config .default 8 .obliging .silent
    let made (w : DriftWatch Exact) := (w.renderer.synchronize hurriedClock ⟨1, 1⟩ (finite 0) 1000 params).1
    made start = 1000 ∧ made (start.act block) = 1100 := by
  intro config params block start made
  obtain ⟨hgated, -⟩ := drift_corrected config .default 8 .obliging .silent
  obtain ⟨-, hfirst, -⟩ := hgated [] hurriedClock ⟨1, 1⟩ (finite 0) 1000 params
  obtain ⟨-, -, hsecond⟩ := hgated [block] hurriedClock ⟨1, 1⟩ (finite 0) 1000 params
  refine ⟨hfirst (.inr (.inr (by decide))), ?_⟩
  have hcorrected := hsecond (by decide) (by decide +kernel) (by decide +kernel)
  -- a device that asked for nothing yet tolerates nothing
  have htolerance : (start.act block).renderer.tolerance params = finite 0 := by decide +kernel
  have hexceeds (x : Exact) : ¬ Scalar.abs x < (start.act block).renderer.tolerance params := by
    rw [htolerance, abs_lt_finite]
    rintro ⟨q, -, hq⟩
    exact absurd hq (not_lt.mpr (abs_nonneg q))
  have hvalue : (made (start.act block) : Int) = max 900 (min 1100 1200) :=
    (hcorrected.trans (if_neg (hexceeds _))).trans (by decide +kernel)
  omega

end Playback
