import Playback.Proofs.Configurations
import Playback.Proofs.Player.Targets
import Playback.Proofs.Scalar
import Playback.Scripted.Player

/-!
# The ranges of reported values

Volumes are kept between zero and one, targets of seeks within the duration, and positions are not negative, for every
sequence of calls and every float. One value goes through: an undefined volume stays undefined, and so does an undefined
position if the duration is known, since both are brought within bounds by `clamp` (`values_in_range`). The way without
a duration, and the target that is noted at once, go through `max`, which makes zero of it.
-/

namespace Playback

variable {R κa κv σ : Type}

/-! ## Volumes -/

/-- All volumes that are wished for, wait or are set have a property. -/
structure OutputView.Toned (good : R → Prop) (v : OutputView R) : Prop where
  wish : good v.wishes.volume
  asked : ∀ volume, .volume volume ∈ v.asked → good volume
  has : ∀ c ∈ v.controls, ∀ a ∈ c.audio, good a.volume

section

variable [Scalar R] {good : R → Prop} {v v' : OutputView R} {asked? : Option (Control R)}

/-- The rules of the output keep a property of volumes that survives the bounds. -/
theorem OutputView.Toned.move (h : v.Toned good) (move : OutputMove v asked? v')
    (clamped : ∀ x, good x → good (Scalar.clamp x 0.0 1.0)) (new : ∀ volume, asked? = some (.volume volume) → good volume) :
    v'.Toned good := by
  cases move with
  | same => exact h
  | asks c =>
    refine ⟨?_, fun volume hmem => ?_, h.has⟩
    · cases c with
      | volume volume => exact new volume rfl
      | apply | mute => exact h.wish
    · rcases List.mem_append.mp hmem with hmem | hmem
      · exact h.asked volume hmem
      · exact new volume (congrArg some (List.mem_singleton.mp hmem).symm)
  | takes c rest first =>
    have hrest : ∀ control ∈ rest, control ∈ v.asked := fun control hmem => first ▸ List.mem_cons_of_mem _ hmem
    refine ⟨h.wish, fun volume hmem => h.asked volume (hrest _ hmem), fun c' hc' a ha => ?_⟩
    obtain ⟨before, hbefore, rfl⟩ := Option.map_eq_some_iff.mp hc'
    cases c with
    | apply =>
      obtain ⟨a', ha', rfl⟩ := Option.map_eq_some_iff.mp ha
      exact h.has before hbefore a' ha'
    | volume volume =>
      obtain ⟨a', -, rfl⟩ := Option.map_eq_some_iff.mp ha
      exact clamped volume (h.asked volume (first ▸ List.mem_cons_self ..))
    | mute muted =>
      obtain ⟨a', ha', rfl⟩ := Option.map_eq_some_iff.mp ha
      exact h.has before hbefore a' ha'
  | turns playing =>
    refine ⟨h.wish, h.asked, fun c hc a ha => ?_⟩
    obtain ⟨before, hbefore, rfl⟩ := Option.map_eq_some_iff.mp hc
    obtain ⟨a', ha', rfl⟩ := Option.map_eq_some_iff.mp ha
    exact h.has before hbefore a' ha'
  | opens playing c _ volume =>
    refine ⟨h.wish, h.asked, fun c' hc' a ha => ?_⟩
    cases hc'
    rw [volume a ha]
    exact clamped _ h.wish
  | ends _ _ gone wishes waits =>
    refine ⟨?_, fun volume hmem => ?_, fun c hc => by rw [gone] at hc; cases hc⟩
    · rw [wishes]
      cases asked? with
      | none => exact h.wish
      | some c => cases c with
        | volume volume => exact new volume rfl
        | apply | mute => exact h.wish
    · rcases waits with hnone | ⟨-, hsame⟩
      · rw [hnone] at hmem
        cases hmem
      · exact h.asked volume (hsame ▸ hmem)

end

namespace Player

/-- In every run, volumes have each property that the first one has and those that were set, once they were brought
within bounds. -/
theorem acts_toned [Scalar R] [Codec κa RawAudioFrame] [Codec κv RawVideoFrame] [Source σ R] {good : R → Prop}
    (clamped : ∀ x, good x → good (Scalar.clamp x 0.0 1.0)) (config : PlayerConfig R) (device : AudioDevice)
    (filter : RateFilter R) (first : good (Scalar.clamp config.audio.volume 0.0 1.0)) (as : List (PlayerAct R κa κv σ))
    (rule : ∀ volume, .setVolume volume ∈ as → good (Scalar.clamp volume 0.0 1.0)) :
    ((make config device filter : Player R κa κv σ).acts as).output.Toned good := by
  induction as using List.reverseRecOn with
  | nil => exact ⟨first, nofun, nofun⟩
  | append_singleton as a ih =>
    have htoned := ih fun volume hmem => rule volume (List.mem_append_left _ hmem)
    have hreleased := (released_acts (p := make config device filter) as (make_tidy config device filter) nofun).2
    obtain ⟨-, hmove⟩ := (acts_output config device filter as).1.act hreleased a
    rw [acts, List.foldl_append]
    refine htoned.move hmove clamped fun volume hasked => ?_
    cases a with
    | setVolume asked =>
      cases hasked
      exact rule asked (by simp)
    | _ => cases hasked

end Player

/-! ## Targets -/

/-- The position that a call asks for. -/
def PlayerAct.position? : PlayerAct R κa κv σ → Option R
  | .seek position => some position
  | _ => none

/-- A duration that targets are kept within. -/
def Known (duration : Float) : Prop :=
  Scalar.isFinite duration = true ∧ 0.0 < duration

/-- A target that is defined, not negative, and within the duration if that is known. -/
def Reachable (duration target : Float) : Prop :=
  0.0 ≤ target ∧ (Known duration → target ≤ duration)

theorem seekTarget_known {duration : Float} (h : Known duration) (position : Float) :
    Demuxer.seekTarget duration position = Scalar.clamp position 0.0 duration :=
  if_pos h

theorem seekTarget_unknown {duration : Float} (h : ¬ Known duration) (position : Float) :
    Demuxer.seekTarget duration position = Scalar.max position 0.0 :=
  if_neg h

theorem seekTarget_reachable {duration position : Float} (h : ¬ (position.isNaN = true ∧ Known duration)) :
    Reachable duration (Demuxer.seekTarget duration position) := by
  by_cases hknown : Known duration
  · have hdefined : position.isNaN = false := Bool.eq_false_iff.mpr fun hnan => h ⟨hnan, hknown⟩
    obtain ⟨hlow, hhigh⟩ := within_clamp (float_le_of_lt hknown.2) hdefined
    rw [seekTarget_known hknown]
    exact ⟨hlow, fun _ => hhigh⟩
  · rw [seekTarget_unknown hknown]
    exact ⟨nonneg_max position, fun h => absurd h hknown⟩

/-- A target is undefined exactly if it was made of an undefined position with a known duration. -/
theorem seekTarget_isNaN (duration position : Float) :
    (Demuxer.seekTarget duration position).isNaN = true ↔ position.isNaN = true ∧ Known duration := by
  by_cases h : position.isNaN = true ∧ Known duration
  · refine iff_of_true ?_ h
    rw [seekTarget_known h.2, clamp_of_isNaN h.1]
    exact h.1
  · refine iff_of_false ?_ h
    rw [(float_defined_of_le (seekTarget_reachable h).1).2]
    exact nofun

theorem landed_reachable {asked : Float → Prop} {duration target : Float} (h : Landed asked duration target) :
    Reachable duration target ∨ (target.isNaN = true ∧ ∃ x, asked x ∧ x.isNaN = true) := by
  obtain ⟨position, hasked, rfl⟩ := h
  by_cases hnan : position.isNaN = true ∧ Known duration
  · exact .inr ⟨(seekTarget_isNaN duration position).mpr hnan, position, hasked, hnan.1⟩
  · exact .inl (seekTarget_reachable hnan)

namespace Player

variable [Codec κa RawAudioFrame] [Codec κv RawVideoFrame] [Source σ Float]

omit [Codec κa RawAudioFrame] [Codec κv RawVideoFrame] [Source σ Float] in
/-- A player with an accepted configuration starts with a volume that is defined. -/
theorem new_accepted {config : PlayerConfig Float} {device : AudioDevice} {filter : RateFilter Float}
    {p : Player Float κa κv σ} (accepted : Player.new config device filter = .ok p) :
    p = make config device filter ∧ config.audio.volume.isNaN = false := by
  unfold Player.new at accepted
  cases hvalidate : config.validate with
  | error e => rw [hvalidate] at accepted; cases accepted
  | ok config' =>
    obtain ⟨rfl, hlow, -⟩ := PlayerConfig.validate_volume hvalidate
    rw [hvalidate] at accepted
    cases accepted
    exact ⟨rfl, (float_defined_of_le hlow).2⟩

/-- A volume within bounds, or an undefined one that was set. -/
def Audible (volumes : List Float) (v : Float) : Prop :=
  Within 0.0 1.0 v ∨ (v.isNaN = true ∧ ∃ v ∈ volumes, v.isNaN = true)

theorem audible_clamp {volumes : List Float} {v : Float} (h : v.isNaN = true → ∃ v ∈ volumes, v.isNaN = true) :
    Audible volumes (Scalar.clamp v 0.0 1.0) := by
  have hbounds : (0.0 : Float) ≤ 1.0 := by decide +kernel
  cases hnan : v.isNaN with
  | true => exact .inr ⟨(isNaN_clamp hbounds).trans hnan, h hnan⟩
  | false => exact .inl (within_clamp hbounds hnan)

/-- All volumes of a run are within bounds, but for those that go back to an undefined one. -/
theorem acts_audible {config : PlayerConfig Float} (first : config.audio.volume.isNaN = false) (device : AudioDevice)
    (filter : RateFilter Float) (as : List (PlayerAct Float κa κv σ)) :
    ((make config device filter).acts as).output.Toned (Audible (as.filterMap PlayerAct.volume?)) := by
  refine acts_toned (fun v h => audible_clamp fun hnan => ?_) config device filter (audible_clamp fun hnan => ?_) as
    fun v hmem => audible_clamp fun hnan => ⟨v, List.mem_filterMap.mpr ⟨_, hmem, rfl⟩, hnan⟩
  · -- it is bounded again when it reaches the renderer, and is as undefined as before
    rcases h with hwithin | ⟨-, hset⟩
    · exact absurd (hnan.symm.trans (float_defined_of_le hwithin.1).2) nofun
    · exact hset
  · exact absurd (hnan.symm.trans first) nofun

omit [Codec κa RawAudioFrame] [Codec κv RawVideoFrame] in
/-- The position is not negative, unless an undefined one was asked for. -/
theorem Carries.position_nonneg {opened : Media κa κv σ → Prop} {asked : Float → Prop} {p : Player Float κa κv σ}
    (h : p.Carries opened asked) :
    0.0 ≤ p.position ∨ (p.position.isNaN = true ∧ ∃ x, asked x ∧ x.isNaN = true) := by
  unfold Player.position
  dsimp only
  split
  next =>
    cases htarget : p.seekTarget with
    | none => exact .inl (by decide +kernel)
    | some t =>
      rcases h.target t htarget with ⟨x, -, rfl⟩ | ⟨duration, hlanded⟩
      · exact .inl (nonneg_max x)
      · exact (landed_reachable hlanded).imp_left And.left
  next => exact .inl (nonneg_max _)

/-- **The ranges of reported values.** In every run of a player with an accepted configuration, whatever floats it is
called with, the volume is undefined exactly if the one that was set last is, and otherwise between zero and one. So is
the volume of the audio renderer, unless an undefined one was ever set. The position is not negative, and the source is
only asked to go to targets that are not negative and within the duration if that is known; unless an undefined position
was ever asked for. That becomes an undefined target exactly if the duration is known. -/
theorem values_in_range {config : PlayerConfig Float} {device : AudioDevice} {filter : RateFilter Float}
    {p₀ : Player Float κa κv σ} (accepted : Player.new config device filter = .ok p₀)
    (as : List (PlayerAct Float κa κv σ)) :
    let p := p₀.acts as
    let volumes := as.filterMap PlayerAct.volume?
    let positions := as.filterMap PlayerAct.position?
    (p.volume.isNaN = true ↔ ∃ v ∈ volumes.getLast?, v.isNaN = true) ∧
    (p.volume.isNaN = false → Within 0.0 1.0 p.volume) ∧
    (∀ s ∈ p.session, ∀ a ∈ s.audio, Within 0.0 1.0 a.renderer.volume ∨
      (a.renderer.volume.isNaN = true ∧ ∃ v ∈ volumes, v.isNaN = true)) ∧
    (0.0 ≤ p.position ∨ (p.position.isNaN = true ∧ ∃ x ∈ positions, x.isNaN = true)) ∧
    (∀ s ∈ p.session, ∃ media, .requestOpen media ∈ as ∧ Source.Driven (fun duration target =>
        Reachable duration target ∨ (target.isNaN = true ∧ ∃ x ∈ positions, x.isNaN = true))
      media.source s.demuxer.source) ∧
    ∀ duration x : Float, (Demuxer.seekTarget duration x).isNaN = true ↔ x.isNaN = true ∧ Known duration := by
  intro p volumes positions
  have hbounds : (0.0 : Float) ≤ 1.0 := by decide +kernel
  obtain ⟨rfl, hfirst⟩ := new_accepted accepted
  have hvolume : p.volume = Scalar.clamp (volumes.getLastD config.audio.volume) 0.0 1.0 :=
    (acts_output config device filter as).2.2.1
  have haudible : p.output.Toned (Audible volumes) := acts_audible hfirst device filter as
  have hcarries : p.Carries _ _ := acts_carries config device filter as
  have hposition (h : ∃ x, PlayerAct.seek x ∈ as ∧ x.isNaN = true) : ∃ x ∈ positions, x.isNaN = true :=
    h.imp fun x hx => ⟨List.mem_filterMap.mpr ⟨_, hx.1, rfl⟩, hx.2⟩
  refine ⟨?_, fun hdefined => ?_, fun s hs a ha => ?_, ?_, fun s hs => ?_, seekTarget_isNaN⟩
  · rw [hvolume, isNaN_clamp hbounds, List.getLastD_eq_getLast?]
    cases volumes.getLast? with
    | none => exact ⟨fun hnan => absurd (hnan.symm.trans hfirst) nofun, nofun⟩
    | some v => exact ⟨fun hnan => ⟨v, rfl, hnan⟩, fun ⟨_, rfl, hnan⟩ => hnan⟩
  · rw [hvolume, isNaN_clamp hbounds] at hdefined
    rw [hvolume]
    exact within_clamp hbounds hdefined
  · exact haudible.has s.controls (Option.mem_map_of_mem _ hs) a.renderer.controls (Option.mem_map_of_mem _ ha)
  · exact hcarries.position_nonneg.imp_right (And.imp_right hposition)
  · obtain ⟨media, hopened, hdriven⟩ := hcarries.driven s.demuxer (by rw [demuxer?, hs]; rfl)
    exact ⟨media, hopened, hdriven.mono fun _ _ h => (landed_reachable h).imp_right (And.imp_right hposition)⟩

/-! A run in which both values are undefined. -/

/-- A tone of ten seconds is opened; then an undefined position is asked for, after an undefined volume. -/
def undefinedCalls : List (PlayerAct Float (ScriptedCodec RawAudioFrame) (ScriptedCodec RawVideoFrame)
    (ScriptedSource Float)) :=
  List.flatten [
    [.setVolume Scalar.nan,
      .requestOpen (.audible { ScriptedSource.tone 1 with info := { MediaInfo.unknown with duration := 10.0 } })],
    List.replicate 2 (.step .player), [.seek Scalar.nan, .step .player],
    List.replicate 4 (.step .demuxer), List.replicate 2 (.step .player)]

theorem undefined_values_pass :
    let p : ScriptedPlayer Float := (make .default .obliging .silent).acts undefinedCalls
    p.volume.isNaN = true ∧ p.position.isNaN = true ∧
      (∃ s ∈ p.session, (∃ a ∈ s.audio, a.renderer.volume.isNaN = true) ∧
        s.demuxer.source.seeks.map Float.isNaN = [true]) ∧
      ∃ x ∈ undefinedCalls.filterMap PlayerAct.position?, x.isNaN = true := by
  intro p
  have haccepted : (Player.new .default .obliging .silent : Except PlayerError (ScriptedPlayer Float))
      = .ok (make .default .obliging .silent) := rfl
  obtain ⟨hvolume, -, -, hposition, -⟩ := values_in_range haccepted undefinedCalls
  have hundefined : p.position.isNaN = true := by decide +kernel
  have hasked : ∃ x ∈ undefinedCalls.filterMap PlayerAct.position?, x.isNaN = true := by
    rcases hposition with hdefined | ⟨-, hasked⟩
    · exact absurd (hundefined.symm.trans (float_defined_of_le hdefined).2) nofun
    · exact hasked
  exact ⟨hvolume.mpr (by decide +kernel), hundefined, by decide +kernel, hasked⟩

end Player
end Playback
