import Playback.Config.Text
import Playback.Proofs.Json.Records
import Playback.Proofs.Scalar

/-!
# Configurations read back

An accepted configuration is read back from its text exactly if the buffered duration it asks for is finite
(`accepted_config_reads_back`). Every other scalar of an accepted configuration is finite: the thresholds are
checked one by one, and the volume lies between 0 and 1. The buffered duration is not looked at, so an
infinite or undefined one is accepted, written as `null`, and refused by the reader.
-/

namespace Playback

open Json

/-! ## What a configuration consists of -/

/-- Within the widths of its numbers. -/
structure BufferConfig.Fits {R : Type} (c : BufferConfig R) : Prop where
  minFrames : c.minFrames < 0x10000000000000000
  maxQueueBytes : c.maxQueueBytes < 0x10000000000000000
  videoRingCapacity : c.videoRingCapacity < 0x10000000000000000
  audioRingCapacity : c.audioRingCapacity < 0x10000000000000000
  readRetryInterval : c.readRetryInterval < 0x10000000000000000

/-- Within the widths of its numbers. -/
structure AudioConfig.Fits {R : Type} (c : AudioConfig R) : Prop where
  wantedSampleRate : c.wantedSampleRate < 0x100000000
  wantedChannels : c.wantedChannels < 0x10000
  diffAverageCount : c.diffAverageCount < 0x100000000
  correctionPercentMax : c.correctionPercentMax < 0x100000000

/-- Within the widths of its numbers. -/
structure SchedulerConfig.Fits (c : SchedulerConfig) : Prop where
  slowTaskWarning : c.slowTaskWarning < 0x10000000000000000
  statusInterval : c.statusInterval < 0x10000000000000000

/-- Within the widths of its numbers. -/
structure PlayerConfig.Fits {R : Type} (c : PlayerConfig R) : Prop where
  buffer : c.buffer.Fits
  audio : c.audio.Fits
  scheduler : c.scheduler.Fits

def PlayerConfig.scalars {R : Type} (c : PlayerConfig R) : List R :=
  c.sync.thresholds.map (·.2) ++ [c.buffer.minDuration, c.audio.volume]

/-! ## What is accepted -/

namespace PlayerConfig

section

variable {S : Type} [TextScalar S] {c : PlayerConfig S}

theorem validate_eq_ok {accepted : PlayerConfig S} : c.validate = .ok accepted ↔ c.fault? = none ∧ accepted = c := by
  unfold validate
  split
  next h => simp [h]
  next h => simp [h, eq_comm]

/-- The checks that an accepted configuration has passed, in their order. -/
structure Accepted (c : PlayerConfig S) : Prop where
  thresholds : ¬ (c.sync.thresholdMin ≤ 0.0 ∨ c.sync.thresholdMax < c.sync.thresholdMin)
  finite : ∀ t ∈ c.sync.thresholds, Scalar.isFinite t.2 = true
  refreshRate : ¬ (c.sync.refreshRate ≤ 0.0 ∨ maxRefreshRate < c.sync.refreshRate)
  limits : ¬ (c.sync.maxFrameDuration ≤ 0.0 ∨ c.sync.nosyncThreshold ≤ 0.0)
  ringCapacities : ¬ (c.buffer.videoRingCapacity = 0 ∨ c.buffer.audioRingCapacity = 0)
  volume : 0.0 ≤ c.audio.volume ∧ c.audio.volume ≤ 1.0
  audioFormat : ¬ (c.audio.wantedSampleRate = 0 ∨ c.audio.wantedChannels = 0)

theorem accepted_iff : c.fault? = none ↔ c.Accepted := by
  have hfind : (c.sync.thresholds.find? fun t => !Scalar.isFinite t.2) = none
      ↔ ∀ t ∈ c.sync.thresholds, Scalar.isFinite t.2 = true := by
    simp
  constructor
  · intro h
    unfold fault? at h
    repeat' split at h
    all_goals cases h
    rename_i hthresholds _ hfinite hrate hlimits hring hvolume hformat
    exact ⟨hthresholds, hfind.mp hfinite, hrate, hlimits, hring, Decidable.not_not.mp hvolume, hformat⟩
  · intro h
    unfold fault?
    rw [if_neg h.thresholds, hfind.mpr h.finite]
    dsimp only
    rw [if_neg h.refreshRate, if_neg h.limits, if_neg h.ringCapacities, if_neg (not_not_intro h.volume),
      if_neg h.audioFormat]

/-- An accepted configuration has a volume within bounds. -/
theorem validate_volume {accepted : PlayerConfig S} (h : c.validate = .ok accepted) :
    accepted = c ∧ 0.0 ≤ c.audio.volume ∧ c.audio.volume ≤ 1.0 := by
  obtain ⟨hfault, heq⟩ := validate_eq_ok.mp h
  exact ⟨heq, (accepted_iff.mp hfault).volume⟩

end

variable {c : PlayerConfig Float}

/-- The thresholds of an accepted configuration are finite. -/
theorem thresholds_finite (accepted : c.validate = .ok c) : ∀ t ∈ c.sync.thresholds, t.2.isFinite = true := by
  intro t ht
  rw [← scalar_isFinite_float]
  exact (accepted_iff.mp (validate_eq_ok.mp accepted).1).finite t ht

theorem volume_finite (accepted : c.validate = .ok c) : c.audio.volume.isFinite = true :=
  float_isFinite_of_between (by decide +kernel) (by decide +kernel) (validate_volume accepted).2

end PlayerConfig

/-! ## Its sections -/

theorem SyncType.readName_name (t : SyncType) : readName SyncType.name SyncType.all (text t.name) = some t :=
  readName_text (by decide) (by cases t <;> decide)

theorem FrameDrop.readName_name (d : FrameDrop) : readName FrameDrop.name FrameDrop.all (text d.name) = some d :=
  readName_text (by decide) (by cases d <;> decide)

theorem SampleFormat.readName_name (f : SampleFormat) :
    readName SampleFormat.name SampleFormat.all (text f.name) = some f :=
  readName_text (by decide) (by cases f <;> decide)

namespace SyncConfig

variable {c : SyncConfig Float}

theorem toJson_legal (c : SyncConfig Float) : (c.toJson ofScalar).Legal := by
  simp [toJson, record, Legal, LegalEntries, ofScalar_legal, text]

theorem ofJson?_toJson (reads : ∀ t ∈ c.thresholds, ReadsBack t.2)
    (finite : ∀ t ∈ c.thresholds, t.2.isFinite = true) : ofJson? (c.toJson ofScalar) = some c := by
  have hread : ∀ t ∈ c.thresholds, readScalar (ofScalar t.2) = some t.2 :=
    fun t ht => readScalar_finite (reads t ht) (finite t ht)
  simp only [thresholds, List.forall_mem_cons] at hread
  obtain ⟨hmin, hmax, hrepeat, hnosync, hframe, hrefresh, -⟩ := hread
  unfold ofJson? toJson
  rw [fields?_record (by rfl) (by decide)]
  simp [Fields.default, lookup, hmin, hmax, hrepeat, hnosync, hframe, hrefresh, SyncType.readName_name,
    FrameDrop.readName_name]

end SyncConfig

namespace BufferConfig

variable {c : BufferConfig Float}

theorem toJson_legal (c : BufferConfig Float) : (c.toJson ofScalar).Legal := by
  simp [toJson, record, Legal, LegalEntries, ofScalar_legal, int, Number.ofInt_legal]

/-- The section is read back if the buffered duration is finite, and not at all otherwise. -/
theorem ofJson?_toJson (fits : c.Fits) (reads : ReadsBack c.minDuration) :
    ofJson? (c.toJson ofScalar) = if c.minDuration.isFinite = true then some c else none := by
  unfold ofJson? toJson
  rw [fields?_record (by rfl) (by decide)]
  split
  next finite =>
    simp [Fields.default, lookup, readScalar_finite reads finite, readNat_int 64 fits.minFrames,
      readNat_int 64 fits.maxQueueBytes, readNat_int 64 fits.videoRingCapacity,
      readNat_int 64 fits.audioRingCapacity, readNat_int 64 fits.readRetryInterval, readBool]
  next infinite => simp [Fields.default, lookup, readScalar_infinite (Bool.eq_false_iff.mpr infinite)]

end BufferConfig

namespace AudioConfig

variable {c : AudioConfig Float}

theorem toJson_legal (c : AudioConfig Float) : (c.toJson ofScalar).Legal := by
  simp [toJson, record, Legal, LegalEntries, ofScalar_legal, text, int, Number.ofInt_legal]

theorem ofJson?_toJson (fits : c.Fits) (reads : ReadsBack c.volume) (finite : c.volume.isFinite = true) :
    ofJson? (c.toJson ofScalar) = some c := by
  unfold ofJson? toJson
  rw [fields?_record (by rfl) (by decide)]
  simp [Fields.default, lookup, readScalar_finite reads finite, readNat_int 32 fits.wantedSampleRate,
    readNat_int 16 fits.wantedChannels, readNat_int 32 fits.diffAverageCount,
    readNat_int 32 fits.correctionPercentMax, SampleFormat.readName_name, readBool]

end AudioConfig

namespace SchedulerConfig

theorem toJson_legal (c : SchedulerConfig) : c.toJson.Legal := by
  simp [toJson, record, Legal, LegalEntries, int, Number.ofInt_legal]

theorem ofJson?_toJson {c : SchedulerConfig} (fits : c.Fits) : ofJson? c.toJson = some c := by
  unfold ofJson? toJson
  rw [fields?_record (by rfl) (by decide)]
  simp [Fields.default, lookup, readNat_int 64 fits.slowTaskWarning, readNat_int 64 fits.statusInterval]

end SchedulerConfig

/-! ## The whole -/

namespace PlayerConfig

theorem toJson_legal (c : PlayerConfig Float) : (c.toJson ofScalar).Legal := by
  simp [toJson, record, Legal, LegalEntries, SyncConfig.toJson_legal, BufferConfig.toJson_legal,
    AudioConfig.toJson_legal, SchedulerConfig.toJson_legal]

/-- An accepted configuration is the one that its JSON value describes if its buffered duration is finite; the
value describes none otherwise. -/
theorem ofJson?_toJson {c : PlayerConfig Float} (fits : c.Fits) (reads : ∀ x ∈ c.scalars, ReadsBack x)
    (accepted : c.validate = .ok c) :
    ofJson? (c.toJson ofScalar) = if c.buffer.minDuration.isFinite = true then some c else none := by
  have hsync : SyncConfig.ofJson? (c.sync.toJson ofScalar) = some c.sync :=
    SyncConfig.ofJson?_toJson (fun t ht => reads t.2 (List.mem_append_left _ (List.mem_map_of_mem ht)))
      (thresholds_finite accepted)
  have hbuffer := BufferConfig.ofJson?_toJson fits.buffer (reads _ (by simp [scalars]))
  have haudio := AudioConfig.ofJson?_toJson fits.audio (reads _ (by simp [scalars])) (volume_finite accepted)
  have hscheduler := SchedulerConfig.ofJson?_toJson fits.scheduler
  unfold ofJson? toJson
  rw [fields?_record (by rfl) (by decide)]
  split at hbuffer
  next finite => simp [Fields.default, lookup, hsync, hbuffer, haudio, hscheduler, finite]
  next infinite => simp [Fields.default, lookup, hbuffer, infinite]

/-- **An accepted configuration is read back exactly if its buffered duration is finite.** Let the numbers of
a configuration fit their widths, and let each of its scalars be read back from its own number, if it has one.
If the configuration is accepted, reading its text gives the configuration itself when the buffered duration
is finite, and the refusal of a malformed text otherwise. -/
theorem accepted_config_reads_back (c : PlayerConfig Float) (fits : c.Fits) (reads : ∀ x ∈ c.scalars, ReadsBack x)
    (accepted : c.validate = .ok c) :
    ofText c.toText = if c.buffer.minDuration.isFinite = true then .ok c else .error .malformedConfig := by
  rw [ofText, toText, parse?_pretty c.toJson_legal, Option.bind_some, ofJson?_toJson fits reads accepted]
  by_cases finite : c.buffer.minDuration.isFinite = true
  · rw [if_pos finite, if_pos finite]
    exact accepted
  · rw [if_neg finite, if_neg finite]

/-- The default configuration with this buffered duration. -/
def buffering (duration : Float) : PlayerConfig Float :=
  { (.default : PlayerConfig Float) with
    buffer := { (.default : BufferConfig Float) with minDuration := duration } }

theorem buffering_fits (duration : Float) : (buffering duration).Fits where
  buffer := by constructor <;> simp [buffering, BufferConfig.default]
  audio := by constructor <;> simp [buffering, PlayerConfig.default, AudioConfig.default]
  scheduler := by constructor <;> simp [buffering, PlayerConfig.default, SchedulerConfig.default]

/-- Two seconds and a half are read back; an endless duration is accepted and then refused. -/
theorem endless_buffering_refused :
    ofText (buffering 2.5).toText = .ok (buffering 2.5) ∧
      (buffering (1.0 / 0.0)).validate = .ok (buffering (1.0 / 0.0)) ∧
      ofText (buffering (1.0 / 0.0)).toText = (.error .malformedConfig : Except PlayerError (PlayerConfig Float)) := by
  have reads : ∀ d ∈ [2.5, 1.0 / 0.0], ∀ x ∈ (buffering d).scalars, ReadsBack x := by
    have numbers : ∀ d ∈ [2.5, 1.0 / 0.0], ∀ x ∈ (buffering d).scalars,
        ∀ n ∈ Number.ofDouble? x, Number.toDouble? n = some x := by decide +kernel
    exact fun d hd x hx n hn => numbers d hd x hx n hn
  have hfinite : (buffering 2.5).validate = .ok (buffering 2.5) :=
    validate_eq_ok.mpr ⟨Option.isNone_iff_eq_none.mp (by decide +kernel), rfl⟩
  have hendless : (buffering (1.0 / 0.0)).validate = .ok (buffering (1.0 / 0.0)) :=
    validate_eq_ok.mpr ⟨Option.isNone_iff_eq_none.mp (by decide +kernel), rfl⟩
  refine ⟨?_, hendless, ?_⟩
  · rw [accepted_config_reads_back _ (buffering_fits 2.5) (reads _ (by simp)) hfinite]
    exact if_pos (by decide +kernel)
  · rw [accepted_config_reads_back _ (buffering_fits (1.0 / 0.0)) (reads _ (by simp)) hendless]
    exact if_neg (by decide +kernel)

end PlayerConfig
end Playback
