import Playback.Audio.Resampler
import Playback.Proofs.Audio.Samples

/-!
# Frames in the format of the device

A frame is whole if its data is exactly its samples. Where no change of rate is needed, conversion keeps the number of
samples whatever the channels and formats are, and gives whole data again (`convert_whole`): the mix for other channels
has one output sample of each channel for every point in time, whether it is the average of the input channels or takes
them in turn.

With the channels as they are, 16-bit data survives the way to single precision and back (`conversion_keeps`).
-/

namespace Playback

variable {R : Type}

/-! ## Mixing -/

theorem groups_length {α : Type} (size count : Nat) (xs : List α) : (groups size count xs).length = count := by
  induction count generalizing xs with
  | zero => rfl
  | succ count ih => rw [groups, List.length_cons, ih]

theorem remixFrame_length (target : Nat) (frame : List Sample) : (remixFrame target frame).length = target := by
  unfold remixFrame
  split
  next h => exact h.symm
  next => rw [List.length_map, List.length_range]

/-- So many points in time stay so many. -/
theorem remix_length {samples : List Sample} {source count : Nat} (hsource : 0 < source)
    (whole : samples.length = count * source) (target : Nat) :
    (remix samples source target).length = count * target := by
  unfold remix
  split
  next h =>
    rcases h with rfl | rfl
    · exact whole
    · exact absurd hsource (Nat.lt_irrefl 0)
  next =>
    rw [length_flatMap_const (remixFrame_length target), groups_length, whole, Nat.mul_div_cancel _ hsource]

/-! ## Conversion at the same rate -/

namespace RawAudioFrame

/-- Whether a frame has a channel and its data is exactly its samples. -/
def IsWhole (frame : RawAudioFrame) : Prop :=
  1 ≤ frame.channels ∧ frame.data.length = frame.sampleCount * (frame.channels * frame.format.size)

instance (frame : RawAudioFrame) : Decidable frame.IsWhole :=
  inferInstanceAs (Decidable (_ ∧ _))

variable {frame : RawAudioFrame}

theorem IsWhole.decode_length (h : frame.IsWhole) :
    (Sample.decode frame.format frame.data).length = frame.sampleCount * frame.channels := by
  have hsize : 0 < frame.format.size := by cases frame.format <;> decide
  rw [Sample.decode_length, h.2, ← Nat.mul_assoc, Nat.mul_div_cancel _ hsize]

end RawAudioFrame

theorem AudioParams.pos_of_isValid {p : AudioParams} (valid : p.isValid = true) :
    0 < p.sampleRate ∧ 0 < p.channels := by
  simpa [AudioParams.isValid] using valid

namespace Resampler

variable [Scalar R] {r : Resampler R} {frame : RawAudioFrame}

/-- A whole frame that has the rate of the target but not its format is decoded, mixed and encoded. -/
theorem convert_mixed (whole : frame.IsWhole) (valid : r.target.isValid = true)
    (rate : frame.sampleRate = r.target.sampleRate) (other : r.isPassthrough frame = false) :
    r.convert frame = (.ok (Sample.encode r.target.format
      (remix (Sample.decode frame.format frame.data) frame.channels r.target.channels), frame.sampleCount), r) := by
  obtain ⟨hrate, htarget⟩ := AudioParams.pos_of_isValid valid
  have hmeaning : ¬(frame.sampleRate = 0 ∨ r.target.channels = 0) := by omega
  have hmixed := remix_length whole.1 whole.decode_length r.target.channels
  simp only [convert, other, Bool.false_eq_true, if_false, if_neg hmeaning, if_pos rate, hmixed,
    Nat.mul_div_cancel _ htarget]

/-- At the rate of the target a whole frame keeps its number of samples, and its data is whole again. -/
theorem convert_whole (whole : frame.IsWhole) (valid : r.target.isValid = true)
    (rate : frame.sampleRate = r.target.sampleRate) :
    ∃ data, r.convert frame = (.ok (data, frame.sampleCount), r) ∧
      data.length = frame.sampleCount * r.target.frameSize := by
  cases hpass : r.isPassthrough frame with
  | true =>
    obtain ⟨⟨-, hchannels⟩, hformat⟩ : (frame.sampleRate = r.target.sampleRate ∧
        frame.channels = r.target.channels) ∧ frame.format = r.target.format := by
      simpa [isPassthrough] using hpass
    refine ⟨frame.data, if_pos hpass, ?_⟩
    rw [whole.2, hchannels, hformat]
    rfl
  | false =>
    refine ⟨_, convert_mixed whole valid rate hpass, ?_⟩
    rw [Sample.encode_length, remix_length whole.1 whole.decode_length, Nat.mul_assoc]
    rfl

/-- With the channels as they are, a whole frame of 16-bit samples is found again after it was in single precision. -/
theorem convert_there_and_back {there back : Resampler R} (whole : frame.IsWhole) (format : frame.format = .i16)
    (valid : there.target.isValid = true) (single : there.target = ⟨frame.sampleRate, frame.channels, .f32⟩)
    (again : back.target = ⟨frame.sampleRate, frame.channels, .i16⟩) :
    ∃ data, there.convert frame = (.ok (data, frame.sampleCount), there) ∧
      back.convert { frame with format := .f32, data } = (.ok (frame.data, frame.sampleCount), back) := by
  -- whether a target is valid does not depend on its format
  have hvalid (format : SampleFormat) : (⟨frame.sampleRate, frame.channels, format⟩ : AudioParams).isValid = true := by
    rw [single] at valid
    exact valid
  have hmix (samples : List Sample) : remix samples frame.channels frame.channels = samples := if_pos (.inl rfl)
  have hthere := convert_mixed whole (by rw [single]; exact hvalid .f32) (by rw [single])
    (by simp [isPassthrough, single, format])
  rw [single, hmix, format] at hthere
  refine ⟨_, hthere, ?_⟩
  -- in single precision the frame is whole, too, and it is decoded to the samples that it was encoded from
  have hsamples := whole.decode_length
  rw [format] at hsamples
  have hwhole : RawAudioFrame.IsWhole { frame with
      format := .f32, data := Sample.encode .f32 (Sample.decode .i16 frame.data) } := by
    refine ⟨whole.1, ?_⟩
    rw [Sample.encode_length, hsamples, Nat.mul_assoc]
  have hback := convert_mixed hwhole (by rw [again]; exact hvalid .i16) (by rw [again])
    (by simp [isPassthrough, again])
  rw [again, hmix] at hback
  have heven : frame.data.length % 2 = 0 := by
    rw [whole.2, format, ← Nat.mul_assoc]
    exact Nat.mul_mod_left _ 2
  rw [hback, Sample.encode16_through_single frame.data heven]

end Resampler

/-- **Conversion keeps shape and 16-bit content.** Let a frame be whole and have the rate of a valid target. Its
conversion succeeds, whatever the channels and the formats are and whatever the resampler went through before: it gives
as many samples as the frame has, in data of just their size.

Brought to a valid target in single precision and back, with rate and channels as they are, a frame of 16-bit samples
has its bytes again. -/
theorem conversion_keeps [Scalar R] {frame : RawAudioFrame} (whole : frame.IsWhole) :
    (∀ r : Resampler R, r.target.isValid = true → frame.sampleRate = r.target.sampleRate →
      ∃ data, r.convert frame = (.ok (data, frame.sampleCount), r) ∧
        data.length = frame.sampleCount * r.target.frameSize) ∧
    (frame.format = .i16 → ∀ there back : Resampler R, there.target.isValid = true →
      there.target = ⟨frame.sampleRate, frame.channels, .f32⟩ →
      back.target = ⟨frame.sampleRate, frame.channels, .i16⟩ →
      ∃ data, there.convert frame = (.ok (data, frame.sampleCount), there) ∧
        back.convert { frame with format := .f32, data } = (.ok (frame.data, frame.sampleCount), back)) :=
  ⟨fun _ valid rate => Resampler.convert_whole whole valid rate,
    fun format _ _ valid single again => Resampler.convert_there_and_back whole format valid single again⟩

/-- The least and the greatest 16-bit value, mixed to five channels, and in single precision and back. -/
theorem extremes_kept :
    let frame : RawAudioFrame := ⟨none, 48000, 2, .i16, 1, [0x00, 0x80, 0xff, 0x7f]⟩
    let five : Resampler Float := .new ⟨48000, 5, .f32⟩ .silent
    let single : Resampler Float := .new ⟨48000, 2, .f32⟩ .silent
    let short : Resampler Float := .new ⟨48000, 2, .i16⟩ .silent
    frame.IsWhole ∧ five.target.isValid = true ∧
      (∃ data, five.convert frame = (.ok (data, 1), five) ∧ data.length = 20) ∧
      ∃ data, single.convert frame = (.ok (data, 1), single) ∧
        short.convert { frame with format := .f32, data } = (.ok ([0x00, 0x80, 0xff, 0x7f], 1), short) := by
  intro frame five single short
  have hwhole : frame.IsWhole := by decide
  have hvalid : five.target.isValid = true := by decide
  obtain ⟨hshape, hcontent⟩ := conversion_keeps (R := Float) hwhole
  exact ⟨hwhole, hvalid, hshape five hvalid rfl, hcontent rfl single short (by decide) rfl rfl⟩

end Playback
