import Playback.Audio.Mix

/-!
# Mixing piece by piece

Every volume but silence and the full one works on whole samples. Where no sample is cut, mixing data in pieces is
mixing the whole (`mix_append`), and the result has nothing of what the output held before, so that there is one
way in which data sounds (`voiced`, `mix_eq_voiced`).
-/

namespace Playback

variable {R : Type} [Scalar R]

/-! ## Scaled samples -/

theorem mix16_length (volume : R) (out src : Bytes) : (mix16 volume out src).length = out.length := by
  fun_induction mix16 volume out src with
  | case1 _ _ out b0 b1 src ih =>
    rw [List.length_append, ih]
    simp [Sample.int16ToBytes]
    omega
  | case2 => rfl

theorem mix32_length (volume : R) (out src : Bytes) : (mix32 volume out src).length = out.length := by
  fun_induction mix32 volume out src with
  | case1 _ _ _ _ out b0 b1 b2 b3 src ih =>
    rw [List.length_append, ih]
    simp [Sample.toBytes]
    omega
  | case2 => rfl

theorem mix16_append (volume : R) {out src : Bytes} (h : out.length = src.length)
    (whole : 2 ∣ src.length) (out' src' : Bytes) :
    mix16 volume (out ++ out') (src ++ src') = mix16 volume out src ++ mix16 volume out' src' := by
  match out, src with
  | [], [] => rfl
  | [_], [_] => simp at whole
  | _ :: _ :: out, b0 :: b1 :: src =>
    simp only [List.length_cons] at h whole
    simp only [List.cons_append, mix16, List.append_assoc]
    rw [mix16_append volume (by omega) (by omega)]

theorem mix32_append (volume : R) {out src : Bytes} (h : out.length = src.length)
    (whole : 4 ∣ src.length) (out' src' : Bytes) :
    mix32 volume (out ++ out') (src ++ src') = mix32 volume out src ++ mix32 volume out' src' := by
  match out, src with
  | [], [] => rfl
  | [_], [_] | [_, _], [_, _] | [_, _, _], [_, _, _] => simp at whole
  | _ :: _ :: _ :: _ :: out, b0 :: b1 :: b2 :: b3 :: src =>
    simp only [List.length_cons] at h whole
    simp only [List.cons_append, mix32, List.append_assoc]
    rw [mix32_append volume (by omega) (by omega)]

/-- Whole samples are replaced, whatever the output held. -/
theorem mix16_congr (volume : R) {out out' src : Bytes} (h : out.length = src.length)
    (h' : out'.length = src.length) (whole : 2 ∣ src.length) :
    mix16 volume out src = mix16 volume out' src := by
  match out, src with
  | [], [] => rw [List.eq_nil_of_length_eq_zero h']
  | [_], [_] => simp at whole
  | _ :: _ :: out, b0 :: b1 :: src =>
    match out' with
    | _ :: _ :: out' =>
      simp only [List.length_cons] at h h' whole
      simp only [mix16]
      rw [mix16_congr volume (by omega : out.length = src.length) (by omega : out'.length = src.length)
        (by omega)]

theorem mix32_congr (volume : R) {out out' src : Bytes} (h : out.length = src.length)
    (h' : out'.length = src.length) (whole : 4 ∣ src.length) :
    mix32 volume out src = mix32 volume out' src := by
  match out, src with
  | [], [] => rw [List.eq_nil_of_length_eq_zero h']
  | [_], [_] | [_, _], [_, _] | [_, _, _], [_, _, _] => simp at whole
  | _ :: _ :: _ :: _ :: out, b0 :: b1 :: b2 :: b3 :: src =>
    match out' with
    | _ :: _ :: _ :: _ :: out' =>
      simp only [List.length_cons] at h h' whole
      simp only [mix32]
      rw [mix32_congr volume (by omega : out.length = src.length) (by omega : out'.length = src.length)
        (by omega)]

/-! ## Mixing -/

section

variable (format : SampleFormat) (volume : R) (muted : Bool)

theorem mix_length (out src : Bytes) : (mix out src format volume muted).length = out.length := by
  unfold mix
  dsimp only
  split
  next =>
    rw [List.length_append, List.length_replicate, List.length_drop]
    omega
  next =>
    split
    next =>
      rw [List.length_append, List.length_take, List.length_drop]
      omega
    next =>
      cases format with
      | i16 => exact mix16_length volume out src
      | f32 => exact mix32_length volume out src

/-- Whole samples in front are mixed by themselves. -/
theorem mix_append {out src : Bytes} (h : out.length = src.length) (whole : format.size ∣ src.length)
    (out' src' : Bytes) :
    mix (out ++ out') (src ++ src') format volume muted
      = mix out src format volume muted ++ mix out' src' format volume muted := by
  have hcount : min (out ++ out').length (src ++ src').length
      = src.length + min out'.length src'.length := by
    rw [List.length_append, List.length_append, h, Nat.add_min_add_left]
  have hdrop (n : Nat) : (out ++ out').drop (src.length + n) = out'.drop n := by
    rw [← h, List.drop_append]
    simp
  unfold mix
  dsimp only
  rw [hcount, h, Nat.min_self, hdrop]
  split
  next => rw [← List.replicate_append_replicate, ← h, List.drop_length, List.append_nil, List.append_assoc]
  next =>
    split
    next => simp [List.take_append, ← h]
    next =>
      cases format with
      | i16 => exact mix16_append volume h whole out' src'
      | f32 => exact mix32_append volume h whole out' src'

/-- The result has nothing of what the output held before. -/
theorem mix_congr {out out' src : Bytes} (h : out.length = src.length) (h' : out'.length = src.length)
    (whole : format.size ∣ src.length) :
    mix out src format volume muted = mix out' src format volume muted := by
  unfold mix
  dsimp only
  rw [h, h', Nat.min_self]
  split
  next => simp [← h, h']
  next =>
    split
    next => simp [← h, h']
    next =>
      cases format with
      | i16 => exact mix16_congr volume h h' whole
      | f32 => exact mix32_congr volume h h' whole

/-- How data sounds at a volume: as it is mixed into silence. -/
def voiced (data : Bytes) : Bytes :=
  mix (List.replicate data.length 0) data format volume muted

/-- What is heard of data in so many bytes: the data as it sounds, and silence behind it. -/
def heard (data : Bytes) (n : Nat) : Bytes :=
  (voiced format volume muted data).take n ++ List.replicate (n - data.length) 0

variable {format}

theorem voiced_length (data : Bytes) : (voiced format volume muted data).length = data.length := by
  rw [voiced, mix_length, List.length_replicate]

theorem voiced_nil : voiced format volume muted [] = [] :=
  List.eq_nil_of_length_eq_zero (voiced_length ..)

theorem mix_eq_voiced {out data : Bytes} (h : out.length = data.length)
    (whole : format.size ∣ data.length) :
    mix out data format volume muted = voiced format volume muted data :=
  mix_congr format volume muted h List.length_replicate whole

theorem voiced_append {data : Bytes} (whole : format.size ∣ data.length) (data' : Bytes) :
    voiced format volume muted (data ++ data')
      = voiced format volume muted data ++ voiced format volume muted data' := by
  unfold voiced
  rw [List.length_append, ← List.replicate_append_replicate]
  exact mix_append format volume muted List.length_replicate whole _ _

theorem voiced_split {n : Nat} (whole : format.size ∣ n) {data : Bytes} (hn : n ≤ data.length) :
    voiced format volume muted data
      = voiced format volume muted (data.take n) ++ voiced format volume muted (data.drop n) := by
  have hlength : (data.take n).length = n := List.length_take_of_le hn
  rw [← voiced_append volume muted (hlength.symm ▸ whole), List.take_append_drop]

theorem voiced_take {n : Nat} (whole : format.size ∣ n) (data : Bytes) :
    (voiced format volume muted data).take n = voiced format volume muted (data.take n) := by
  rcases Nat.le_total n data.length with hle | hge
  · rw [voiced_split volume muted whole hle, List.take_left']
    rw [voiced_length, List.length_take_of_le hle]
  · rw [List.take_of_length_le hge, List.take_of_length_le]
    rw [voiced_length]
    exact hge

theorem voiced_drop {n : Nat} (whole : format.size ∣ n) (data : Bytes) :
    (voiced format volume muted data).drop n = voiced format volume muted (data.drop n) := by
  rcases Nat.le_total n data.length with hle | hge
  · rw [voiced_split volume muted whole hle, List.drop_left']
    rw [voiced_length, List.length_take_of_le hle]
  · rw [List.drop_eq_nil_of_le hge, voiced_nil, List.drop_eq_nil_of_le]
    rw [voiced_length]
    exact hge

theorem heard_nil (n : Nat) : heard format volume muted [] n = List.replicate n 0 := by
  simp [heard, voiced_nil]

theorem heard_zero (data : Bytes) : heard format volume muted data 0 = [] := by
  simp [heard]

/-- Hearing some bytes and then more is hearing all of them. -/
theorem heard_add {n : Nat} (whole : format.size ∣ n) (data : Bytes) (n' : Nat) :
    heard format volume muted data (n + n')
      = heard format volume muted data n ++ heard format volume muted (data.drop n) n' := by
  unfold heard
  rw [List.take_add, voiced_drop volume muted whole, List.length_drop]
  rcases Nat.le_total n data.length with hle | hge
  · have hsilence : n + n' - data.length = n' - (data.length - n) := by omega
    rw [Nat.sub_eq_zero_of_le hle, hsilence]
    simp
  · -- the first request has reached the silence
    have hsilence : n + n' - data.length = n - data.length + (n' - (data.length - n)) := by omega
    rw [List.drop_eq_nil_of_le hge, voiced_nil, hsilence, ← List.replicate_append_replicate]
    simp

/-- What is heard in front of other data, where no more is asked for. -/
theorem heard_left {data : Bytes} {n : Nat} (whole : format.size ∣ n) (hn : n ≤ data.length)
    (data' : Bytes) : heard format volume muted (data ++ data') n = voiced format volume muted (data.take n) := by
  unfold heard
  rw [voiced_take volume muted whole, List.take_append_of_le_length hn, List.length_append,
    show n - (data.length + data'.length) = 0 by omega]
  simp

/-! ## Samples that are cut -/

/-- The volume lies between silence and the full one, so that samples are scaled. -/
def Scales : Prop :=
  ¬ (muted = true ∨ volume ≤ 0.0) ∧ ¬ Scalar.abs (volume - 1.0) < 2.220446049250313e-16

/-- Silence and full volume have nothing of what the output held, whatever is cut. -/
theorem mix_eq_voiced_of_not_scales (h : ¬ Scales volume muted) {out data : Bytes}
    (hlength : out.length = data.length) :
    mix out data format volume muted = voiced format volume muted data := by
  unfold voiced mix
  dsimp only
  rw [hlength, List.length_replicate, Nat.min_self]
  split
  next => simp [← hlength]
  next hloud =>
    have hfull : Scalar.abs (volume - 1.0) < 2.220446049250313e-16 :=
      Decidable.not_not.mp fun hscaled => h ⟨hloud, hscaled⟩
    rw [if_pos hfull, if_pos hfull]
    simp [← hlength]

/-- The length of the whole samples in data. -/
def wholeLength (format : SampleFormat) (data : Bytes) : Nat :=
  data.length / format.size * format.size

/-- Where samples are scaled, data that is shorter than a sample leaves the output as it is. -/
theorem mix_short (scales : Scales volume muted) {data : Bytes} (short : data.length < format.size)
    (out : Bytes) : mix out data format volume muted = out := by
  obtain ⟨hloud, hscaled⟩ := scales
  unfold mix
  dsimp only
  rw [if_neg hloud, if_neg hscaled]
  match format, data, short with
  | .i16, [], _ | .i16, [_], _ => cases out with
    | nil => rfl
    | cons _ out => cases out <;> rfl
  | .f32, [], _ | .f32, [_], _ | .f32, [_, _], _ | .f32, [_, _, _], _ => match out with
    | [] | [_] | [_, _] | [_, _, _] | _ :: _ :: _ :: _ :: _ => rfl

theorem wholeLength_le (data : Bytes) : wholeLength format data ≤ data.length :=
  Nat.div_mul_le_self ..

theorem wholeLength_eq_iff (data : Bytes) :
    wholeLength format data = data.length ↔ format.size ∣ data.length :=
  Nat.dvd_iff_div_mul_eq .. |>.symm

/-- Where samples are scaled, the output keeps what it held behind the last whole sample. -/
theorem mix_scaled (scales : Scales volume muted) {out data : Bytes} (h : out.length = data.length) :
    mix out data format volume muted
      = voiced format volume muted (data.take (wholeLength format data))
        ++ out.drop (wholeLength format data) := by
  have hwhole : (data.take (wholeLength format data)).length = wholeLength format data :=
    List.length_take_of_le (wholeLength_le data)
  have hfront : (out.take (wholeLength format data)).length = (data.take (wholeLength format data)).length := by
    rw [List.length_take, List.length_take, h]
  have hdvd : format.size ∣ (data.take (wholeLength format data)).length := by
    rw [hwhole]
    exact Nat.dvd_mul_left ..
  have hshort : (data.drop (wholeLength format data)).length < format.size := by
    rw [List.length_drop, wholeLength, ← Nat.mod_eq_sub_div_mul]
    exact Nat.mod_lt _ (by cases format <;> decide)
  calc mix out data format volume muted
      = mix (out.take (wholeLength format data) ++ out.drop (wholeLength format data))
          (data.take (wholeLength format data) ++ data.drop (wholeLength format data)) format volume muted := by
        rw [List.take_append_drop, List.take_append_drop]
    _ = _ := by
        rw [mix_append format volume muted hfront hdvd, mix_eq_voiced volume muted hfront hdvd,
          mix_short volume muted scales hshort]

end

end Playback
