import Mathlib.Data.Rat.Floor
import Mathlib.Tactic.FieldSimp
import Mathlib.Tactic.Linarith
import Playback.Proofs.Audio.Conversion
import Playback.Proofs.Decode.Timestamps
import Playback.Proofs.Exact

/-!
# Changes of rate do not drift

A rate converter rounds down what every chunk gives. Nothing is lost that way: the position that it hands on to the next
chunk says how much of a sample is still to come. While the ratio is steady, a converter that took `n` samples since it
began has given `⌊ratio * (n - 2)⌋` of them (`due`): the two samples are what its filter looks ahead beyond the 127 that
it begins with.

`KeepsUp` says so of a converter. A chunk brings it from what was due to what is due (`KeepsUp.takeChunk`), also a chunk
that is too short to give anything, and so does every list of chunks (`KeepsUp.takeChunks`): how the stream was cut is
forgotten. `resampling_keeps_up` follows for the frames that a resampler converts.
-/

namespace Playback

open Exact

/-- The floor of a fraction that is not too large. -/
theorem Exact.floorNat_finite {q : Rat} (small : q < 0x10000000000000000) : Scalar.floorNat (finite q) = ⌊q⌋₊ := by
  have hfloor : ⌊q⌋ < 0x10000000000000000 := Int.floor_lt.mpr (by exact_mod_cast small)
  show (max 0 (min 0xffffffffffffffff ⌊q⌋)).toNat = ⌊q⌋.toNat
  omega

/-- What the library documents. It makes a converter for every positive ratio and takes chunks up to the longest one,
and a chunk gives as many samples as the position and the ratio ask for. -/
structure RateFilter.Granted {R : Type} [Scalar R] (filter : RateFilter R) : Prop where
  create : ∀ (ratio : R) (channels : Nat), 0.0 < ratio → 1 ≤ channels → filter.create ratio channels = .ok ()
  setLength : ∀ (c : RateConverter R) (frames : Nat), 1 ≤ frames ∧ frames ≤ RateConverter.chunkFrames →
    filter.setLength c frames = .ok ()
  view : ∀ (samples : List Sample) (channels frames : Nat), samples.length = frames * channels →
    filter.view samples channels frames = .ok ()
  play : ∀ (c : RateConverter R) (frames : Nat) (chunk : List Sample),
    1 ≤ frames ∧ frames ≤ RateConverter.chunkFrames → chunk.length = frames * c.channels →
    ∃ out, filter.play c chunk = .ok out ∧ out.length = c.needed frames * c.channels

theorem RateFilter.silent_granted {R : Type} [Scalar R] : (RateFilter.silent : RateFilter R).Granted where
  create _ _ positive _ := if_pos positive
  setLength _ _ _ := rfl
  view _ _ _ _ := rfl
  play c frames chunk _ whole := by
    refine ⟨_, rfl, ?_⟩
    rw [List.length_replicate, whole]
    rcases Nat.eq_zero_or_pos c.channels with hnone | hsome
    · rw [hnone, Nat.mul_zero, Nat.mul_zero]
    · rw [Nat.mul_div_cancel _ hsome]

namespace RateConverter

/-! ## Chunks -/

/-- At a steady ratio the steps between samples do not grow. -/
theorem advance_steady {growth : Exact} {steps : Nat} (steady : steps ≠ 0 → growth = finite 0)
    (distance position : Rat) :
    advance growth steps (finite distance) (finite position) = finite (position + steps * distance) := by
  induction steps generalizing position with
  | zero => simp [advance]
  | succ steps ih =>
    have hgrowth := steady (Nat.succ_ne_zero steps)
    simp only [advance, hgrowth, finite_add, add_zero]
    rw [← hgrowth, ih fun _ => hgrowth]
    congr 1
    push_cast
    ring

theorem chunkLengths_sum (frames : Nat) : (chunkLengths frames).sum = frames := by
  have hparts := Nat.div_add_mod' frames chunkFrames
  unfold chunkLengths
  rw [List.sum_append, List.sum_replicate_nat]
  split
  next h => rw [h] at hparts; simpa using hparts
  next => simpa using hparts

/-- A chunk has a sample, and no more than the longest one. -/
theorem mem_chunkLengths {frames length : Nat} (h : length ∈ chunkLengths frames) :
    1 ≤ length ∧ length ≤ chunkFrames := by
  rcases List.mem_append.mp h with h | h
  · rw [List.eq_of_mem_replicate h]
    decide
  · split at h
    next => exact absurd h List.not_mem_nil
    next hrest =>
      rw [List.mem_singleton.mp h]
      exact ⟨Nat.pos_of_ne_zero hrest, (Nat.mod_lt _ (by decide)).le⟩

section Library

variable {R : Type} [Scalar R] {filter : RateFilter R} {c c' : RateConverter R}

/-- A chunk that is taken leads to where chunks of its length lead, whatever comes of it. -/
theorem of_takeChunk {frames : Nat} {chunk out : List Sample} (h : c.takeChunk filter frames chunk = .ok (out, c')) :
    c' = c.after frames chunk := by
  unfold takeChunk at h
  simp only [bind, Except.bind, pure, Except.pure] at h
  split at h
  next => exact absurd h nofun
  next =>
    split at h
    next => exact absurd h nofun
    next =>
      split at h
      next => exact absurd h nofun
      next => exact (Prod.mk.inj (Except.ok.inj h)).2.symm

/-- Taking samples leaves alone what the ratio was at the start, and the channels. -/
theorem takeChunks_made (filter : RateFilter R) (c : RateConverter R) (lengths : List Nat) (samples : List Sample) :
    (c.takeChunks filter lengths samples).2.nominal = c.nominal ∧
      (c.takeChunks filter lengths samples).2.channels = c.channels := by
  induction lengths generalizing c samples with
  | nil => exact ⟨rfl, rfl⟩
  | cons frames lengths ih =>
    unfold takeChunks
    dsimp only
    split
    next => exact ⟨rfl, rfl⟩
    next first c' hfirst =>
      obtain ⟨hnominal, hchannels⟩ := ih c' (samples.drop (frames * c.channels))
      rw [hnominal, hchannels, of_takeChunk hfirst]
      exact ⟨rfl, rfl⟩

/-- The library takes a chunk of a length that it documents and gives as many samples as are needed. -/
theorem takeChunk_granted (granted : filter.Granted) (c : RateConverter R) {frames : Nat} {chunk : List Sample}
    (length : 1 ≤ frames ∧ frames ≤ chunkFrames) (whole : chunk.length = frames * c.channels) :
    ∃ out, c.takeChunk filter frames chunk = .ok (out, c.after frames chunk) ∧
      out.length = c.needed frames * c.channels := by
  obtain ⟨out, hplay, hout⟩ := granted.play c frames chunk length whole
  refine ⟨out, ?_, hout⟩
  unfold takeChunk
  rw [granted.setLength c frames length, granted.view chunk c.channels frames whole, hplay]
  rfl

end Library

/-! ## What is due -/

/-- The samples to be given for the samples taken, at a steady ratio. -/
def due (ratio : Rat) (taken : Nat) : Nat :=
  ⌊ratio * (taken - 2)⌋₊

variable {ratio : Rat} {taken : Nat}

theorem lt_due_add_one (ratio : Rat) (taken : Nat) : ratio * (taken - 2) < due ratio taken + 1 :=
  Nat.lt_floor_add_one _

theorem due_le (hratio : 0 ≤ ratio) (taken : Nat) : (due ratio taken : Rat) ≤ ratio * taken := by
  have hsome : 0 ≤ ratio * taken := mul_nonneg hratio (Nat.cast_nonneg taken)
  calc (due ratio taken : Rat)
    _ ≤ ⌊ratio * taken⌋₊ := by
      exact_mod_cast Nat.floor_mono (mul_le_mul_of_nonneg_left (by linarith) hratio)
    _ ≤ ratio * taken := Nat.floor_le hsome

theorem due_zero (hratio : 0 ≤ ratio) : due ratio 0 = 0 :=
  Nat.floor_of_nonpos (by push_cast; linarith)

/-- What was given for the samples before is what is missing from the floor of a chunk. -/
theorem due_add (hratio : 0 ≤ ratio) (taken frames : Nat) :
    due ratio taken + ⌊ratio * (taken + frames - 2) - due ratio taken⌋₊ = due ratio (taken + frames) := by
  have hmore : due ratio taken ≤ due ratio (taken + frames) := by
    refine Nat.floor_mono (mul_le_mul_of_nonneg_left ?_ hratio)
    push_cast
    linarith [Nat.cast_nonneg (α := Rat) frames]
  rw [Nat.floor_sub_natCast, ← Nat.cast_add]
  exact Nat.add_sub_cancel' hmore

/-! ## Converters -/

/-- Whether a converter at a steady ratio has given what is due for the samples that it took since it began. -/
structure KeepsUp (c : RateConverter Exact) (ratio : Rat) (taken : Nat) : Prop where
  steady : c.ratio = finite ratio
  still : c.target = finite ratio
  position : c.position = finite (due ratio taken / ratio - taken - 127)

variable {c : RateConverter Exact}

theorem new_keepsUp (hratio : 0 ≤ ratio) (channels : Nat) : (new (finite ratio) channels).KeepsUp ratio 0 := by
  refine ⟨rfl, rfl, ?_⟩
  rw [due_zero hratio, new]
  norm_num

/-- At a steady ratio the position moves on by so many equal steps and back by the chunk. -/
theorem after_position {position : Rat} (hratio : ratio ≠ 0) (steady : c.ratio = finite ratio)
    (still : c.target = finite ratio) (hposition : c.position = finite position) (frames : Nat) (chunk : List Sample) :
    (c.after frames chunk).position = finite (position + c.needed frames / ratio - frames) := by
  have hone : (1.0 : Exact) = finite 1 := by norm_num
  -- a chunk that gives nothing has no samples to share the growth among, and its growth is undefined
  have hgrowth (h : c.needed frames ≠ 0) :
      ((1.0 : Exact) / c.target - 1.0 / c.ratio) / Scalar.ofInt (c.needed frames) = finite 0 := by
    have hcount : ((c.needed frames : Int) : Rat) ≠ 0 := by exact_mod_cast h
    rw [still, steady, hone, finite_div _ hratio, finite_sub, ofInt_eq, finite_div _ hcount, sub_self, zero_div]
  have hlast := advance_steady hgrowth (1 / ratio) position
  rw [← hposition, ← finite_div _ hratio, ← hone, ← steady] at hlast
  unfold after
  dsimp only
  rw [hlast, ofInt_eq, finite_sub, Int.cast_natCast, mul_one_div]

/-- A chunk asks for what is due beyond what was due before it, unless that is more than can be counted. -/
theorem KeepsUp.after (h : c.KeepsUp ratio taken) (hratio : 0 < ratio) {frames : Nat}
    (countable : ratio * frames + 1 < 0x10000000000000000) (chunk : List Sample) :
    due ratio taken + c.needed frames = due ratio (taken + frames) ∧
      (c.after frames chunk).KeepsUp ratio (taken + frames) := by
  have hnz := hratio.ne'
  have hneeded : due ratio taken + c.needed frames = due ratio (taken + frames) := by
    -- the converter counts from where the chunk begins, which comes to the same
    have hmissing : (Scalar.ofInt frames - 129.0 - c.position) * (0.5 * c.ratio + 0.5 * c.target)
        = finite (ratio * (taken + frames - 2) - due ratio taken) := by
      rw [h.steady, h.still, h.position]
      norm_num
      field_simp
      ring
    have hsmall : ratio * (taken + frames - 2) - due ratio taken < 0x10000000000000000 := by
      linarith [lt_due_add_one ratio taken]
    rw [← due_add hratio.le, needed, hmissing, floorNat_finite hsmall]
  refine ⟨hneeded, h.still, h.still, ?_⟩
  rw [after_position hnz h.steady h.still h.position, ← hneeded]
  congr 1
  push_cast
  ring

/-- What it means that a converter took so many samples of each channel more and kept up. -/
def TakesOn (c : RateConverter Exact) (ratio : Rat) (taken frames : Nat)
    (result : Except PlayerError (List Sample) × RateConverter Exact) : Prop :=
  ∃ out count c', result = (.ok out, c') ∧ out.length = count * c.channels ∧
    due ratio taken + count = due ratio (taken + frames) ∧ c'.channels = c.channels ∧
    c'.KeepsUp ratio (taken + frames)

/-- Every list of chunks gives what is due beyond what was due before it. -/
theorem KeepsUp.takeChunks {filter : RateFilter Exact} (granted : filter.Granted) (h : c.KeepsUp ratio taken)
    (hratio : 0 < ratio) {lengths : List Nat} (short : ∀ frames ∈ lengths, 1 ≤ frames ∧ frames ≤ chunkFrames)
    (countable : ∀ frames ∈ lengths, ratio * frames + 1 < 0x10000000000000000) (samples : List Sample)
    (enough : lengths.sum * c.channels ≤ samples.length) :
    c.TakesOn ratio taken lengths.sum (c.takeChunks filter lengths samples) := by
  induction lengths generalizing c taken samples with
  | nil => exact ⟨[], 0, c, rfl, (Nat.zero_mul _).symm, rfl, rfl, h⟩
  | cons frames lengths ih =>
    rw [List.sum_cons, Nat.add_mul] at enough
    have hwhole : (samples.take (frames * c.channels)).length = frames * c.channels := by
      rw [List.length_take]
      omega
    obtain ⟨first, hfirst, hlength⟩ := takeChunk_granted granted c (short frames (List.mem_cons_self ..)) hwhole
    obtain ⟨hneeded, hnext⟩ := h.after hratio (countable frames (List.mem_cons_self ..))
      (samples.take (frames * c.channels))
    obtain ⟨others, count, c', hothers, hlength', hcount, hchannels, hlast⟩ :=
      ih hnext (fun other hother => short other (List.mem_cons_of_mem _ hother))
        (fun other hother => countable other (List.mem_cons_of_mem _ hother)) (samples.drop (frames * c.channels))
        (by rw [List.length_drop]; exact Nat.le_sub_of_add_le' enough)
    refine ⟨first ++ others, c.needed frames + count, c', ?_, ?_, ?_, hchannels, ?_⟩
    · rw [RateConverter.takeChunks]
      dsimp only
      rw [hfirst]
      dsimp only
      rw [hothers]
      rfl
    · rw [List.length_append, hlength, hlength', Nat.add_mul]
      rfl
    · rw [List.sum_cons, ← Nat.add_assoc, hneeded, hcount, Nat.add_assoc]
    · rwa [List.sum_cons, ← Nat.add_assoc]

/-- However samples are cut into chunks, they give what is due beyond what was due before. A ratio below `2 ^ 32`
leaves every chunk countable. -/
theorem KeepsUp.takeSamples {filter : RateFilter Exact} (granted : filter.Granted) (h : c.KeepsUp ratio taken)
    (hratio : 0 < ratio) (small : ratio < 0x100000000) (hchannels : 0 < c.channels) {samples : List Sample}
    {frames : Nat} (whole : samples.length = frames * c.channels) :
    c.TakesOn ratio taken frames (c.takeSamples filter samples) := by
  have hcountable : ∀ length ∈ chunkLengths frames, ratio * length + 1 < 0x10000000000000000 := by
    intro length hlength
    have hlength : (length : Rat) ≤ 1024 := by exact_mod_cast (mem_chunkLengths hlength).2
    calc ratio * length + 1
      _ ≤ 0x100000000 * 1024 + 1 := by gcongr
      _ < 0x10000000000000000 := by norm_num
  have hsum := chunkLengths_sum frames
  have hchunks := h.takeChunks granted hratio (fun _ => mem_chunkLengths) hcountable samples (by rw [hsum, whole])
  rw [hsum] at hchunks
  rwa [RateConverter.takeSamples, whole, Nat.mul_div_cancel _ hchannels]

end RateConverter

/-! ## Resamplers -/

/-- What happens to a resampler. -/
inductive ResamplerAct where
  | convert (frame : RawAudioFrame)
  | reset

namespace Resampler

section Begins

variable {R : Type} [Scalar R]

def act (r : Resampler R) : ResamplerAct → Resampler R
  | .convert frame => (r.convert frame).2
  | .reset => r.reset

def acts (r : Resampler R) (as : List ResamplerAct) : Resampler R :=
  as.foldl act r

/-- What frames are converted to, one after the other. -/
def converted (r : Resampler R) : List RawAudioFrame → List (Except PlayerError (Bytes × Nat))
  | [] => []
  | frame :: frames => (r.convert frame).1 :: (r.convert frame).2.converted frames

/-- Whether frames of a rate begin a stream: a converter for them is yet to be made, or it has taken nothing since it
began. -/
def Begins (r : Resampler R) (rate : Nat) : Prop :=
  ∀ converter, r.converter = some (rate, converter) →
    converter = .new (Scalar.ofInt r.target.sampleRate / Scalar.ofInt rate) r.target.channels

/-- Whether the converter was made for the target: its ratio leads from its source rate there, and it has the channels
of the target. -/
def Leads (r : Resampler R) : Prop :=
  ∀ rate converter, r.converter = some (rate, converter) →
    converter.nominal = Scalar.ofInt r.target.sampleRate / Scalar.ofInt rate ∧
      converter.channels = r.target.channels

variable {r : Resampler R}

/-- A converter is the present one for the rate or a new one. -/
theorem of_converterFor {rate : Nat} {c : RateConverter R} (h : r.converterFor rate = .ok c) :
    r.converter = some (rate, c) ∨
      c = .new (Scalar.ofInt r.target.sampleRate / Scalar.ofInt rate) r.target.channels := by
  have hfresh (h : converterFor.fresh r rate = .ok c) :
      c = .new (Scalar.ofInt r.target.sampleRate / Scalar.ofInt rate) r.target.channels := by
    unfold converterFor.fresh RateConverter.create Except.map at h
    split at h
    next => exact absurd h nofun
    next => exact (Except.ok.inj h).symm
  unfold converterFor at h
  split at h
  next present c' hpresent =>
    split at h
    next hrate => exact .inl (hrate ▸ Except.ok.inj h ▸ hpresent)
    next => exact .inr (hfresh h)
  next => exact .inr (hfresh h)

/-- Where a library makes a converter, frames that begin a stream get one that has taken nothing. -/
theorem Begins.converterFor {rate : Nat} (h : r.Begins rate)
    (made : r.filter.create (Scalar.ofInt r.target.sampleRate / Scalar.ofInt rate) r.target.channels = .ok ()) :
    r.converterFor rate
      = .ok (.new (Scalar.ofInt r.target.sampleRate / Scalar.ofInt rate) r.target.channels) := by
  have hfresh : converterFor.fresh r rate
      = .ok (.new (Scalar.ofInt r.target.sampleRate / Scalar.ofInt rate) r.target.channels) := by
    rw [converterFor.fresh, RateConverter.create, made]
    rfl
  unfold Resampler.converterFor
  split
  next present c hpresent =>
    split
    next hrate =>
      subst hrate
      rw [h c hpresent]
    next => exact hfresh
  next => exact hfresh

/-- Conversion leaves a resampler as it is, or puts in a converter that took samples. -/
theorem convert_leaves (r : Resampler R) (frame : RawAudioFrame) :
    (r.convert frame).2 = r ∨ ∃ c samples, r.converterFor frame.sampleRate = .ok c ∧
      (r.convert frame).2 = { r with converter := some (frame.sampleRate, (c.takeSamples r.filter samples).2) } := by
  unfold convert
  split
  next => exact .inl rfl
  next =>
    split
    next => exact .inl rfl
    next =>
      dsimp only
      split
      next => exact .inl rfl
      next =>
        split
        next => exact .inl rfl
        next c hc => exact .inr ⟨c, _, hc, rfl⟩

/-- A reset leaves the converter for the rate that there was one for, at its start. -/
theorem reset_converter {rate : Nat} {c : RateConverter R} (h : r.reset.converter = some (rate, c)) :
    ∃ c', r.converter = some (rate, c') ∧ c = c'.reset := by
  obtain ⟨⟨rate', c'⟩, hpresent, hpair⟩ := Option.map_eq_some_iff.mp h
  obtain ⟨rfl, rfl⟩ := Prod.mk.inj hpair
  exact ⟨c', hpresent, rfl⟩

theorem act_leads (h : r.Leads) (a : ResamplerAct) : (r.act a).Leads := by
  cases a with
  | convert frame =>
    show (r.convert frame).2.Leads
    rcases r.convert_leaves frame with hsame | ⟨c, samples, hc, hnext⟩
    · rwa [hsame]
    · rw [hnext]
      rintro rate converter ⟨⟩
      obtain ⟨hnominal, hchannels⟩ :=
        c.takeChunks_made r.filter (RateConverter.chunkLengths (samples.length / c.channels)) samples
      rw [RateConverter.takeSamples, hnominal, hchannels]
      rcases of_converterFor hc with hpresent | rfl
      · exact h _ _ hpresent
      · exact ⟨rfl, rfl⟩
  | reset =>
    intro rate converter hreset
    obtain ⟨c, hpresent, rfl⟩ := reset_converter hreset
    exact h rate c hpresent

theorem acts_leads (h : r.Leads) (as : List ResamplerAct) : (r.acts as).Leads :=
  List.foldlRecOn as act h fun _ hr a _ => act_leads hr a

/-- After a reset frames of any rate begin a stream, whatever happened before. -/
theorem reset_begins (target : AudioParams) (filter : RateFilter R) (as : List ResamplerAct) (rate : Nat) :
    ((new target filter).acts as).reset.Begins rate := by
  have hleads := acts_leads (r := new target filter) nofun as
  intro converter hreset
  obtain ⟨c, hpresent, rfl⟩ := reset_converter hreset
  obtain ⟨hnominal, hchannels⟩ := hleads rate c hpresent
  exact congrArg₂ RateConverter.new hnominal hchannels

/-- Neither the target nor the library changes. -/
theorem acts_made (r : Resampler R) (as : List ResamplerAct) :
    (r.acts as).target = r.target ∧ (r.acts as).filter = r.filter := by
  refine List.foldlRecOn (motive := fun r' => r'.target = r.target ∧ r'.filter = r.filter) as act ⟨rfl, rfl⟩ ?_
  intro r' h a _
  cases a with
  | convert frame =>
    show (r'.convert frame).2.target = r.target ∧ (r'.convert frame).2.filter = r.filter
    rcases r'.convert_leaves frame with hsame | ⟨c, samples, -, hnext⟩
    · rwa [hsame]
    · rwa [hnext]
  | reset => exact h

/-- A frame of another rate is mixed and given to the converter for its rate. -/
theorem convert_resampled {frame : RawAudioFrame} {c c' : RateConverter R} {out : List Sample}
    (valid : r.target.isValid = true) (positive : frame.sampleRate ≠ 0) (other : frame.sampleRate ≠ r.target.sampleRate)
    (hconverter : r.converterFor frame.sampleRate = .ok c)
    (took : c.takeSamples r.filter (remix (Sample.decode frame.format frame.data) frame.channels r.target.channels)
      = (.ok out, c')) :
    r.convert frame = (.ok (Sample.encode r.target.format out, out.length / r.target.channels),
      { r with converter := some (frame.sampleRate, c') }) := by
  have htarget := (AudioParams.pos_of_isValid valid).2
  have hpass : ¬ r.isPassthrough frame = true := by
    simp [isPassthrough, other]
  have hmeaning : ¬(frame.sampleRate = 0 ∨ r.target.channels = 0) := by omega
  simp only [convert, if_neg hpass, if_neg hmeaning, if_neg other, hconverter, took]
  rfl

end Begins

/-! ## Streams of one rate -/

/-- Whether the converter for a rate has given what is due for the samples of the stream so far. -/
def KeepsUp (r : Resampler Exact) (rate taken : Nat) : Prop :=
  ∃ c, r.converterFor rate = .ok c ∧ c.channels = r.target.channels ∧ c.KeepsUp (r.target.sampleRate / rate) taken

variable {r : Resampler Exact} {rate taken : Nat}

theorem Begins.keepsUp (h : r.Begins rate) (granted : r.filter.Granted) (valid : r.target.isValid = true)
    (positive : 1 ≤ rate) : r.KeepsUp rate 0 := by
  obtain ⟨htarget, hchannels⟩ := AudioParams.pos_of_isValid valid
  have hrate : ((rate : Int) : Rat) ≠ 0 := by
    norm_cast
    omega
  have hratio : (Scalar.ofInt r.target.sampleRate / Scalar.ofInt rate : Exact)
      = finite (r.target.sampleRate / rate) := by
    rw [ofInt_eq, ofInt_eq, finite_div _ hrate, Int.cast_natCast, Int.cast_natCast]
  have hpositive : (0.0 : Exact) < finite (r.target.sampleRate / rate) := by
    have hzero : (0.0 : Exact) = finite 0 := by norm_num
    rw [hzero, finite_lt]
    exact div_pos (by exact_mod_cast htarget) (by exact_mod_cast positive)
  have hmade := granted.create _ _ (hratio ▸ hpositive) hchannels
  refine ⟨_, h.converterFor hmade, rfl, ?_⟩
  rw [hratio]
  exact RateConverter.new_keepsUp (by positivity) _

/-- A whole frame brings the stream from what was due to what is due. -/
theorem KeepsUp.convert {frame : RawAudioFrame} (h : r.KeepsUp frame.sampleRate taken) (granted : r.filter.Granted)
    (whole : frame.IsWhole) (valid : r.target.isValid = true) (word : r.target.sampleRate < 0x100000000)
    (positive : 1 ≤ frame.sampleRate) (other : frame.sampleRate ≠ r.target.sampleRate) :
    ∃ data count, (r.convert frame).1 = .ok (data, count) ∧ data.length = count * r.target.frameSize ∧
      RateConverter.due (r.target.sampleRate / frame.sampleRate) taken + count
        = RateConverter.due (r.target.sampleRate / frame.sampleRate) (taken + frame.sampleCount) ∧
      ((r.convert frame).2.target = r.target ∧ (r.convert frame).2.filter = r.filter) ∧
      (r.convert frame).2.KeepsUp frame.sampleRate (taken + frame.sampleCount) := by
  obtain ⟨c, hc, hchannels, hkeeps⟩ := h
  have hpos := (AudioParams.pos_of_isValid valid).2
  have hsource : (1 : Rat) ≤ frame.sampleRate := by exact_mod_cast positive
  have hratio : (0 : Rat) < r.target.sampleRate / frame.sampleRate :=
    div_pos (by exact_mod_cast (AudioParams.pos_of_isValid valid).1) (by linarith)
  have hsmall : (r.target.sampleRate / frame.sampleRate : Rat) < 0x100000000 :=
    (div_le_self (Nat.cast_nonneg _) hsource).trans_lt (by exact_mod_cast word)
  have hmixed := (remix_length whole.1 whole.decode_length r.target.channels).trans
    (congrArg (frame.sampleCount * ·) hchannels.symm)
  obtain ⟨out, count, c', htook, hout, hcount, hchannels', hnext⟩ :=
    hkeeps.takeSamples granted hratio hsmall (hchannels ▸ hpos) hmixed
  rw [hchannels] at hout hchannels'
  rw [convert_resampled valid (by omega) other hc htook, hout, Nat.mul_div_cancel _ hpos]
  refine ⟨_, count, rfl, ?_, hcount, ⟨rfl, rfl⟩, c', if_pos rfl, hchannels', hnext⟩
  rw [Sample.encode_length, hout, Nat.mul_assoc]
  rfl

/-- Whole frames of one rate bring the stream from what was due to what is due. -/
theorem KeepsUp.converted (h : r.KeepsUp rate taken) (granted : r.filter.Granted) (valid : r.target.isValid = true)
    (word : r.target.sampleRate < 0x100000000) (positive : 1 ≤ rate) (other : rate ≠ r.target.sampleRate)
    {frames : List RawAudioFrame} (whole : ∀ frame ∈ frames, frame.IsWhole ∧ frame.sampleRate = rate) :
    ∃ results : List (Bytes × Nat), r.converted frames = results.map .ok ∧
      (∀ result ∈ results, result.1.length = result.2 * r.target.frameSize) ∧
      RateConverter.due (r.target.sampleRate / rate) taken + (results.map (·.2)).sum
        = RateConverter.due (r.target.sampleRate / rate) (taken + samplesIn frames) := by
  induction frames generalizing r taken with
  | nil => exact ⟨[], rfl, nofun, rfl⟩
  | cons frame frames ih =>
    obtain ⟨hwhole, rfl⟩ := whole frame (List.mem_cons_self ..)
    obtain ⟨data, count, hresult, hlength, hcount, ⟨htarget, hfilter⟩, hnext⟩ :=
      h.convert granted hwhole valid word positive other
    -- the target stays, so that what is known of it is known of the resampler after the frame
    rw [← htarget] at valid word other
    rw [← hfilter] at granted
    obtain ⟨results, hresults, hlengths, hothers⟩ :=
      ih hnext granted valid word other fun f hf => whole f (List.mem_cons_of_mem _ hf)
    rw [htarget] at hlengths hothers
    refine ⟨(data, count) :: results, ?_, List.forall_mem_cons.mpr ⟨hlength, hlengths⟩, ?_⟩
    · rw [Resampler.converted, hresult, hresults]
      rfl
    · rw [List.map_cons, List.sum_cons, samplesIn_cons, ← Nat.add_assoc, hcount, hothers, Nat.add_assoc]

end Resampler

/-- **A change of rate does not drift.** Let the library do what it documents. Let a resampler for a valid target, whose
rate is below `2 ^ 32`, begin with frames of another rate: it is new, was reset, or had frames of a third rate before.
Let these frames be whole. Each of them is converted, to data of just as many samples as are reported. All of them
together, in exact arithmetic, give the floor of what the ratio of the rates makes of the samples taken less the two
that the filter keeps back. So the number hangs on the samples alone and not on how they are cut into frames and chunks,
it is never more than the ratio asks for, and it stays behind by less than two samples taken and one sample given. -/
theorem resampling_keeps_up {r : Resampler Exact} {rate : Nat} {frames : List RawAudioFrame}
    (granted : r.filter.Granted) (valid : r.target.isValid = true) (word : r.target.sampleRate < 0x100000000)
    (positive : 1 ≤ rate) (other : rate ≠ r.target.sampleRate) (begins : r.Begins rate)
    (whole : ∀ frame ∈ frames, frame.IsWhole ∧ frame.sampleRate = rate) :
    ∃ results : List (Bytes × Nat),
      r.converted frames = results.map .ok ∧
      (∀ result ∈ results, result.1.length = result.2 * r.target.frameSize) ∧
      let ratio : Rat := r.target.sampleRate / rate
      let taken := samplesIn frames
      let given := (results.map (·.2)).sum
      given = ⌊ratio * (taken - 2)⌋₊ ∧ ratio * (taken - 2) - 1 < given ∧ given ≤ ratio * taken := by
  obtain ⟨results, hresults, hlengths, hdue⟩ :=
    (begins.keepsUp granted valid positive).converted granted valid word positive other whole
  have hratio : (0 : Rat) ≤ r.target.sampleRate / rate := by positivity
  rw [RateConverter.due_zero hratio, Nat.zero_add, Nat.zero_add] at hdue
  refine ⟨results, hresults, hlengths, hdue, ?_, ?_⟩
  · have hbehind := RateConverter.lt_due_add_one (r.target.sampleRate / rate) (samplesIn frames)
    rw [← hdue] at hbehind
    linarith
  · rw [hdue]
    exact RateConverter.due_le hratio _

/-- Ten silent samples give eight, cut into frames or not: a resampler that was in use and was reset takes one, none,
two and seven of them, a new one takes all of them at once. -/
theorem ten_samples_give_eight :
    let silent (count : Nat) : RawAudioFrame := ⟨none, 44100, 1, .i16, count, List.replicate (2 * count) 0⟩
    let fresh : Resampler Exact := .new ⟨48000, 2, .f32⟩ .silent
    let used : Resampler Exact := (fresh.acts [.convert (silent 5)]).reset
    (∃ results : List (Bytes × Nat), used.converted [silent 1, silent 0, silent 2, silent 7] = results.map .ok ∧
      (results.map (·.2)).sum = 8) ∧
    ∃ results : List (Bytes × Nat), fresh.converted [silent 10] = results.map .ok ∧ (results.map (·.2)).sum = 8 := by
  intro silent fresh used
  have hfloor : ⌊((48000 : Nat) / (44100 : Nat) : Rat) * ((10 : Nat) - 2)⌋₊ = 8 := by
    rw [Nat.floor_eq_iff (by norm_num)]
    norm_num
  have hparts : ∀ frame ∈ [silent 1, silent 0, silent 2, silent 7], frame.IsWhole ∧ frame.sampleRate = 44100 := by
    decide
  have hten : ∀ frame ∈ [silent 10], frame.IsWhole ∧ frame.sampleRate = 44100 := by decide
  obtain ⟨htarget, hfilter⟩ : used.target = ⟨48000, 2, .f32⟩ ∧ used.filter = .silent :=
    fresh.acts_made [.convert (silent 5)]
  have hgranted : used.filter.Granted := hfilter ▸ RateFilter.silent_granted
  obtain ⟨cut, hcut, -, hgiven, -⟩ :=
    resampling_keeps_up (r := used) hgranted (by rw [htarget]; decide) (by rw [htarget]; decide) (by decide)
      (by rw [htarget]; decide) (Resampler.reset_begins _ _ _ _) hparts
  rw [htarget] at hgiven
  obtain ⟨whole, hwhole, -, hgiven', -⟩ :=
    resampling_keeps_up (r := fresh) RateFilter.silent_granted rfl (by decide) (by decide) (by decide) nofun hten
  exact ⟨⟨cut, hcut, hgiven.trans hfloor⟩, whole, hwhole, hgiven'.trans hfloor⟩

end Playback
