import Playback.Decode.Finish
import Playback.Exact
import Playback.Proofs.Media.Rescaling

/-!
# Timestamps of audio that go on

An `AudioFinisher` keeps the timestamp that it expects of the next frame. At first that is the start of the stream, in
ticks of its time base; once a frame was counted it is a number of samples, and rescaling it to samples again changes
nothing (`Ratio.rescale_self`). So nothing is rounded but the timestamp that the count began with.

`Expects` says which sample the next frame begins with. Each frame without a timestamp moves it on by its samples
(`Expects.frame`), whether it can be converted or not, and a frame with a timestamp sets it anew (`expects_of_anchor`).
-/

namespace Playback

variable {R : Type}

/-! ## Frames of a generation -/

namespace RawAudioFrame

/-- Whether a frame has samples and says when they begin. -/
def isAnchor (raw : RawAudioFrame) : Bool :=
  raw.pts.isSome && raw.sampleCount != 0

end RawAudioFrame

/-- The samples per channel of frames. -/
def samplesIn (frames : List RawAudioFrame) : Nat :=
  (frames.map (·.sampleCount)).sum

@[simp] theorem samplesIn_nil : samplesIn [] = 0 := rfl

@[simp] theorem samplesIn_cons (raw : RawAudioFrame) (frames : List RawAudioFrame) :
    samplesIn (raw :: frames) = raw.sampleCount + samplesIn frames := rfl

/-- What happens to the finisher of an audio decoder in a generation. -/
inductive FinisherAct where
  | frame (raw : RawAudioFrame) (serial : Serial)
  /-- Frames are to be brought to another format from now on. -/
  | retarget (target : AudioParams)

def FinisherAct.frame? : FinisherAct → Option RawAudioFrame
  | frame raw _ => some raw
  | retarget _ => none

def framesOf (as : List FinisherAct) : List RawAudioFrame :=
  as.filterMap FinisherAct.frame?

namespace AudioFinisher

section Bookkeeping

/-- How a stream's finisher begins, with the timestamp that all its generations start at, if it has one. -/
def configured [Scalar R] (timeBase : Ratio) (target : AudioParams) (filter : RateFilter R) :
    Option Int → AudioFinisher R
  | none => .new timeBase target filter
  | some pts => (AudioFinisher.new timeBase target filter).withStart pts

variable [Scalar R]

/-- The first generation begins with the finisher as it was configured. -/
theorem configured_restart (timeBase : Ratio) (target : AudioParams) (filter : RateFilter R) (start : Option Int) :
    (configured timeBase target filter start).restart = configured timeBase target filter start := by
  cases start with
  | none => rfl
  | some pts => rfl

def act (f : AudioFinisher R) : FinisherAct → AudioFinisher R
  | .frame raw serial => (f.finish raw serial).2
  | .retarget target => f.setTarget target

def acts (f : AudioFinisher R) (as : List FinisherAct) : AudioFinisher R :=
  as.foldl act f

/-- A generation from its beginning. -/
def generation (f : AudioFinisher R) (as : List FinisherAct) : AudioFinisher R :=
  f.restart.acts as

/-! ## What is expected -/

/-- The finisher after it counted a frame with samples. -/
def counted (f : AudioFinisher R) (raw : RawAudioFrame) : AudioFinisher R :=
  match f.timestamp raw with
  | some pts => { f with
      nextPts := some (wrap64 (pts + raw.sampleCount))
      nextTimeBase := sampleBase raw.sampleRate }
  | none => f

variable {f : AudioFinisher R} {raw : RawAudioFrame} {rate : Nat}

/-- A frame with samples is counted, and it comes out if it can be converted. -/
theorem finish_sounding (f : AudioFinisher R) (hrate : raw.sampleRate ≠ 0) (hcount : raw.sampleCount ≠ 0)
    (serial : Serial) :
    (f.finish raw serial).2 = { f.counted raw with resampler := (f.resampler.convert raw).2 } ∧
      (f.finish raw serial).1.map (·.pts) = (f.resampler.convert raw).1.toOption.map fun _ =>
        ((f.timestamp raw).map fun pts => Scalar.ofInt pts * (sampleBase raw.sampleRate).toScalar).getD Scalar.nan := by
  unfold finish counted
  rw [if_neg (not_or.mpr ⟨hrate, hcount⟩)]
  dsimp only
  cases f.timestamp raw with
  | none =>
    dsimp only
    cases (f.resampler.convert raw).1 with
    | error e => exact ⟨rfl, rfl⟩
    | ok converted => exact ⟨rfl, rfl⟩
  | some pts =>
    dsimp only
    cases (f.resampler.convert raw).1 with
    | error e => exact ⟨rfl, rfl⟩
    | ok converted => exact ⟨rfl, rfl⟩

/-- The next frame begins with this sample, counted at a rate, unless it says otherwise. -/
def Expects (f : AudioFinisher R) (rate : Nat) (index : Int) : Prop :=
  ∃ next, f.nextPts = some next ∧ f.nextTimeBase.rescale next (sampleBase rate) = wrap64 index

omit [Scalar R] in
theorem sampleBase_eq (small : rate < 0x80000000) : sampleBase rate = ⟨1, rate⟩ := by
  have hrate : Int.bmod rate 0x100000000 = rate := Int.bmod_eq_of_le (by omega) (by omega)
  rw [sampleBase, hrate]

omit [Scalar R] in
theorem Expects.timestamp {index : Int} (h : f.Expects raw.sampleRate index) (unmarked : raw.pts = none) :
    f.timestamp raw = some (wrap64 index) := by
  obtain ⟨next, hnext, hindex⟩ := h
  simp only [AudioFinisher.timestamp, unmarked, hnext, Option.map_some, hindex]

omit [Scalar R] in
/-- A frame that was counted is followed by the sample after its last one. -/
theorem counted_expects {index : Int} (positive : 1 ≤ raw.sampleRate) (small : raw.sampleRate < 0x80000000)
    (stamped : f.timestamp raw = some (wrap64 index)) :
    (f.counted raw).Expects raw.sampleRate (index + raw.sampleCount) := by
  unfold counted
  rw [stamped]
  refine ⟨_, rfl, ?_⟩
  have hbase := sampleBase_eq small
  rw [Ratio.rescale_self (by rw [hbase]; exact one_ne_zero) (by rw [hbase]; dsimp only; omega), Ratio.wrap64_wrap64,
    wrap64, wrap64, wrap64, Int.bmod_add_bmod]

/-- A frame without a timestamp moves the count on by its samples. -/
theorem Expects.frame {index : Int} (h : f.Expects raw.sampleRate index) (positive : 1 ≤ raw.sampleRate)
    (small : raw.sampleRate < 0x80000000) (unmarked : raw.isAnchor = false) (serial : Serial) :
    (f.finish raw serial).2.Expects raw.sampleRate (index + raw.sampleCount) := by
  by_cases hcount : raw.sampleCount = 0
  · have hfinish : f.finish raw serial = (none, f) := if_pos (.inr hcount)
    rw [hfinish, hcount]
    simpa using h
  · have hpts : raw.pts = none := by simpa [RawAudioFrame.isAnchor, hcount] using unmarked
    rw [(f.finish_sounding (by omega) hcount serial).1]
    exact counted_expects positive small (h.timestamp hpts)

/-- A frame with a timestamp sets the count anew. -/
theorem expects_of_anchor (f : AudioFinisher R) (positive : 1 ≤ raw.sampleRate) (small : raw.sampleRate < 0x80000000)
    {pts : Int} (marked : raw.pts = some pts) (hcount : raw.sampleCount ≠ 0) (serial : Serial) :
    (f.finish raw serial).2.Expects raw.sampleRate
      (f.timeBase.rescale pts (sampleBase raw.sampleRate) + raw.sampleCount) := by
  rw [(f.finish_sounding (by omega) hcount serial).1]
  refine counted_expects positive small ?_
  rw [Ratio.wrap64_rescale]
  simp only [AudioFinisher.timestamp, marked]

theorem Expects.acts {index : Int} (h : f.Expects rate index) (positive : 1 ≤ rate) (small : rate < 0x80000000)
    {as : List FinisherAct} (same : ∀ raw ∈ framesOf as, raw.sampleRate = rate)
    (unmarked : ∀ raw ∈ framesOf as, raw.isAnchor = false) :
    (f.acts as).Expects rate (index + samplesIn (framesOf as)) := by
  -- the index moves on with every frame, so the rest of the run begins at another one
  induction as generalizing f index with
  | nil => simpa [acts, framesOf] using h
  | cons a as ih =>
    cases a with
    | retarget target => exact ih (f := f.setTarget target) h same unmarked
    | frame raw serial =>
      have hrate := same raw (List.mem_cons_self ..)
      subst hrate
      have hnext := h.frame positive small (unmarked raw (List.mem_cons_self ..)) serial
      have hrest := ih hnext (fun x hx => same x (List.mem_cons_of_mem _ hx))
        fun x hx => unmarked x (List.mem_cons_of_mem _ hx)
      show (acts _ as).Expects _ (index + (raw.sampleCount + samplesIn (framesOf as) : Nat))
      rwa [Nat.cast_add, ← add_assoc]

/-! ## What stays unknown -/

/-- Without a timestamp to go on from, a frame that has none leaves the next one unknown. -/
theorem finish_unknown (h : f.nextPts = none) (unmarked : raw.isAnchor = false) (serial : Serial) :
    (f.finish raw serial).2.nextPts = none := by
  by_cases hskip : raw.sampleRate = 0 ∨ raw.sampleCount = 0
  · have hfinish : f.finish raw serial = (none, f) := if_pos hskip
    rw [hfinish]
    exact h
  · obtain ⟨hrate, hcount⟩ := not_or.mp hskip
    have hpts : raw.pts = none := by simpa [RawAudioFrame.isAnchor, hcount] using unmarked
    have hstamp : f.timestamp raw = none := by simp [AudioFinisher.timestamp, hpts, h]
    rw [(f.finish_sounding hrate hcount serial).1, counted, hstamp]
    exact h

theorem acts_unknown (h : f.nextPts = none) {as : List FinisherAct}
    (unmarked : ∀ raw ∈ framesOf as, raw.isAnchor = false) : (f.acts as).nextPts = none := by
  induction as generalizing f with
  | nil => exact h
  | cons a as ih =>
    cases a with
    | retarget target => exact ih (f := f.setTarget target) h unmarked
    | frame raw serial =>
      exact ih (finish_unknown h (unmarked raw (List.mem_cons_self ..)) serial)
        fun x hx => unmarked x (List.mem_cons_of_mem _ hx)

/-! ## Generations of one stream -/

/-- The finisher belongs to a stream with this time base and start. -/
structure Belongs (f : AudioFinisher R) (timeBase : Ratio) (start : Option Int) : Prop where
  ticks : f.timeBase = timeBase
  starts : f.startPts = start.map (·, timeBase)

variable {timeBase : Ratio} {start : Option Int}

theorem Belongs.finish (h : f.Belongs timeBase start) (raw : RawAudioFrame) (serial : Serial) :
    (f.finish raw serial).2.Belongs timeBase start := by
  by_cases hskip : raw.sampleRate = 0 ∨ raw.sampleCount = 0
  · have hfinish : f.finish raw serial = (none, f) := if_pos hskip
    rwa [hfinish]
  · obtain ⟨hrate, hcount⟩ := not_or.mp hskip
    rw [(f.finish_sounding hrate hcount serial).1]
    unfold counted
    split
    · exact ⟨h.ticks, h.starts⟩
    · exact ⟨h.ticks, h.starts⟩

theorem Belongs.acts (h : f.Belongs timeBase start) (as : List FinisherAct) : (f.acts as).Belongs timeBase start := by
  induction as generalizing f with
  | nil => exact h
  | cons a as ih =>
    cases a with
    | retarget target => exact ih (f := f.setTarget target) ⟨h.ticks, h.starts⟩
    | frame raw serial => exact ih (h.finish raw serial)

theorem Belongs.restart (h : f.Belongs timeBase start) : f.restart.Belongs timeBase start := by
  unfold AudioFinisher.restart
  dsimp only
  split
  · exact ⟨h.ticks, h.starts⟩
  · exact ⟨h.ticks, h.starts⟩

theorem configured_belongs (timeBase : Ratio) (target : AudioParams) (filter : RateFilter R) (start : Option Int) :
    (configured timeBase target filter start).Belongs timeBase start := by
  cases start with
  | none => exact ⟨rfl, rfl⟩
  | some pts =>
    have hnew : ({ (AudioFinisher.new timeBase target filter) with
        startPts := some (pts, timeBase) }).Belongs timeBase (some pts) := ⟨rfl, rfl⟩
    exact hnew.restart

theorem Belongs.generations (h : f.Belongs timeBase start) (past : List (List FinisherAct)) :
    (past.foldl generation f).Belongs timeBase start := by
  induction past generalizing f with
  | nil => exact h
  | cons as past ih => exact ih (h.restart.acts as)

/-- A generation of a stream with a start begins there. -/
theorem Belongs.restart_expects {pts : Int} (h : f.Belongs timeBase (some pts)) (rate : Nat) :
    f.restart.Expects rate (timeBase.rescale pts (sampleBase rate)) := by
  have hstart : f.startPts = some (pts, timeBase) := h.starts
  refine ⟨pts, ?_, ?_⟩
  · simp [AudioFinisher.restart, hstart]
  · simp [AudioFinisher.restart, hstart, Ratio.wrap64_rescale]

/-- A generation of a stream without a start begins nowhere. -/
theorem Belongs.restart_unknown (h : f.Belongs timeBase none) : f.restart.nextPts = none := by
  have hstart : f.startPts = none := h.starts
  simp [AudioFinisher.restart, hstart]

/-! ## The timestamps that come out -/

/-- If the frame can be converted, it comes out with the time at which a sample begins, or with none. -/
def Stamps (f : AudioFinisher R) (raw : RawAudioFrame) (serial : Serial) (index : Option Int) : Prop :=
  (f.finish raw serial).1.map (·.pts) = (f.resampler.convert raw).1.toOption.map fun _ =>
    match index with
    | some i => Scalar.ofInt i * (Scalar.ofInt 1 / Scalar.ofInt raw.sampleRate)
    | none => Scalar.nan

theorem stamps_timestamp (f : AudioFinisher R) (positive : 1 ≤ raw.sampleRate) (small : raw.sampleRate < 0x80000000)
    (hcount : raw.sampleCount ≠ 0) (serial : Serial) : f.Stamps raw serial (f.timestamp raw) := by
  unfold Stamps
  have hseconds : (⟨1, raw.sampleRate⟩ : Ratio).toScalar = (Scalar.ofInt 1 / Scalar.ofInt raw.sampleRate : R) :=
    if_neg (by dsimp only; omega)
  rw [(f.finish_sounding (by omega) hcount serial).2, sampleBase_eq small, hseconds]
  cases f.timestamp raw with
  | none => rfl
  | some pts => rfl

/-- A frame without a timestamp begins with the sample that is expected. -/
theorem Expects.stamps {index : Int} (h : f.Expects raw.sampleRate index) (positive : 1 ≤ raw.sampleRate)
    (small : raw.sampleRate < 0x80000000) (unmarked : raw.pts = none) (hcount : raw.sampleCount ≠ 0)
    (fits : wrap64 index = index) (serial : Serial) : f.Stamps raw serial (some index) := by
  have hstamps := f.stamps_timestamp positive small hcount serial
  rwa [h.timestamp unmarked, fits] at hstamps

/-- Samples after a rescaled timestamp need no more than 64 bits as long as they end below the largest number. -/
theorem wrap64_rescale_add {pts : Int} {base : Ratio} {samples : Nat}
    (below : timeBase.rescale pts base + samples < 0x8000000000000000) :
    wrap64 (timeBase.rescale pts base + samples) = timeBase.rescale pts base + samples := by
  have hlow : -0x8000000000000000 ≤ timeBase.rescale pts base := by
    rw [← Ratio.wrap64_rescale]
    exact Int.le_bmod (by decide)
  exact wrap64_of_fits (by omega) below

theorem framesOf_append (as bs : List FinisherAct) : framesOf (as ++ bs) = framesOf as ++ framesOf bs :=
  List.filterMap_append

theorem framesOf_frame (raw : RawAudioFrame) (serial : Serial) (as : List FinisherAct) :
    framesOf (.frame raw serial :: as) = raw :: framesOf as := rfl

theorem acts_append (f : AudioFinisher R) (as bs : List FinisherAct) :
    f.acts (as ++ bs) = (f.acts as).acts bs :=
  List.foldl_append

/-- **Timestamps go on without rounding.** Let the frames of a generation have one rate `r`, whatever generations came
before and whatever formats the frames are brought to. Then a frame with samples that can be converted comes out with
the time `i / r`, where

* if it has a timestamp itself, `i` is that timestamp in samples;
* else, if the last frame that had a timestamp and samples is `anchor`, `i` is that timestamp in samples, and the
  samples of `anchor` and of all frames after it more;
* else, if the stream has a start, `i` is the start in samples, and the samples of all frames more;
* else the time is unknown.

It makes no difference whether the frames between could be converted. -/
theorem timestamps_go_on (timeBase : Ratio) (target : AudioParams) (filter : RateFilter R) (start : Option Int)
    (past : List (List FinisherAct)) (as : List FinisherAct) (raw : RawAudioFrame) (positive : 1 ≤ rate)
    (small : rate < 0x80000000) (same : ∀ x ∈ framesOf as, x.sampleRate = rate) (hrate : raw.sampleRate = rate)
    (hcount : raw.sampleCount ≠ 0) (serial : Serial) :
    let f : AudioFinisher R := (past.foldl generation (configured timeBase target filter start)).generation as
    let index (pts : Int) : Int := timeBase.rescale pts ⟨1, rate⟩
    (∀ pts, raw.pts = some pts → f.Stamps raw serial (some (index pts))) ∧
      (raw.pts = none →
        (∀ before anchor s after pts, as = before ++ .frame anchor s :: after → anchor.pts = some pts →
          anchor.sampleCount ≠ 0 → (∀ x ∈ framesOf after, x.isAnchor = false) →
          index pts + samplesIn (anchor :: framesOf after) < 0x8000000000000000 →
          f.Stamps raw serial (some (index pts + samplesIn (anchor :: framesOf after)))) ∧
        ((∀ x ∈ framesOf as, x.isAnchor = false) →
          (∀ pts, start = some pts → index pts + samplesIn (framesOf as) < 0x8000000000000000 →
            f.Stamps raw serial (some (index pts + samplesIn (framesOf as)))) ∧
          (start = none → f.Stamps raw serial none))) := by
  subst hrate
  intro f index
  have hbase : sampleBase raw.sampleRate = ⟨1, raw.sampleRate⟩ := sampleBase_eq small
  have hpast := (configured_belongs timeBase target filter start).generations past
  have hf : f.Belongs timeBase start := hpast.restart.acts as
  refine ⟨fun pts hpts => ?_, fun hpts => ⟨?_, fun unmarked => ⟨?_, ?_⟩⟩⟩
  · -- the frame itself says when it begins
    have hstamps := f.stamps_timestamp positive small hcount serial
    have hstamp : f.timestamp raw = some (index pts) := by
      simp only [AudioFinisher.timestamp, hpts, hf.ticks, hbase, index]
    rwa [hstamp] at hstamps
  · -- whatever was expected before the anchor, the anchor sets the count anew
    intro before anchor s after pts has hanchor hsamples unmarked below
    subst has
    rw [framesOf_append, framesOf_frame] at same
    have hsame : anchor.sampleRate = raw.sampleRate := same anchor (by simp)
    let g := (past.foldl generation (configured timeBase target filter start)).restart.acts (R := R) before
    have hg : g.Belongs timeBase start := hpast.restart.acts before
    have hcounted := expects_of_anchor g (hsame ▸ positive) (hsame ▸ small) hanchor hsamples s
    rw [hg.ticks, hsame, hbase] at hcounted
    have hexpects := hcounted.acts positive small (fun x hx => same x (by simp [hx])) unmarked
    have hrun : f = (g.finish anchor s).2.acts after := acts_append ..
    rw [← hrun, add_assoc, ← Nat.cast_add, ← samplesIn_cons] at hexpects
    exact hexpects.stamps positive small hpts hcount (wrap64_rescale_add below) serial
  · -- the count began with the generation
    intro pts hstart below
    subst hstart
    have hexpects := (hpast.restart_expects raw.sampleRate).acts positive small same unmarked
    rw [hbase] at hexpects
    exact hexpects.stamps positive small hpts hcount (wrap64_rescale_add below) serial
  · -- there was nothing to begin a count with
    intro hstart
    subst hstart
    have hstamps := f.stamps_timestamp positive small hcount serial
    have hnext : f.nextPts = none := acts_unknown hpast.restart_unknown unmarked
    have hstamp : f.timestamp raw = none := by simp [AudioFinisher.timestamp, hpts, hnext]
    rwa [hstamp] at hstamps

/-- A stream in milliseconds that starts at a quarter of a second. After a seek its first 480 samples are dropped for
want of a device, and the block after them is due 12480 samples into the stream all the same. -/
theorem block_after_dropped_one :
    let plain : AudioParams := ⟨48000, 2, .i16⟩
    let block (pts : Option Int) : RawAudioFrame := ⟨pts, 48000, 2, .i16, 480, List.replicate 1920 0⟩
    let stream : AudioFinisher Exact := configured .millis plain .silent (some 250)
    let sought := stream.generation [.frame (block (some 7000)) 1]
    let deviceless := sought.generation [.retarget ⟨0, 2, .i16⟩]
    let f := sought.generation [.retarget ⟨0, 2, .i16⟩, .frame (block none) 2, .retarget plain]
    (deviceless.finish (block none) 2).1 = none ∧ f.Stamps (block none) 2 (some 12480) ∧
      (f.finish (block none) 2).1.map (·.pts) = some (.finite (26 / 100)) := by
  intro plain block stream sought deviceless f
  have same : ∀ x ∈ framesOf [.retarget ⟨0, 2, .i16⟩, .frame (block none) 2, .retarget plain],
      x.sampleRate = 48000 := by
    decide
  have hgoes := timestamps_go_on (R := Exact) .millis plain .silent (some 250) [[.frame (block (some 7000)) 1]] _
    (block none) (by decide) (by decide) same rfl (by decide) 2
  have hstamps : f.Stamps (block none) 2 (some 12480) :=
    ((hgoes.2 rfl).2 (by decide)).1 250 rfl (by decide)
  refine ⟨by decide +kernel, hstamps, ?_⟩
  have hvalue : (Scalar.ofInt 12480 * (Scalar.ofInt 1 / Scalar.ofInt 48000) : Exact) = .finite (26 / 100) := by
    decide +kernel
  rw [hstamps]
  exact congrArg some hvalue

end Bookkeeping
end AudioFinisher
end Playback
