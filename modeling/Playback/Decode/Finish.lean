import Playback.Audio.Resampler
import Playback.Media.Frame

/-!
# From raw frames to what renderers take

A `Finisher` does what remains to be done with a codec's frame: audio is brought to the format of the
device and gets timestamps in samples, which go on from frame to frame where the codec gives none; pictures
get a duration from the frame rate.
-/

namespace Playback

/-- What is done with frames of type `Raw` to make an `Out` of each. -/
class Finisher (φ : Type) (Raw Out : outParam Type) where
  /-- A new generation begins. -/
  restart : φ → φ
  /-- The finished frame for a serial; `none` if the frame is left out. -/
  finish : φ → Raw → Serial → Option Out × φ

/-! ## Audio -/

structure AudioFinisher (R : Type) where
  /-- The time base of the stream. -/
  timeBase : Ratio
  /-- The timestamp of the next frame, if known. -/
  nextPts : Option Int
  nextTimeBase : Ratio
  /-- The first timestamp of every generation, with its time base. -/
  startPts : Option (Int × Ratio)
  resampler : Resampler R

namespace AudioFinisher

variable {R : Type} [Scalar R]

def new (timeBase : Ratio) (target : AudioParams) (filter : RateFilter R := .silent) : AudioFinisher R :=
  ⟨timeBase, none, timeBase, none, .new target filter⟩

/-- The next frame is the first of a generation. -/
def restart (f : AudioFinisher R) : AudioFinisher R :=
  let f := { f with resampler := f.resampler.reset }
  match f.startPts with
  | some (pts, timeBase) => { f with nextPts := some pts, nextTimeBase := timeBase }
  | none => { f with nextPts := none, nextTimeBase := f.timeBase }

/-- Sets the first timestamp of every generation, in ticks of the stream. -/
def withStart (f : AudioFinisher R) (pts : Int) : AudioFinisher R :=
  restart { f with startPts := some (pts, f.timeBase) }

/-- Changes the format that frames are brought to. -/
def setTarget (f : AudioFinisher R) (target : AudioParams) : AudioFinisher R :=
  { f with resampler := .new target f.resampler.filter }

/-- The time base of one sample at a rate; rates beyond 31 bits wrap around. -/
def sampleBase (rate : Nat) : Ratio :=
  ⟨1, Int.bmod rate 0x100000000⟩

/-- The timestamp of a frame in samples: its own, or else the expected one. -/
def timestamp (f : AudioFinisher R) (raw : RawAudioFrame) : Option Int :=
  let base := sampleBase raw.sampleRate
  match raw.pts with
  | some pts => some (f.timeBase.rescale pts base)
  | none => f.nextPts.map fun next => f.nextTimeBase.rescale next base

/-- A block for the renderer. Frames without samples, and those that cannot be converted, are left out;
the latter still count for the timestamp of the next frame. -/
def finish (f : AudioFinisher R) (raw : RawAudioFrame) (serial : Serial) :
    Option (AudioBlock R) × AudioFinisher R :=
  if raw.sampleRate = 0 ∨ raw.sampleCount = 0 then (none, f)
  else
    let base := sampleBase raw.sampleRate
    let pts := f.timestamp raw
    let f :=
      match pts with
      | some pts => { f with nextPts := some (wrap64 (pts + raw.sampleCount)), nextTimeBase := base }
      | none => f
    let (converted, resampler) := f.resampler.convert raw
    let f := { f with resampler }
    match converted with
    | .error _ => (none, f)
    | .ok (data, sampleCount) =>
      (some {
        pts := (pts.map fun pts => Scalar.ofInt pts * base.toScalar).getD Scalar.nan
        duration := Scalar.ofInt raw.sampleCount / Scalar.ofInt raw.sampleRate
        sampleCount
        params := f.resampler.target
        serial
        data }, f)

instance : Finisher (AudioFinisher R) RawAudioFrame (AudioBlock R) := ⟨restart, finish⟩

end AudioFinisher

/-! ## Video -/

structure VideoFinisher (R : Type) where
  timeBase : Ratio
  frameRate : Option Ratio
deriving Repr

namespace VideoFinisher

variable {R : Type} [Scalar R]

/-- How long a picture is shown at the frame rate; zero without one. -/
def frameDuration (f : VideoFinisher R) : R :=
  match f.frameRate with
  | some rate =>
    if rate.num > 0 ∧ rate.den > 0 then Scalar.ofInt rate.den / Scalar.ofInt rate.num else 0.0
  | none => 0.0

/-- A picture for the renderer. -/
def finish (f : VideoFinisher R) (raw : RawVideoFrame) (serial : Serial) :
    Option (VideoFrame R) × VideoFinisher R :=
  (some {
    pts := (raw.pts.map fun pts => Scalar.ofInt pts * f.timeBase.toScalar).getD Scalar.nan
    duration := f.frameDuration
    serial
    width := raw.width
    height := raw.height
    format := raw.format
    data := raw.data }, f)

instance : Finisher (VideoFinisher R) RawVideoFrame (VideoFrame R) := ⟨id, finish⟩

end VideoFinisher
end Playback
