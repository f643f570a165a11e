import Playback.Audio.Rate
import Playback.Audio.Sample
import Playback.Error
import Playback.Media.Frame

/-!
# Conversion to the format of the device

`Resampler` turns what codecs put out into the sample format, channels and rate of the device. Frames that
are in the target format pass unchanged. Otherwise samples are brought to single precision, remixed to the
target's channels, brought to its rate, and stored in its format.
-/

namespace Playback

/-- The first `count` groups of so many elements each. -/
def groups {α : Type} (size : Nat) : Nat → List α → List (List α)
  | 0, _ => []
  | count + 1, xs => xs.take size :: groups size count (xs.drop size)

/-- The samples of one point in time for another number of channels: one output channel gets the
average, several take the input channels in turn. -/
def remixFrame (target : Nat) (frame : List Sample) : List Sample :=
  if target = 1 then [Sample.average frame]
  else (List.range target).map fun c => frame.getD (c % frame.length) Sample.silence

/-- Interleaved samples for another number of channels; an incomplete last group is left out. -/
def remix (samples : List Sample) (source target : Nat) : List Sample :=
  if source = target ∨ source = 0 then samples
  else (groups source (samples.length / source) samples).flatMap (remixFrame target)

/-- A converter to a target format, with the rate converter for the last source rate that needed one. -/
structure Resampler (R : Type) where
  target : AudioParams
  filter : RateFilter R
  converter : Option (Nat × RateConverter R)

namespace Resampler

variable {R : Type} [Scalar R]

def new (target : AudioParams) (filter : RateFilter R := .silent) : Resampler R :=
  ⟨target, filter, none⟩

/-- Whether a frame is in the target format already. -/
def isPassthrough (r : Resampler R) (frame : RawAudioFrame) : Bool :=
  frame.sampleRate = r.target.sampleRate && frame.channels = r.target.channels
    && frame.format = r.target.format

/-- The rate converter for a source rate: the present one if it was made for that rate, else a new one. -/
def converterFor (r : Resampler R) (sourceRate : Nat) : Except PlayerError (RateConverter R) :=
  match r.converter with
  | some (rate, converter) =>
    if rate = sourceRate then .ok converter else fresh
  | none => fresh
where
  fresh : Except PlayerError (RateConverter R) :=
    RateConverter.create r.filter (Scalar.ofInt r.target.sampleRate / Scalar.ofInt sourceRate) r.target.channels

/-- A frame in the target format with its samples per channel, and the resampler afterwards. -/
def convert (r : Resampler R) (frame : RawAudioFrame) :
    Except PlayerError (Bytes × Nat) × Resampler R :=
  if r.isPassthrough frame then (.ok (frame.data, frame.sampleCount), r)
  else if frame.sampleRate = 0 ∨ r.target.channels = 0 then (.ok ([], 0), r)
  else
    let samples :=
      remix (Sample.decode frame.format frame.data) frame.channels r.target.channels
    let encoded (samples : List Sample) : Bytes × Nat :=
      (Sample.encode r.target.format samples, samples.length / r.target.channels)
    if frame.sampleRate = r.target.sampleRate then (.ok (encoded samples), r)
    else
      match r.converterFor frame.sampleRate with
      | .error e => (.error e, r)
      | .ok converter =>
        let (result, converter) := converter.takeSamples r.filter samples
        (result.map encoded, { r with converter := some (frame.sampleRate, converter) })

/-- Forgets the samples of the stream so far. -/
def reset (r : Resampler R) : Resampler R :=
  { r with converter := r.converter.map fun (rate, converter) => (rate, converter.reset) }

end Resampler

/-! ## Stretching -/

/-- Stretches or shortens audio of one format a little, as a continuous stream. -/
structure Compensator (R : Type) where
  filter : RateFilter R
  converter : Option (AudioParams × RateConverter R)

namespace Compensator

variable {R : Type} [Scalar R]

def new (filter : RateFilter R := .silent) : Compensator R := ⟨filter, none⟩

/-- The rate converter for a format: the present one if it was made for that format, else a new one. -/
def converterFor (c : Compensator R) (params : AudioParams) : Except PlayerError (RateConverter R) :=
  match c.converter with
  | some (current, converter) => if current = params then .ok converter else fresh
  | none => fresh
where
  fresh : Except PlayerError (RateConverter R) := RateConverter.create c.filter 1.0 params.channels

/-- Audio brought to about `wanted` samples per channel. Data shorter than one sample of every channel
passes unchanged. -/
def stretch (c : Compensator R) (data : Bytes) (params : AudioParams) (wanted : Nat) :
    Except PlayerError Bytes × Compensator R :=
  if params.frameSize = 0 ∨ data.length < params.frameSize then (.ok data, c)
  else
    let frames := data.length / params.frameSize
    let factor : R :=
      Scalar.clamp (Scalar.ofInt wanted / Scalar.ofInt frames)
        (1.0 / RateConverter.maxRelativeRatio) RateConverter.maxRelativeRatio
    match c.converterFor params with
    | .error e => (.error e, c)
    | .ok converter =>
      match converter.setRelative c.filter factor with
      | .error e => (.error e, { c with converter := some (params, converter) })
      | .ok converter =>
        let (result, converter) := converter.takeSamples c.filter (Sample.decode params.format data)
        (result.map (Sample.encode params.format), { c with converter := some (params, converter) })

/-- Audio brought to about `wanted` samples per channel, or as it was if that fails. -/
def process (c : Compensator R) (data : Bytes) (params : AudioParams) (wanted : Nat) :
    Bytes × Compensator R :=
  let (result, c) := c.stretch data params wanted
  (result.toOption.getD data, c)

/-- Forgets the stream so far. -/
def reset (c : Compensator R) : Compensator R :=
  { c with converter := c.converter.map fun (params, converter) => (params, converter.reset) }

end Compensator

end Playback
