import Playback.Audio.Sample
import Playback.Error
import Playback.Scalar

/-!
# Changing the rate of a stream

A rate converter takes a stream in chunks and puts out samples at a ratio of the input rate. Its filter
looks at 128 samples around each position; `position` is where the last output sample lies, counted from
the start of the next chunk. A new ratio is reached gradually over one chunk. From that follows how many
samples a chunk gives (`needed`).

Which samples these are, and which calls fail, is up to a library: `RateFilter` is what it answers.
-/

namespace Playback

/-- A rate converter. -/
structure RateConverter (R : Type) where
  channels : Nat
  /-- The ratio at the start, to which changes are relative. -/
  nominal : R
  ratio : R
  /-- The ratio at the end of the next chunk. -/
  target : R
  position : R
  /-- The chunks since the start, newest first. -/
  past : List (List Sample)
deriving Repr

/-- What the library answers to each call. Its errors are texts, and a call that fails changes nothing. -/
structure RateFilter (R : Type) where
  /-- Whether there is a converter for a ratio and so many channels. -/
  create : R → Nat → Except String Unit
  /-- Changing the ratio to a multiple of the nominal one. -/
  setRelative : RateConverter R → R → Except String Unit
  /-- Setting the length of the next chunk. -/
  setLength : RateConverter R → Nat → Except String Unit
  /-- Looking at interleaved samples as so many channels of so many samples each. -/
  view : List Sample → Nat → Nat → Except String Unit
  /-- The samples that a chunk gives, interleaved like its own. -/
  play : RateConverter R → List Sample → Except String (List Sample)

namespace RateConverter

/-- The longest chunk. -/
def chunkFrames : Nat := 1024

/-- How far the ratio may be changed up or down. -/
def maxRelativeRatio {R : Type} [Scalar R] : R := 2.0

/-- An answer of the library; an error says what was being done. -/
def answered {α : Type} (doing : String) (answer : Except String α) : Except PlayerError α :=
  answer.mapError fun text => .audioOutput (doing ++ ": " ++ text)

variable {R : Type} [Scalar R]

def new (ratio : R) (channels : Nat) : RateConverter R :=
  { channels, nominal := ratio, ratio, target := ratio, position := -127.0, past := [] }

/-- A new converter, if the library has one. -/
def create (filter : RateFilter R) (ratio : R) (channels : Nat) : Except PlayerError (RateConverter R) :=
  (answered "创建重采样器失败" (filter.create ratio channels)).map fun _ => new ratio channels

/-- Forgets the stream and any change of the ratio. -/
def reset (c : RateConverter R) : RateConverter R :=
  new c.nominal c.channels

/-- Changes the ratio to a multiple of the nominal one, from the next chunk on. -/
def setRelative (filter : RateFilter R) (c : RateConverter R) (factor : R) : Except PlayerError (RateConverter R) :=
  (answered "调整重采样比率失败" (filter.setRelative c factor)).map fun _ =>
    { c with target := c.nominal * factor }

/-- How many samples a chunk of so many gives. -/
def needed (c : RateConverter R) (frames : Nat) : Nat :=
  Scalar.floorNat
    ((Scalar.ofInt frames - 129.0 - c.position) * (0.5 * c.ratio + 0.5 * c.target))

/-- The position after so many output samples, whose distance grows by `growth` each time. -/
def advance (growth : R) : Nat → R → R → R
  | 0, _, position => position
  | steps + 1, distance, position =>
    advance growth steps (distance + growth) (position + (distance + growth))

/-- The converter after a chunk of so many samples of each channel. -/
def after (c : RateConverter R) (frames : Nat) (chunk : List Sample) : RateConverter R :=
  let count := c.needed frames
  let distance := 1.0 / c.ratio
  let growth := (1.0 / c.target - distance) / Scalar.ofInt count
  let last := advance growth count distance c.position
  { c with position := last - Scalar.ofInt frames, ratio := c.target, past := chunk :: c.past }

/-- Takes a chunk of so many samples of each channel; what it gives, and the converter afterwards. -/
def takeChunk (filter : RateFilter R) (c : RateConverter R) (frames : Nat) (chunk : List Sample) :
    Except PlayerError (List Sample × RateConverter R) := do
  answered "重采样块大小设置失败" (filter.setLength c frames)
  answered "重采样输入缓冲错误" (filter.view chunk c.channels frames)
  let out ← answered "重采样失败" (filter.play c chunk)
  return (out, c.after frames chunk)

/-- The lengths of the chunks that a stretch of so many samples is cut into. -/
def chunkLengths (frames : Nat) : List Nat :=
  List.replicate (frames / chunkFrames) chunkFrames
    ++ (if frames % chunkFrames = 0 then [] else [frames % chunkFrames])

/-- Takes a sequence of chunks of these lengths; what they give in all. The first chunk that fails ends it
and leaves nothing of what the others gave. -/
def takeChunks (filter : RateFilter R) (c : RateConverter R) :
    List Nat → List Sample → Except PlayerError (List Sample) × RateConverter R
  | [], _ => (.ok [], c)
  | frames :: lengths, samples =>
    let size := frames * c.channels
    match c.takeChunk filter frames (samples.take size) with
    | .error e => (.error e, c)
    | .ok (first, c) =>
      let (others, c) := c.takeChunks filter lengths (samples.drop size)
      (others.map (first ++ ·), c)

/-- Takes interleaved samples, in chunks; an incomplete last group is left out. -/
def takeSamples (filter : RateFilter R) (c : RateConverter R) (samples : List Sample) :
    Except PlayerError (List Sample) × RateConverter R :=
  c.takeChunks filter (chunkLengths (samples.length / c.channels)) samples

end RateConverter

/-- A library that refuses a ratio of zero and nothing else, and whose samples are all silent. It stands in for the real
one where samples do not matter. -/
def RateFilter.silent {R : Type} [Scalar R] : RateFilter R where
  create ratio _ :=
    if 0.0 < ratio then .ok () else .error "Invalid resample_ratio provided: 0. resample_ratio must be > 0"
  setRelative _ _ := .ok ()
  setLength _ _ := .ok ()
  view _ _ _ := .ok ()
  play c chunk := .ok (List.replicate (c.needed (chunk.length / c.channels) * c.channels) Sample.silence)

end Playback
