import Playback.Audio.Sample
import Playback.Scalar

/-!
# Volume

`mix` copies audio into an output buffer at a volume. Silence and full volume work byte by byte; any other
volume scales whole samples, so that bytes of the output that belong to no whole sample keep what they
held.
-/

namespace Playback

variable {R : Type} [Scalar R]

/-- One 16-bit value scaled. -/
def scaleInt16 (volume : R) (v : Int) : Int :=
  Scalar.toInt16 (Scalar.ofInt v * volume)

/-- One single-precision sample scaled and kept between -1 and 1. -/
def scaleSample (volume : R) (s : Sample) : Sample :=
  ⟨Scalar.toSingle (Scalar.clamp (Scalar.ofSingle s.bits * volume) (-1.0) 1.0)⟩

/-- The output with every whole 16-bit sample replaced by the scaled one. -/
def mix16 (volume : R) : Bytes → Bytes → Bytes
  | _ :: _ :: out, b0 :: b1 :: src =>
    Sample.int16ToBytes (scaleInt16 volume (Sample.int16OfBytes b0 b1)) ++ mix16 volume out src
  | out, _ => out

/-- The output with every whole single-precision sample replaced by the scaled one. -/
def mix32 (volume : R) : Bytes → Bytes → Bytes
  | _ :: _ :: _ :: _ :: out, b0 :: b1 :: b2 :: b3 :: src =>
    (scaleSample volume (Sample.ofBytes b0 b1 b2 b3)).toBytes ++ mix32 volume out src
  | out, _ => out

/-- The output buffer `out` after copying as much of `src` as fits, at a volume. -/
def mix (out src : Bytes) (format : SampleFormat) (volume : R) (muted : Bool) : Bytes :=
  let count := min out.length src.length
  if muted ∨ volume ≤ 0.0 then List.replicate count 0 ++ out.drop count
  else if Scalar.abs (volume - 1.0) < 2.220446049250313e-16 then src.take count ++ out.drop count
  else
    match format with
    | .i16 => mix16 volume out src
    | .f32 => mix32 volume out src

end Playback
