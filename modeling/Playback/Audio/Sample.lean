import Playback.Media.Format

/-!
# Samples and their bytes

Inside conversions a sample is a single-precision number, kept as its bits. A 16-bit sample `v` stands for
`v / 2^15`, which is exact; the way back rounds to the nearest step, halves away from zero, and keeps
within the 16-bit range. All of it is integer arithmetic on sign, exponent and fraction.
-/

namespace Playback

/-- A single-precision sample, by its bits. -/
structure Sample where
  bits : UInt32
deriving Repr, DecidableEq, Inhabited

namespace Sample

def silence : Sample := ⟨0⟩

def isNegative (s : Sample) : Bool :=
  s.bits.toNat / 0x80000000 ≠ 0

/-- The biased exponent. -/
def exponent (s : Sample) : Nat :=
  s.bits.toNat / 0x800000 % 256

def fraction (s : Sample) : Nat :=
  s.bits.toNat % 0x800000

def isNaN (s : Sample) : Bool :=
  s.exponent = 255 && s.fraction ≠ 0

/-- The sample for a 16-bit value: `v / 2^15`. -/
def ofInt16 (v : Int) : Sample :=
  let magnitude := v.natAbs
  if magnitude = 0 then silence
  else
    let top := magnitude.log2
    let sign := if v < 0 then 0x80000000 else 0
    ⟨UInt32.ofNat (sign + (top + 112) * 0x800000 + (magnitude - Nat.pow 2 top) * Nat.pow 2 (23 - top))⟩

/-- The magnitude of `2^15` times a finite sample, to the nearest integer, halves up. -/
def scaledMagnitude (s : Sample) : Nat :=
  if s.exponent = 0 then 0
  else if s.exponent ≥ 135 then (s.fraction + 0x800000) * Nat.pow 2 (s.exponent - 135)
  else (s.fraction + 0x800000 + Nat.pow 2 (134 - s.exponent)) / Nat.pow 2 (135 - s.exponent)

/-- The 16-bit value nearest to a sample; what is no number counts as zero. -/
def toInt16 (s : Sample) : Int :=
  if s.isNaN then 0
  else if s.isNegative then -(min s.scaledMagnitude 32768 : Nat)
  else (min s.scaledMagnitude 32767 : Nat)

/-- The nearest sample between -1 and 1; what is no number stays so. -/
def clampUnit (s : Sample) : Sample :=
  if s.isNaN then s
  else if s.bits.toNat % 0x80000000 ≤ 0x3f800000 then s
  else ⟨UInt32.ofNat ((if s.isNegative then 0x80000000 else 0) + 0x3f800000)⟩

/-- The average in single precision: the samples are added in their order. -/
def average (samples : List Sample) : Sample :=
  let sum := samples.foldl (fun acc s => acc + Float32.ofBits s.bits) (-0.0)
  ⟨(sum / Float32.ofNat samples.length).toBits⟩

/-! ## Bytes -/

/-- A 16-bit value from its two bytes, least significant first. -/
def int16OfBytes (b0 b1 : UInt8) : Int :=
  Int.bmod (b0.toNat + 256 * b1.toNat) 65536

/-- The two bytes of a 16-bit value. -/
def int16ToBytes (v : Int) : Bytes :=
  let word := (v % 65536).toNat
  [UInt8.ofNat (word % 256), UInt8.ofNat (word / 256)]

/-- A sample from its four bytes, least significant first. -/
def ofBytes (b0 b1 b2 b3 : UInt8) : Sample :=
  ⟨UInt32.ofNat (b0.toNat + 256 * b1.toNat + 65536 * b2.toNat + 16777216 * b3.toNat)⟩

/-- The four bytes of a sample. -/
def toBytes (s : Sample) : Bytes :=
  let word := s.bits.toNat
  [UInt8.ofNat (word % 256), UInt8.ofNat (word / 256 % 256), UInt8.ofNat (word / 65536 % 256),
    UInt8.ofNat (word / 16777216)]

/-- The samples in 16-bit data; an odd last byte is left out. -/
def decode16 : Bytes → List Sample
  | b0 :: b1 :: rest => ofInt16 (int16OfBytes b0 b1) :: decode16 rest
  | _ => []

/-- The samples in single-precision data; up to three last bytes are left out. -/
def decode32 : Bytes → List Sample
  | b0 :: b1 :: b2 :: b3 :: rest => ofBytes b0 b1 b2 b3 :: decode32 rest
  | _ => []

/-- The samples in interleaved data. -/
def decode : SampleFormat → Bytes → List Sample
  | .i16 => decode16
  | .f32 => decode32

/-- The bytes of one sample, brought into the range of the format. -/
def encodeOne : SampleFormat → Sample → Bytes
  | .i16, s => int16ToBytes s.toInt16
  | .f32, s => s.clampUnit.toBytes

/-- The bytes of interleaved samples. -/
def encode (format : SampleFormat) (samples : List Sample) : Bytes :=
  samples.flatMap (encodeOne format)

end Sample
end Playback
