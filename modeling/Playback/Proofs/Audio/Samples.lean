import Mathlib.Algebra.Order.Ring.Nat
import Playback.Audio.Sample

/-!
# Samples in both formats

Whatever the format, so many samples take so many bytes, and the other way round an incomplete sample is left out
(`encode_length`, `decode_length`).

A 16-bit value `v` stands for `v / 2^15`. Its leading bit becomes the exponent and the rest the fraction, which has room
for all of them (`ofInt16_bits`). It lies between -1 and 1, ends included, so that neither the limits of single
precision nor the rounding on the way back take anything off (`encode16_through_single`).
-/

namespace Playback

/-- Lists of one length, one after the other. -/
theorem length_flatMap_const {α β : Type} {f : α → List β} {n : Nat} (h : ∀ a, (f a).length = n) (l : List α) :
    (l.flatMap f).length = l.length * n := by
  induction l with
  | nil => rw [List.flatMap_nil, List.length_nil, List.length_nil, Nat.zero_mul]
  | cons a l ih => rw [List.flatMap_cons, List.length_append, h, ih, List.length_cons, Nat.succ_mul, Nat.add_comm]

namespace Sample

/-! ## Lengths -/

theorem decode16_length (data : Bytes) : (decode16 data).length = data.length / 2 := by
  induction data using decode16.induct with
  | case1 b0 b1 rest ih =>
    simp only [decode16, List.length_cons, ih]
    omega
  | case2 data short =>
    rw [decode16.eq_2 data short]
    match data, short with
    | [], _ => rfl
    | [_], _ => simp
    | b0 :: b1 :: rest, short => exact (short b0 b1 rest rfl).elim

theorem decode32_length (data : Bytes) : (decode32 data).length = data.length / 4 := by
  induction data using decode32.induct with
  | case1 b0 b1 b2 b3 rest ih =>
    simp only [decode32, List.length_cons, ih]
    omega
  | case2 data short =>
    rw [decode32.eq_2 data short]
    match data, short with
    | [], _ => rfl
    | [_], _ => simp
    | [_, _], _ => simp
    | [_, _, _], _ => simp
    | b0 :: b1 :: b2 :: b3 :: rest, short => exact (short b0 b1 b2 b3 rest rfl).elim

theorem decode_length (format : SampleFormat) (data : Bytes) :
    (decode format data).length = data.length / format.size := by
  cases format with
  | i16 => exact decode16_length data
  | f32 => exact decode32_length data

theorem encodeOne_length (format : SampleFormat) (s : Sample) : (encodeOne format s).length = format.size := by
  cases format <;> rfl

theorem encode_length (format : SampleFormat) (samples : List Sample) :
    (encode format samples).length = samples.length * format.size :=
  length_flatMap_const (encodeOne_length format) samples

/-! ## Bytes -/

theorem int16OfBytes_bounds (b0 b1 : UInt8) : -32768 ≤ int16OfBytes b0 b1 ∧ int16OfBytes b0 b1 ≤ 32767 := by
  unfold int16OfBytes
  have hlow := Int.le_bmod (x := (b0.toNat + 256 * b1.toNat : Int)) (m := 65536) (by decide)
  have hhigh := Int.bmod_lt (x := (b0.toNat + 256 * b1.toNat : Int)) (m := 65536) (by decide)
  omega

theorem int16ToBytes_ofBytes (b0 b1 : UInt8) : int16ToBytes (int16OfBytes b0 b1) = [b0, b1] := by
  have h0 := b0.toNat_lt
  have h1 := b1.toNat_lt
  have hword : (int16OfBytes b0 b1 % 65536).toNat = b0.toNat + 256 * b1.toNat := by
    have hmod : int16OfBytes b0 b1 % (65536 : Nat) = (b0.toNat + 256 * b1.toNat : Int) % (65536 : Nat) := Int.bmod_emod
    omega
  have hlow : (b0.toNat + 256 * b1.toNat) % 256 = b0.toNat := by omega
  have hhigh : (b0.toNat + 256 * b1.toNat) / 256 = b1.toNat := by omega
  simp only [int16ToBytes, hword, hlow, hhigh, UInt8.ofNat_toNat]

theorem decode32_toBytes (s : Sample) (rest : Bytes) : decode32 (s.toBytes ++ rest) = s :: decode32 rest := by
  have hlt := s.bits.toNat_lt
  have hbits : ofBytes (UInt8.ofNat (s.bits.toNat % 256)) (UInt8.ofNat (s.bits.toNat / 256 % 256))
      (UInt8.ofNat (s.bits.toNat / 65536 % 256)) (UInt8.ofNat (s.bits.toNat / 16777216)) = s := by
    unfold ofBytes
    simp only [UInt8.toNat_ofNat']
    congr 1
    apply UInt32.toNat_inj.mp
    rw [UInt32.toNat_ofNat']
    omega
  exact congrArg (· :: decode32 rest) hbits

/-- Single-precision data gives the samples again, within its limits. -/
theorem decode32_encode (samples : List Sample) : decode32 (encode .f32 samples) = samples.map clampUnit := by
  induction samples with
  | nil => rfl
  | cons s samples ih =>
    rw [List.map_cons, ← ih]
    exact decode32_toBytes s.clampUnit (encode .f32 samples)

/-! ## Values of 16 bits -/

/-- A value by its leading bit, which gives the exponent, and the bits behind it, which give the fraction. -/
theorem ofInt16_bits {v : Int} (hne : v ≠ 0) (low : -32768 ≤ v) (high : v ≤ 32767) :
    ∃ top fraction : Nat, top ≤ 15 ∧ (top = 15 → fraction = 0 ∧ v < 0) ∧ fraction < 0x800000 ∧
      fraction + 0x800000 = v.natAbs * 2 ^ (23 - top) ∧
      (ofInt16 v).bits.toNat = (if v < 0 then 0x80000000 else 0) + (top + 112) * 0x800000 + fraction := by
  have hmagnitude : v.natAbs ≠ 0 := Int.natAbs_ne_zero.mpr hne
  have hlead := Nat.log2_self_le hmagnitude
  have hnext := Nat.lt_log2_self (n := v.natAbs)
  unfold ofInt16
  dsimp only
  rw [if_neg hmagnitude, Nat.pow_eq, Nat.pow_eq]
  generalize hm : v.natAbs = magnitude at *
  generalize magnitude.log2 = top at *
  -- only the least value has a leading bit as high as the sixteenth, and nothing behind it
  have htop : top ≤ 15 := by
    by_contra hlarge
    have hpow : 2 ^ 16 ≤ 2 ^ top := Nat.pow_le_pow_right (by decide) (by omega)
    omega
  have hwhole : 2 ^ top * 2 ^ (23 - top) = 0x800000 := by
    rw [← Nat.pow_add, show top + (23 - top) = 23 from by omega]
  have hsum : (magnitude - 2 ^ top) * 2 ^ (23 - top) + 0x800000 = magnitude * 2 ^ (23 - top) := by
    rw [← hwhole, ← Nat.add_mul, Nat.sub_add_cancel hlead]
  have hfraction : (magnitude - 2 ^ top) * 2 ^ (23 - top) < 0x800000 := by
    rw [← hwhole]
    exact Nat.mul_lt_mul_of_pos_right (by rw [Nat.pow_succ] at hnext; omega) (Nat.two_pow_pos _)
  refine ⟨top, _, htop, fun h15 => ?_, hfraction, hsum, ?_⟩
  · subst h15
    have hmagnitude' : magnitude = 32768 := by omega
    exact ⟨by rw [hmagnitude']; rfl, by omega⟩
  · rw [UInt32.toNat_ofNat']
    apply Nat.mod_eq_of_lt
    split <;> omega

variable {v : Int}

/-- Nothing is rounded off on the way there, and so nothing on the way back. -/
theorem toInt16_ofInt16 (low : -32768 ≤ v) (high : v ≤ 32767) : (ofInt16 v).toInt16 = v := by
  by_cases hne : v = 0
  · subst hne
    decide
  obtain ⟨top, fraction, htop, -, hfraction, hsum, hbits⟩ := ofInt16_bits hne low high
  generalize hs : ofInt16 v = s at hbits ⊢
  have hexponent : s.exponent = top + 112 := by
    unfold exponent
    split at hbits <;> omega
  have hrest : s.fraction = fraction := by
    unfold Sample.fraction
    split at hbits <;> omega
  have hnegative : s.isNegative = decide (v < 0) := by
    unfold isNegative
    split at hbits <;> simp <;> omega
  have hnan : s.isNaN = false := by
    simp [isNaN, hexponent]
    omega
  have hscaled : s.scaledMagnitude = v.natAbs := by
    -- the half that rounding adds lies below the last bit
    have hhalf : 2 ^ (22 - top) < 2 ^ (23 - top) := Nat.pow_lt_pow_right (by decide) (by omega)
    unfold scaledMagnitude
    rw [hexponent, hrest, if_neg (by omega), if_neg (by omega), Nat.pow_eq, Nat.pow_eq,
      show 134 - (top + 112) = 22 - top from by omega, show 135 - (top + 112) = 23 - top from by omega, hsum,
      Nat.mul_comm, Nat.mul_add_div (Nat.two_pow_pos _), Nat.div_eq_of_lt hhalf, Nat.add_zero]
  unfold toInt16
  rw [hnan, hnegative, hscaled]
  by_cases hsign : v < 0
  · simp only [hsign, decide_true, if_true, Bool.false_eq_true, if_false]
    omega
  · simp only [hsign, decide_false, Bool.false_eq_true, if_false]
    omega

/-- A 16-bit value is within the limits of single precision. -/
theorem clampUnit_ofInt16 (low : -32768 ≤ v) (high : v ≤ 32767) : (ofInt16 v).clampUnit = ofInt16 v := by
  by_cases hne : v = 0
  · subst hne
    decide
  obtain ⟨top, fraction, htop, hlargest, hfraction, -, hbits⟩ := ofInt16_bits hne low high
  generalize ofInt16 v = s at hbits ⊢
  have hwithin : s.bits.toNat % 0x80000000 ≤ 0x3f800000 := by
    split at hbits <;> omega
  unfold clampUnit
  rw [if_pos hwithin, ite_self]

/-! ## From 16 bits to single precision and back -/

/-- 16-bit data of whole samples is what it is in single precision. -/
theorem encode16_decode16 (data : Bytes) (whole : data.length % 2 = 0) : encode .i16 (decode .i16 data) = data := by
  induction data using decode16.induct with
  | case1 b0 b1 rest ih =>
    obtain ⟨low, high⟩ := int16OfBytes_bounds b0 b1
    rw [List.length_cons, List.length_cons] at whole
    have hrest := ih (by omega)
    show int16ToBytes (ofInt16 (int16OfBytes b0 b1)).toInt16 ++ encode .i16 (decode .i16 rest) = _
    rw [toInt16_ofInt16 low high, int16ToBytes_ofBytes, hrest]
    rfl
  | case2 data short =>
    match data, short with
    | [], _ => rfl
    | [_], _ => cases whole
    | b0 :: b1 :: rest, short => exact (short b0 b1 rest rfl).elim

/-- The limits of single precision leave 16-bit data as it is. -/
theorem map_clampUnit_decode16 (data : Bytes) : (decode .i16 data).map clampUnit = decode .i16 data := by
  have hsample : ∀ s ∈ decode16 data, s.clampUnit = s := by
    induction data using decode16.induct with
    | case1 b0 b1 rest ih =>
      obtain ⟨low, high⟩ := int16OfBytes_bounds b0 b1
      intro s hs
      rcases List.mem_cons.mp hs with heq | hs
      · rw [heq]
        exact clampUnit_ofInt16 low high
      · exact ih s hs
    | case2 data short =>
      rw [decode16.eq_2 data short]
      exact List.forall_mem_nil _
  exact (List.map_congr_left hsample).trans (List.map_id _)

theorem encode16_through_single (data : Bytes) (whole : data.length % 2 = 0) :
    encode .i16 (decode .f32 (encode .f32 (decode .i16 data))) = data := by
  show encode .i16 (decode32 _) = data
  rw [decode32_encode, map_clampUnit_decode16, encode16_decode16 data whole]

end Sample
end Playback
