import Mathlib
import ActorCore.Number.Double

/-!
# Singles through doubles

A single read as a double and written back as a single gives its own 32 bits, unless it is a
signalling NaN: reading quiets a NaN, and writing keeps the quiet bit. The argument runs on the
fields. Every single is exactly a double: a normal single moves its exponent by the difference of
the biases and its fraction to the top of the double's, and a subnormal one is normalized, its
leading bit made the hidden bit. Rounding such a double back to a single shifts out only zeros.

* `Double.toNat_exponentField`, `Double.toNat_fraction`, `Double.negative_eq` — the fields of a
  double as arithmetic on its bits.
* `Double.roundShift_mul_two_pow` — rounding is exact when the bits shifted out are zeros.
* `Double.singleMagnitude_doubleMagnitude` — the round trip on magnitudes.
* `Double.not_signalingSingle_toSingleBits` — a single written from a double is never a
  signalling NaN.
* `Double.not_signalingSingle_of_isNaN_ofSingleBits` — a single that reads as a number is no NaN.

Principal result: `Double.toSingleBits_ofSingleBits`.
-/

-- Powers of naturals are core's `Nat.pow`, as in the definitions these lemmas are about.
attribute [local instance (2000)] instPowNat

namespace ActorCore.Double

/-! ## The fields of a double -/

theorem toNat_exponentField (d : Double) :
    d.exponentField.toNat = d.bits.toNat / 2 ^ 52 % 2 ^ 11 := by
  rw [exponentField, UInt64.toNat_and, UInt64.toNat_shiftRight]
  show d.bits.toNat >>> 52 &&& (2 ^ 11 - 1) = _
  rw [Nat.and_two_pow_sub_one_eq_mod, Nat.shiftRight_eq_div_pow]

theorem toNat_fraction (d : Double) : d.fraction.toNat = d.bits.toNat % 2 ^ 52 := by
  rw [fraction, UInt64.toNat_and]
  exact Nat.and_two_pow_sub_one_eq_mod _ 52

theorem negative_eq (d : Double) : d.negative = decide (2 ^ 63 ≤ d.bits.toNat) := by
  simp [negative, UInt64.le_iff_toNat_le]

theorem isNaN_iff (d : Double) :
    d.isNaN = true ↔ d.exponentField.toNat = 0x7FF ∧ d.fraction.toNat ≠ 0 := by
  simp [isNaN, ← UInt64.toNat_inj]

/-! ## Rounding -/

/-- Rounding is exact when the bits shifted out are all zeros. -/
theorem roundShift_mul_two_pow (m k : Nat) : roundShift (m * 2 ^ k) k = m := by
  have hpos : 0 < 2 ^ k := Nat.two_pow_pos k
  simp only [roundShift, Nat.mul_div_cancel _ hpos, Nat.mul_mod_left, Nat.mul_zero]
  rw [if_neg (by omega)]

theorem roundShift_le (m k : Nat) : roundShift m k ≤ m / 2 ^ k + 1 := by
  simp only [roundShift]
  split <;> omega

/-! ## Magnitudes -/

/-- A subnormal single's fraction, normalized: its leading bit `2 ^ f.log2` becomes the hidden
bit of the double and the bits below it move to the top of the double's fraction. -/
theorem subnormal_normalize {f : Nat} (hf0 : f ≠ 0) (hf : f < 2 ^ 23) :
    f.log2 < 23 ∧ (f - 2 ^ f.log2) * 2 ^ (52 - f.log2) < 2 ^ 52 ∧
      2 ^ 52 + (f - 2 ^ f.log2) * 2 ^ (52 - f.log2) = f * 2 ^ (52 - f.log2) := by
  have hp : f.log2 < 23 := (Nat.log2_lt hf0).mpr hf
  have hlo : 2 ^ f.log2 ≤ f := Nat.log2_self_le hf0
  have hhi : f < 2 ^ f.log2 * 2 := by
    have := Nat.lt_log2_self (n := f)
    rwa [Nat.pow_succ] at this
  -- the hidden bit's place value times the shift is the double's hidden bit
  have hsplit : 2 ^ f.log2 * 2 ^ (52 - f.log2) = 2 ^ 52 := by
    rw [← Nat.pow_add]
    congr 1
    omega
  refine ⟨hp, ?_, ?_⟩
  · rw [← hsplit]
    exact Nat.mul_lt_mul_of_pos_right (by omega) (Nat.two_pow_pos _)
  · rw [← hsplit, ← Nat.add_mul, Nat.add_sub_cancel' hlo]

/-- Splitting `q * 2 ^ 52 + r` into a double's exponent field and fraction field. -/
theorem fields_split {q r : Nat} (hr : r < 2 ^ 52) :
    (q * 2 ^ 52 + r) / 2 ^ 52 = q ∧ (q * 2 ^ 52 + r) % 2 ^ 52 = r := by
  refine ⟨?_, ?_⟩
  · rw [Nat.mul_comm, Nat.mul_add_div (Nat.two_pow_pos 52), Nat.div_eq_of_lt hr, Nat.add_zero]
  · rw [Nat.mul_comm, Nat.mul_add_mod, Nat.mod_eq_of_lt hr]

theorem doubleMagnitude_lt {e f : Nat} (he : e < 2 ^ 8) (hf : f < 2 ^ 23) :
    doubleMagnitude e f < 2 ^ 63 := by
  unfold doubleMagnitude
  split
  · split <;> omega
  · split
    · split
      · decide
      · obtain ⟨hp, hr, -⟩ := subnormal_normalize ‹_› hf
        omega
    · omega

/-- **A single's magnitude survives the round trip through a double**, unless it is a signalling
NaN. -/
theorem singleMagnitude_doubleMagnitude {e f : Nat} (he : e < 2 ^ 8) (hf : f < 2 ^ 23)
    (hquiet : e = 0xFF → f ≠ 0 → 2 ^ 22 ≤ f) :
    singleMagnitude (doubleMagnitude e f / 2 ^ 52) (doubleMagnitude e f % 2 ^ 52) =
      e * 2 ^ 23 + f := by
  by_cases hmax : e = 0xFF
  · subst hmax
    by_cases hf0 : f = 0
    · -- infinity
      subst hf0
      decide
    · -- a quiet NaN: the payload comes back with the quiet bit it already has
      have hq := hquiet rfl hf0
      have hd : doubleMagnitude 0xFF f = 0x7FF * 2 ^ 52 + (2 ^ 51 + f % 2 ^ 22 * 2 ^ 29) := by
        simp only [doubleMagnitude, if_pos, if_neg hf0]
        omega
      obtain ⟨h1, h2⟩ := fields_split (q := 0x7FF) (r := 2 ^ 51 + f % 2 ^ 22 * 2 ^ 29) (by omega)
      rw [hd, h1, h2]
      simp only [singleMagnitude, if_pos]
      rw [if_neg (by omega)]
      omega
  · by_cases hmin : e = 0
    · subst hmin
      by_cases hf0 : f = 0
      · -- zero
        subst hf0
        decide
      · -- a subnormal single is a normal double whose shift back is exact
        obtain ⟨hp, hr, hm⟩ := subnormal_normalize hf0 hf
        have hd : doubleMagnitude 0 f =
            (f.log2 + 874) * 2 ^ 52 + (f - 2 ^ f.log2) * 2 ^ (52 - f.log2) := by
          simp only [doubleMagnitude, if_neg (show (0 : Nat) ≠ 0xFF by decide), if_pos, if_neg hf0]
        obtain ⟨h1, h2⟩ := fields_split (q := f.log2 + 874) hr
        rw [hd, h1, h2]
        simp only [singleMagnitude]
        rw [if_neg (by omega), if_neg (by omega), if_neg (by omega),
          show 926 - (f.log2 + 874) = 52 - f.log2 by omega, hm, roundShift_mul_two_pow]
        omega
    · -- a normal single: the biases differ by 896 and the fraction moves up 29 bits
      have hd : doubleMagnitude e f = (e + 896) * 2 ^ 52 + f * 2 ^ 29 := by
        simp only [doubleMagnitude, if_neg hmax, if_neg hmin]
      obtain ⟨h1, h2⟩ := fields_split (q := e + 896) (r := f * 2 ^ 29) (by omega)
      rw [hd, h1, h2]
      simp only [singleMagnitude]
      rw [if_neg (by omega), if_neg (by omega), if_pos (by omega),
        show 2 ^ 52 + f * 2 ^ 29 = (2 ^ 23 + f) * 2 ^ 29 by omega, roundShift_mul_two_pow]
      omega

/-! ## Reading a single -/

/-- The 32 bits of a single are a signalling NaN: the exponent field all ones, the quiet bit clear
and a nonzero payload, so that the magnitude lies strictly between infinity's and the least quiet
NaN's. -/
def SignalingSingle (b : UInt32) : Prop :=
  0x7F800000 < b.toNat % 2 ^ 31 ∧ b.toNat % 2 ^ 31 < 0x7FC00000

section OfSingle

variable (b : UInt32)

/-- The double a single reads as has its magnitude below the sign bit. -/
theorem doubleMagnitude_fields_lt :
    doubleMagnitude (b.toNat / 2 ^ 23 % 2 ^ 8) (b.toNat % 2 ^ 23) < 2 ^ 63 :=
  doubleMagnitude_lt (Nat.mod_lt _ (Nat.two_pow_pos 8)) (Nat.mod_lt _ (Nat.two_pow_pos 23))

theorem toNat_bits_ofSingleBits :
    (ofSingleBits b).bits.toNat = (if 2 ^ 31 ≤ b.toNat then 2 ^ 63 else 0) +
      doubleMagnitude (b.toNat / 2 ^ 23 % 2 ^ 8) (b.toNat % 2 ^ 23) := by
  have hD := doubleMagnitude_fields_lt b
  simp only [ofSingleBits, Nat.toUInt64_eq, UInt64.toNat_ofNat']
  apply Nat.mod_eq_of_lt
  split <;> omega

theorem negative_ofSingleBits : (ofSingleBits b).negative = decide (2 ^ 31 ≤ b.toNat) := by
  have hD := doubleMagnitude_fields_lt b
  rw [negative_eq, toNat_bits_ofSingleBits]
  by_cases hs : 2 ^ 31 ≤ b.toNat
  · rw [if_pos hs, decide_eq_true hs, decide_eq_true (by omega)]
  · rw [if_neg hs, decide_eq_false hs, decide_eq_false (by omega)]

theorem toNat_exponentField_ofSingleBits :
    (ofSingleBits b).exponentField.toNat =
      doubleMagnitude (b.toNat / 2 ^ 23 % 2 ^ 8) (b.toNat % 2 ^ 23) / 2 ^ 52 := by
  have hD := doubleMagnitude_fields_lt b
  rw [toNat_exponentField, toNat_bits_ofSingleBits]
  split <;> omega

theorem toNat_fraction_ofSingleBits :
    (ofSingleBits b).fraction.toNat =
      doubleMagnitude (b.toNat / 2 ^ 23 % 2 ^ 8) (b.toNat % 2 ^ 23) % 2 ^ 52 := by
  rw [toNat_fraction, toNat_bits_ofSingleBits]
  split <;> omega

/-- **A single read as a double and written back is itself**, unless it is a signalling NaN. -/
theorem toSingleBits_ofSingleBits (h : ¬ SignalingSingle b) :
    (ofSingleBits b).toSingleBits = b := by
  have hlt : b.toNat < 2 ^ 32 := b.toNat_lt
  have hquiet : b.toNat / 2 ^ 23 % 2 ^ 8 = 0xFF → b.toNat % 2 ^ 23 ≠ 0 →
      2 ^ 22 ≤ b.toNat % 2 ^ 23 := by
    intro he hf
    exact Nat.not_lt.mp fun hlow => h ⟨by omega, by omega⟩
  have hmag := singleMagnitude_doubleMagnitude (Nat.mod_lt (b.toNat / 2 ^ 23) (Nat.two_pow_pos 8))
    (Nat.mod_lt b.toNat (Nat.two_pow_pos 23)) hquiet
  unfold toSingleBits
  rw [negative_ofSingleBits, toNat_exponentField_ofSingleBits, toNat_fraction_ofSingleBits, hmag]
  apply UInt32.toNat_inj.mp
  simp only [Nat.toUInt32_eq, UInt32.toNat_ofNat', decide_eq_true_eq]
  split <;> omega

/-- A single that reads as a number is no NaN, and in particular no signalling one. -/
theorem not_signalingSingle_of_isNaN_ofSingleBits (h : (ofSingleBits b).isNaN = false) :
    ¬ SignalingSingle b := by
  rintro ⟨hlo, hhi⟩
  have hd : doubleMagnitude (b.toNat / 2 ^ 23 % 2 ^ 8) (b.toNat % 2 ^ 23) =
      0x7FF * 2 ^ 52 + (2 ^ 51 + b.toNat % 2 ^ 23 % 2 ^ 22 * 2 ^ 29) := by
    rw [doubleMagnitude, if_pos (by omega), if_neg (by omega)]
    omega
  obtain ⟨h1, h2⟩ := fields_split (q := 0x7FF) (r := 2 ^ 51 + b.toNat % 2 ^ 23 % 2 ^ 22 * 2 ^ 29)
    (by omega)
  have hnan : (ofSingleBits b).isNaN = true := by
    rw [isNaN_iff, toNat_exponentField_ofSingleBits, toNat_fraction_ofSingleBits, hd, h1, h2]
    omega
  rw [h] at hnan
  cases hnan

end OfSingle

/-! ## Writing a single -/

theorem singleMagnitude_lt (e f : Nat) (hf : f < 2 ^ 52) :
    singleMagnitude e f < 2 ^ 31 ∧ ¬ (0x7F800000 < singleMagnitude e f ∧
      singleMagnitude e f < 0x7FC00000) := by
  unfold singleMagnitude
  split
  · split <;> omega
  · split
    · omega
    · split
      · omega
      · -- a subnormal single: the shift is at least 30 bits, so the result is tiny
        have hk : 2 ^ 30 ≤ 2 ^ (926 - e) := Nat.pow_le_pow_right (by decide) (by omega)
        have hq : (2 ^ 52 + f) / 2 ^ (926 - e) ≤ (2 ^ 52 + f) / 2 ^ 30 :=
          Nat.div_le_div_left hk (Nat.two_pow_pos 30)
        have := roundShift_le (2 ^ 52 + f) (926 - e)
        omega

/-- **A single written from a double is never a signalling NaN**: a NaN is written quiet. -/
theorem not_signalingSingle_toSingleBits (d : Double) : ¬ SignalingSingle d.toSingleBits := by
  have hf : d.fraction.toNat < 2 ^ 52 := by
    rw [toNat_fraction]
    exact Nat.mod_lt _ (Nat.two_pow_pos 52)
  obtain ⟨hlt, hnot⟩ := singleMagnitude_lt d.exponentField.toNat d.fraction.toNat hf
  unfold SignalingSingle toSingleBits
  simp only [Nat.toUInt32_eq, UInt32.toNat_ofNat']
  split <;> omega

end ActorCore.Double
