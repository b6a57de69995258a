/-!
# Doubles by their bits

A double is kept as its 64 bits: a sign bit, an 11-bit exponent field and a 52-bit fraction
field. Keeping the bits, rather than a machine float, keeps what a float value hides: the sign
and the payload of a NaN, which a byte string built from the double must show.

* `Double.isNaN`, `Double.isZero` — read off the fields.
* `Double.neg` — flips the sign bit, for NaNs too.
* `Double.beq` — the IEEE comparison: a NaN equals nothing, the two zeros are equal, and other
  doubles are equal exactly when their bits are.
* `Double.toSingleBits` / `Double.ofSingleBits` — conversion to and from the 32 bits of a
  single, computed on the fields: a number is rounded to the nearest single, ties to even; a NaN
  keeps its sign and the leading bits of its payload and becomes quiet.
-/

-- Powers of naturals stay core's `Nat.pow` where Mathlib is in scope too, and literal
-- exponents are written as `Nat`, so that these definitions mean the same with or without it.
attribute [local instance (2000)] instPowNat

namespace ActorCore

/-- A double, as its 64 bits. -/
structure Double where
  bits : UInt64
  deriving DecidableEq, Repr

namespace Double

/-- The double of a machine float. -/
def ofFloat (x : Float) : Double :=
  ⟨x.toBits⟩

/-- The nearest double to an integer. -/
def ofInt (n : Int) : Double :=
  ofFloat (Float.ofInt n)

/-- The plain NaN: positive and quiet, with no other payload bit; the NaN that the text `NaN`
reads as. -/
def nan : Double :=
  ⟨0x7FF8000000000000⟩

/-- The sign bit is set. -/
def negative (d : Double) : Bool :=
  d.bits ≥ 0x8000000000000000

/-- The exponent field. -/
def exponentField (d : Double) : UInt64 :=
  (d.bits >>> 52) &&& 0x7FF

/-- The fraction field. -/
def fraction (d : Double) : UInt64 :=
  d.bits &&& 0xFFFFFFFFFFFFF

/-- A NaN: the exponent field all ones and a nonzero fraction. -/
def isNaN (d : Double) : Bool :=
  d.exponentField == 0x7FF && d.fraction != 0

/-- Positive or negative zero. -/
def isZero (d : Double) : Bool :=
  d.bits &&& 0x7FFFFFFFFFFFFFFF == 0

/-- The double with the sign bit flipped. -/
def neg (d : Double) : Double :=
  ⟨d.bits ^^^ 0x8000000000000000⟩

/-- The IEEE comparison of doubles. -/
def beq (a b : Double) : Bool :=
  !a.isNaN && !b.isNaN && (a.bits == b.bits || (a.isZero && b.isZero))

/-- `m / 2 ^ k` rounded to the nearest integer, ties to even. -/
def roundShift (m k : Nat) : Nat :=
  let q := m / 2 ^ k
  let r := m % 2 ^ k
  if 2 ^ k < 2 * r ∨ (2 * r = 2 ^ k ∧ q % 2 = 1) then q + 1 else q

/-- All bits but the sign of the single nearest to the double with exponent field `e` and
fraction field `f`. An infinity stays infinite and a number too large for a single becomes
infinite; a subnormal double is far below the least single and becomes zero; a NaN keeps the
leading 22 bits of its payload and becomes quiet. A double of exponent `e` has the mantissa
`2 ^ 52 + f`; it is shifted to the single's 24 bits, or further for a subnormal single, and the
carry of the rounding runs into the exponent field. -/
def singleMagnitude (e f : Nat) : Nat :=
  if e = 0x7FF then
    if f = 0 then 0x7F800000 else 0x7FC00000 + f / 2 ^ (29 : Nat) % 2 ^ (22 : Nat)
  else if e = 0 then 0
  else if 896 < e then
    min 0x7F800000 ((e - 897) * 2 ^ (23 : Nat) + roundShift (2 ^ (52 : Nat) + f) 29)
  else roundShift (2 ^ (52 : Nat) + f) (926 - e)

/-- All bits but the sign of the double equal to the single with exponent field `e` and fraction
field `f`; a subnormal single becomes a normal double, its leading bit made the hidden bit, and a
NaN keeps its payload and becomes quiet. -/
def doubleMagnitude (e f : Nat) : Nat :=
  if e = 0xFF then
    if f = 0 then 0x7FF * 2 ^ (52 : Nat)
    else 0x7FF8000000000000 + f % 2 ^ (22 : Nat) * 2 ^ (29 : Nat)
  else if e = 0 then
    if f = 0 then 0 else (f.log2 + 874) * 2 ^ (52 : Nat) + (f - 2 ^ f.log2) * 2 ^ (52 - f.log2)
  else (e + 896) * 2 ^ (52 : Nat) + f * 2 ^ (29 : Nat)

/-- The 32 bits of the nearest single, rounding ties to even; a NaN keeps its sign and the
leading 22 bits of its payload, with the quiet bit set. -/
def toSingleBits (d : Double) : UInt32 :=
  ((if d.negative then 2 ^ (31 : Nat) else 0) +
    singleMagnitude d.exponentField.toNat d.fraction.toNat).toUInt32

/-- The double of the 32 bits of a single; a NaN keeps its sign and its payload, with the quiet
bit set. -/
def ofSingleBits (b : UInt32) : Double :=
  ⟨((if 2 ^ (31 : Nat) ≤ b.toNat then 2 ^ (63 : Nat) else 0) +
    doubleMagnitude (b.toNat / 2 ^ (23 : Nat) % 2 ^ (8 : Nat))
      (b.toNat % 2 ^ (23 : Nat))).toUInt64⟩

theorem beq_comm (a b : Double) : beq a b = beq b a := by
  have h : (a.bits == b.bits) = (b.bits == a.bits) := BEq.comm
  unfold beq
  rw [h, Bool.and_comm a.isZero]
  cases a.isNaN <;> cases b.isNaN <;> rfl

theorem neg_neg (d : Double) : d.neg.neg = d := by
  unfold neg
  rw [UInt64.xor_assoc, UInt64.xor_self, UInt64.xor_zero]

end Double

end ActorCore
