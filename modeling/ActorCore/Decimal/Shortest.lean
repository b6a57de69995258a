import ActorCore.Number.Double

/-!
# Shortest decimal digits of a double

A finite nonzero double is `m · 2^q`. The reals that round to it form an interval around it,
whose ends belong to it exactly when `m` is even (a tie rounds to the even significand).
`Binary.shortest` finds the fewest decimal digits `d` and a power `p` such that `d · 10^p` lies
in that interval, and of two such numbers with that many digits the one nearer to the double,
a tie going to the larger one.

* `read` — the sign, significand and exponent of a double, read off its bits.
* `Binary.admits` — a decimal number lies in the rounding interval (exact `Nat` arithmetic).
* `Binary.nearestAt` — the nearer of the two neighbours of the double on the grid of `10^p`
  that lies in the interval, if one does.
* `Binary.shortest` — the shortest digits, as `(d, p)` with no trailing zeros in `d`.

If a point of the grid `10^p` lies in the interval, then so does one of the two grid points
around the double, so trying the neighbours for 1, 2, ... 17 significant digits finds the
shortest digits; 17 digits always suffice for a double.
-/

-- Powers of naturals stay core's `Nat.pow` where Mathlib is in scope too, and literal
-- exponents are written as `Nat`, so that these definitions mean the same with or without it.
attribute [local instance (2000)] instPowNat

namespace ActorCore.Decimal

/-- A finite nonzero double without its sign: the value `mantissa · 2^exponent`. -/
structure Binary where
  mantissa : Nat
  exponent : Int
  /-- The double below is nearer than the double above: the significand is a power of two
  and the exponent is not the least normal one. -/
  narrowBelow : Bool

/-- A double, classified by its bits. -/
inductive Reading where
  | nan
  | infinite (negative : Bool)
  | zero (negative : Bool)
  | finite (negative : Bool) (b : Binary)

/-- Reads the sign, the biased exponent and the fraction field of a double. -/
def read (x : Double) : Reading :=
  let bits : Nat := x.bits.toNat
  let negative := decide (bits ≥ 2 ^ (63 : Nat))
  let biased : Nat := (bits / 2 ^ (52 : Nat)) % 2 ^ (11 : Nat)
  let fraction : Nat := bits % 2 ^ (52 : Nat)
  if biased = 2047 then
    if fraction = 0 then .infinite negative else .nan
  else if biased = 0 then
    if fraction = 0 then .zero negative else .finite negative ⟨fraction, -1074, false⟩
  else
    .finite negative
      ⟨fraction + 2 ^ (52 : Nat), (biased : Int) - 1075, fraction = 0 && biased > 1⟩

/-- Compares `d · 10^p` with `k · 2^e` exactly. -/
def compareScaled (d : Nat) (p : Int) (k : Nat) (e : Int) : Ordering :=
  compare (d * 10 ^ p.toNat * 2 ^ (-e).toNat) (k * 2 ^ e.toNat * 10 ^ (-p).toNat)

/-- The number of decimal digits of a positive number. -/
def digitCount (n : Nat) : Nat :=
  (Nat.toDigits 10 n).length

namespace Binary

/-- `d · 10^p` lies in the interval of reals that round to the double: within half the gap
to each neighbour, the ends included when the significand is even. -/
def admits (b : Binary) (d : Nat) (p : Int) : Bool :=
  let unit := b.exponent - 2
  let lowK := if b.narrowBelow then 4 * b.mantissa - 1 else 4 * b.mantissa - 2
  let highK := 4 * b.mantissa + 2
  let low := compareScaled d p lowK unit
  let high := compareScaled d p highK unit
  if b.mantissa % 2 = 0 then low != .lt && high != .gt else low == .gt && high == .lt

/-- The decimal exponent `E` of the double: `10^(E-1) ≤ m · 2^q < 10^E`. -/
def decimalExponent (b : Binary) : Int :=
  if 0 ≤ b.exponent then
    digitCount (b.mantissa * 2 ^ b.exponent.toNat)
  else
    let s := (-b.exponent).toNat
    if 2 ^ s ≤ b.mantissa then digitCount (b.mantissa / 2 ^ s)
    else 1 - digitCount ((2 ^ s + b.mantissa - 1) / b.mantissa - 1)

/-- Of the two multiples of `10^p` around the double, the nearer one that lies in the rounding
interval, as a multiple of `10^p`, the upper one when both are as near; the double itself when
it is such a multiple. -/
def nearestAt (b : Binary) (p : Int) : Option Nat :=
  let num := b.mantissa * 2 ^ b.exponent.toNat * 10 ^ (-p).toNat
  let den := 2 ^ (-b.exponent).toNat * 10 ^ p.toNat
  let below := num / den
  if num % den = 0 then some below
  else
    match b.admits below p, b.admits (below + 1) p with
    | true, true =>
      if 2 * num < (2 * below + 1) * den then some below else some (below + 1)
    | true, false => some below
    | false, true => some (below + 1)
    | false, false => none

/-- Removes trailing zeros from `d`, raising the power `p` to keep `d · 10^p`. -/
def stripZeros : Nat → Nat → Int → Nat × Int
  | 0, d, p => (d, p)
  | fuel + 1, d, p => if d ≠ 0 ∧ d % 10 = 0 then stripZeros fuel (d / 10) (p + 1) else (d, p)

/-- The shortest decimal digits that read back as the double: `(d, p)` with `d · 10^p` in the
rounding interval, `d` as short as possible and without trailing zeros. -/
def shortest (b : Binary) : Nat × Int :=
  let e := b.decimalExponent
  let found := (List.range 17).findSome? fun (i : Nat) =>
    let p := e - ((i : Int) + 1)
    (b.nearestAt p).map fun d => (d, p)
  let (d, p) := found.getD ((b.nearestAt (e - 17)).getD 0, e - 17)
  stripZeros (digitCount d) d p

end Binary

end ActorCore.Decimal
