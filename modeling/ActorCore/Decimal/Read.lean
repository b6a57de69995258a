import ActorCore.Number.Double

/-!
# Reading decimal text as a double

`readFloat?` accepts an optional sign followed by `inf`, `infinity` or `nan` in any case, or by
decimal digits with an optional point and an optional exponent (`e` or `E`, an optional sign and
at least one digit), with at least one digit before the exponent. The value is the double
nearest to the decimal number; beyond the range of doubles it is infinite, below it zero.
-/

-- Powers of naturals stay core's `Nat.pow` where Mathlib is in scope too, so that these
-- definitions mean the same with or without it.
attribute [local instance (2000)] instPowNat

namespace ActorCore.Decimal

/-- A run of leading decimal digits: the number they spell, their count, and the rest. -/
def takeDigits : List Char → Nat × Nat × List Char
  | c :: cs =>
    if c.isDigit then
      let (n, k, rest) := takeDigits cs
      -- digits are read most significant first, so the count places this digit
      (10 ^ k * (c.toNat - '0'.toNat) + n, k + 1, rest)
    else (0, 0, c :: cs)
  | [] => (0, 0, [])

/-- An optional sign in front of the rest: `true` for a minus sign. -/
def takeSign : List Char → Bool × List Char
  | '-' :: cs => (true, cs)
  | '+' :: cs => (false, cs)
  | cs => (false, cs)

/-- The double nearest to `m · 10^e`. -/
def scientific (m : Nat) (e : Int) : Float :=
  if m = 0 then 0.0
  -- far outside the range of doubles the answer is already known
  else if e + (Nat.toDigits 10 m).length > 310 then 1.0 / 0.0
  else if e + (Nat.toDigits 10 m).length < -330 then 0.0
  else if 0 ≤ e then Float.ofScientific m false e.toNat
  else Float.ofScientific m true (-e).toNat

/-- The unsigned number of a decimal text: digits, an optional point and fraction, and an
optional exponent. -/
def readUnsigned? (cs : List Char) : Option Float :=
  let lower := cs.map Char.toLower
  if lower = "inf".toList || lower = "infinity".toList then some (1.0 / 0.0)
  else if lower = "nan".toList then some (0.0 / 0.0)
  else
    let (whole, wholeCount, afterWhole) := takeDigits cs
    let (frac, fracCount, afterFrac) := match afterWhole with
      | '.' :: rest => takeDigits rest
      | rest => (0, 0, rest)
    if wholeCount + fracCount = 0 then none
    else
      let mantissa := whole * 10 ^ fracCount + frac
      match afterFrac with
      | [] => some (scientific mantissa (-(fracCount : Int)))
      | c :: rest =>
        if c = 'e' || c = 'E' then
          let (negative, digits) := takeSign rest
          let (exp, expCount, tail) := takeDigits digits
          if expCount = 0 || !tail.isEmpty then none
          else
            let e : Int := if negative then -(exp : Int) else exp
            some (scientific mantissa (e - fracCount))
        else none

/-- Reads a decimal text as the nearest double; a minus sign flips the sign bit, of a NaN too. -/
def readFloat? (s : String) : Option Double :=
  let (negative, rest) := takeSign s.toList
  (readUnsigned? rest).map fun x => if negative then (Double.ofFloat x).neg else Double.ofFloat x

end ActorCore.Decimal
