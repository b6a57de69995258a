import ActorCore.Binary.Spec

/-!
# Writing segments

`encode` writes one value by a segment format, and `build` writes a whole binary.

* integers are written in two's complement, cut to the segment's width (most significant bytes
  dropped), big-endian unless the format says little-endian;
* doubles (or integers, converted to the nearest double) as IEEE binary64, or binary32 when the
  segment is 32 bits wide, the bytes reversed for little-endian;
* binaries and bitstrings from a byte string or the UTF-8 bytes of a string;
* the UTF types from a string or an integer code point, each UTF-16 or UTF-32 code unit in the
  segment's byte order.

A sized binary, bitstring or UTF segment takes the first bytes of its value, and fails when the
value is shorter. The width is checked before the value.
-/

-- Powers of naturals stay core's `Nat.pow` where Mathlib is in scope too, and literal
-- exponents are written as `Nat`, so that these definitions mean the same with or without it.
attribute [local instance (2000)] instPowNat

namespace ActorCore.Binary

/-- The `w` least significant bytes of `v`, most significant first. -/
def bigEndian : Nat → Nat → List UInt8
  | 0, _ => []
  | w + 1, v => bigEndian w (v / 256) ++ [(v % 256).toUInt8]

/-- The number that bytes spell, most significant first. -/
def ofBigEndian (bytes : List UInt8) : Nat :=
  bytes.foldl (fun acc b => acc * 256 + b.toNat) 0

/-- The `w` bytes of `v` in the chosen byte order. -/
def ordered (little : Bool) (w v : Nat) : List UInt8 :=
  if little then (bigEndian w v).reverse else bigEndian w v

/-- The number that bytes spell in the chosen byte order. -/
def word (little : Bool) (bytes : List UInt8) : Nat :=
  ofBigEndian (if little then bytes.reverse else bytes)

/-- The UTF-16 code units of a character: itself below U+10000, else a surrogate pair. -/
def utf16Units (c : Char) : List Nat :=
  if c.toNat < 0x10000 then [c.toNat]
  else
    let v := c.toNat - 0x10000
    [0xD800 + v / 0x400, 0xDC00 + v % 0x400]

/-- The UTF-8 bytes of a string. -/
def utf8Bytes (s : String) : List UInt8 :=
  s.toUTF8.data.toList

/-- The bytes of a text in a UTF format: its UTF-8 bytes, or each of its UTF-16 or UTF-32 code
units in the chosen byte order. -/
def textBytes (type : SegmentType) (little : Bool) (text : String) : List UInt8 :=
  match type with
  | .utf16 => text.toList.flatMap fun c => (utf16Units c).flatMap (ordered little 2)
  | .utf32 => text.toList.flatMap fun c => ordered little 4 c.toNat
  | _ => utf8Bytes text

/-- The character with a code point, if the code point is a Unicode scalar value. -/
def charOf? (n : Nat) : Option Char :=
  if n.isValidChar then some (Char.ofNat n) else none

/-- The text a UTF segment writes: a string, or the character of an integer code point. -/
def textOf? : Term → Option String
  | .str s => some s
  | .int n => if 0 ≤ n then (charOf? n.toNat).map Char.toString else none
  | _ => none

/-- The first `needed` bytes, when the segment has a width. -/
def takePrefix (type : SegmentType) (bytes : List UInt8) : Option Nat → Except Error (List UInt8)
  | none => .ok bytes
  | some needed =>
    if bytes.length < needed then .error (.insufficientBytes type needed bytes.length)
    else .ok (bytes.take needed)

/-- The bytes of one value written by a segment format. -/
def encode (s : Spec) (v : Term) : Except Error (List UInt8) := do
  let width ← s.width
  let little := s.littleEndian
  let bad : Error := .badValue s.type v
  match s.type with
  | .integer =>
    match v with
    | .int n => pure (ordered little (width.getD 1) (n % 2 ^ (64 : Nat)).toNat)
    | _ => throw bad
  | .float =>
    let x ← match v with
      | .float x => pure x
      | .int n => pure (Double.ofInt n)
      | _ => throw bad
    if width = some 4 then pure (ordered little 4 x.toSingleBits.toNat)
    else pure (ordered little 8 x.bits.toNat)
  | .binary | .bitstring =>
    match v with
    | .bits bytes => takePrefix s.type bytes width
    | .str text => takePrefix s.type (utf8Bytes text) width
    | _ => throw bad
  | .utf8 | .utf16 | .utf32 =>
    match textOf? v with
    | some text => takePrefix s.type (textBytes s.type little text) width
    | none => throw bad

/-- The bytes of a binary whose segments hold values (`some`) or patterns (`none`): the
segments' bytes in order, or the error of the first segment that cannot be written. -/
def build (segments : List (Spec × Option Term)) : Except Error (List UInt8) :=
  go 0 segments
where
  /-- Writes the segments from position `index` on. -/
  go (index : Nat) : List (Spec × Option Term) → Except Error (List UInt8)
    | [] => .ok []
    | (_, none) :: _ => .error (.unboundSegment index)
    | (s, some v) :: rest => do
      let bytes ← encode s v
      let later ← go (index + 1) rest
      pure (bytes ++ later)

end ActorCore.Binary
