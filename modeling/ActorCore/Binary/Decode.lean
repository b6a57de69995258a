import ActorCore.Binary.Encode

/-!
# Reading segments

`decode` reads the bytes of one window of a binary by a segment format, the reverse of
`encode`:

* integers of at most 8 bytes, in the segment's byte order, sign-extended when the segment is
  signed and narrower than 64 bits; 8 bytes are read as a 64-bit two's complement integer;
* doubles of exactly 4 or 8 bytes;
* binaries and bitstrings as the byte string itself;
* UTF-8, UTF-16 and UTF-32 text that must decode completely.

A window that cannot be read gives `none`.
-/

-- Powers of naturals stay core's `Nat.pow` where Mathlib is in scope too, and literal
-- exponents are written as `Nat`, so that these definitions mean the same with or without it.
attribute [local instance (2000)] instPowNat

namespace ActorCore.Binary

/-- Pairs of bytes, or `none` for an odd count. -/
def pairs : List UInt8 → Option (List (UInt8 × UInt8))
  | [] => some []
  | a :: b :: rest => (pairs rest).map ((a, b) :: ·)
  | [_] => none

/-- Groups of four bytes, or `none` when the count is not a multiple of four. -/
def quads : List UInt8 → Option (List (List UInt8))
  | [] => some []
  | a :: b :: c :: d :: rest => (quads rest).map ([a, b, c, d] :: ·)
  | _ => none

/-- The characters of UTF-16 code units; a surrogate that is not part of a pair fails. -/
def ofUtf16Units : List Nat → Option (List Char)
  | [] => some []
  | [u] => if 0xD800 ≤ u ∧ u < 0xE000 then none else (charOf? u).map ([·])
  | u :: w :: rest =>
    if 0xD800 ≤ u ∧ u < 0xDC00 then
      if 0xDC00 ≤ w ∧ w < 0xE000 then do
        let c ← charOf? (0x10000 + (u - 0xD800) * 0x400 + (w - 0xDC00))
        let cs ← ofUtf16Units rest
        pure (c :: cs)
      else none
    else if 0xDC00 ≤ u ∧ u < 0xE000 then none
    else do
      let c ← charOf? u
      let cs ← ofUtf16Units (w :: rest)
      pure (c :: cs)

/-- A signed or unsigned integer of at most 8 bytes, as a 64-bit integer. -/
def decodeInt (signed : Bool) (bytes : List UInt8) : Int :=
  let n := ofBigEndian bytes
  let bits := 8 * bytes.length
  if signed ∧ 0 < bits ∧ bits < 64 ∧ 2 ^ (bits - 1) ≤ n then (n : Int) - 2 ^ bits
  else if 2 ^ (63 : Nat) ≤ n then (n : Int) - 2 ^ (64 : Nat)
  else n

/-- The value of a window read by a segment format. -/
def decode (s : Spec) (window : List UInt8) : Option Term :=
  let little := s.littleEndian
  let inOrder := if little then window.reverse else window
  match s.type with
  | .integer => if window.length > 8 then none else some (.int (decodeInt s.signed inOrder))
  | .float =>
    if window.length = 4 then some (.float (Double.ofSingleBits (word little window).toUInt32))
    else if window.length = 8 then some (.float ⟨(word little window).toUInt64⟩)
    else none
  | .binary | .bitstring => some (.bits window)
  | .utf8 => (String.fromUTF8? ⟨window.toArray⟩).map .str
  | .utf16 => do
    let ps ← pairs window
    let cs ← ofUtf16Units (ps.map fun p => word little [p.1, p.2])
    pure (.str (String.ofList cs))
  | .utf32 => do
    let qs ← quads window
    let cs ← qs.mapM fun q => charOf? (word little q)
    pure (.str (String.ofList cs))

end ActorCore.Binary
