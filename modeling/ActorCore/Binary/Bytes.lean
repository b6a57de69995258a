import ActorCore.Fault

/-!
# Byte strings

What can be asked of a byte string: its size in bytes and bits, its text when it is valid
UTF-8, the byte at a position, and the sum of its bytes. Reading past the end by position is a
panic that names the length and the position.
-/

namespace ActorCore.Binary

/-- The number of bits: eight per byte. -/
def bitSize (bytes : List UInt8) : Nat :=
  8 * bytes.length

/-- The text the bytes spell, when they are valid UTF-8. -/
def text? (bytes : List UInt8) : Option String :=
  String.fromUTF8? ⟨bytes.toArray⟩

/-- The byte at a position; a position past the end panics. -/
def byteAt (bytes : List UInt8) (i : Nat) : Except Panic UInt8 :=
  match bytes[i]? with
  | some b => .ok b
  | none => .error (.text s!"index out of bounds: the len is {bytes.length} but the index is {i}")

/-- The sum of the bytes. -/
def byteSum (bytes : List UInt8) : Nat :=
  bytes.foldl (fun acc b => acc + b.toNat) 0

end ActorCore.Binary
