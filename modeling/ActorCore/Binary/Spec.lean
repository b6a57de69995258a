import ActorCore.Term.Inspect

/-!
# Segment formats

A segment of a binary is written by its format: a type, an optional size, an optional unit,
and attributes. Its width in bits is `size · unit`, counted in 32 bits, where integers default to size 8, doubles to
size 64 and the other types to no size at all; the unit defaults to 1 for integers, doubles and
bitstrings and to 8 for binaries and the three UTF encodings.

* `Spec.width` — the width in whole bytes, if the segment has a size; a width that is not a whole
  number of bytes, a double that is neither 32 nor 64 bits wide and an integer wider than 64
  bits are errors, checked in that order.
* `Spec.signed`, `Spec.littleEndian` — the last signedness attribute and the last endianness
  attribute win; native order is little-endian.
* `Binary.Error` — why a binary cannot be built or a binary pattern laid out, with its message.
-/

-- Powers of naturals stay core's `Nat.pow` where Mathlib is in scope too, and literal
-- exponents are written as `Nat`, so that these definitions mean the same with or without it.
attribute [local instance (2000)] instPowNat

namespace ActorCore.Binary

/-- The types a segment can have. -/
inductive SegmentType where
  | integer
  | float
  | binary
  | utf8
  | utf16
  | utf32
  | bitstring
  deriving DecidableEq, Repr

namespace SegmentType

/-- The name of a segment type. -/
def name : SegmentType → String
  | .integer => "integer"
  | .float => "float"
  | .binary => "binary"
  | .utf8 => "utf8"
  | .utf16 => "utf16"
  | .utf32 => "utf32"
  | .bitstring => "bitstring"

/-- Every segment type. -/
def all : List SegmentType := [.integer, .float, .binary, .utf8, .utf16, .utf32, .bitstring]

/-- The segment type with a given name. -/
def ofName? (s : String) : Option SegmentType :=
  all.find? (·.name == s)

/-- The unit of a segment that does not give one. -/
def defaultUnit : SegmentType → Nat
  | .integer | .float | .bitstring => 1
  | .binary | .utf8 | .utf16 | .utf32 => 8

/-- The size of a segment that does not give one. -/
def defaultSize : SegmentType → Option Nat
  | .integer => some 8
  | .float => some 64
  | _ => none

end SegmentType

/-- Attributes of a segment: signedness and byte order. -/
inductive Attr where
  | signed
  | unsigned
  | big
  | little
  | native
  deriving DecidableEq, Repr

/-- The attribute with a given name. -/
def Attr.ofName? : String → Option Attr
  | "signed" => some .signed
  | "unsigned" => some .unsigned
  | "big" => some .big
  | "little" => some .little
  | "native" => some .native
  | _ => none

/-- The format of a segment. -/
structure Spec where
  type : SegmentType
  size : Option Nat := none
  unit : Option Nat := none
  attrs : List Attr := []
  deriving DecidableEq, Repr

/-- Why a binary cannot be built, or a binary pattern laid out. -/
inductive Error where
  | invalidFloatSize (bits : UInt32)
  | unsizedSegment (index : Nat)
  | notByteAligned (bits : UInt32)
  | integerTooWide (bits : UInt32)
  | badValue (type : SegmentType) (value : Term)
  | insufficientBytes (type : SegmentType) (needed available : Nat)
  | unboundSegment (index : Nat)

namespace Error

/-- The name of the kind of error. -/
def kindName : Error → String
  | .invalidFloatSize _ => "InvalidFloatSize"
  | .unsizedSegment _ => "UnsizedSegment"
  | .notByteAligned _ => "NotByteAligned"
  | .integerTooWide _ => "IntegerTooWide"
  | .badValue _ _ => "BadValue"
  | .insufficientBytes _ _ _ => "InsufficientBytes"
  | .unboundSegment _ => "UnboundSegment"

/-- What went wrong, in words. -/
def message : Error → String
  | .invalidFloatSize bits => s!"float segments must be 32 or 64 bits wide, got {bits}"
  | .unsizedSegment index => s!"segment {index} has no size and is not the last segment"
  | .notByteAligned bits => s!"segment width of {bits} bits is not a whole number of bytes"
  | .integerTooWide bits => s!"integer segments can be at most 64 bits wide, got {bits}"
  | .badValue type value => "cannot encode " ++ value.inspect ++ " as a " ++ type.name ++ " segment"
  | .insufficientBytes type needed available =>
    type.name ++ s!" segment needs {needed} bytes but the value has {available}"
  | .unboundSegment index => s!"segment {index} holds a pattern and cannot be encoded"

end Error

namespace Spec

/-- The width in bits: the size (or the type's default) times the unit (or the default), counted
in 32 bits, so that a product of `2 ^ 32` or more wraps around. -/
def bits (s : Spec) : Option Nat :=
  (s.size <|> s.type.defaultSize).map (fun n => n * s.unit.getD s.type.defaultUnit % 2 ^ (32 : Nat))

/-- The width in whole bytes, if the segment has a size. -/
def width (s : Spec) : Except Error (Option Nat) :=
  match s.bits with
  | none => .ok none
  | some b =>
    if b % 8 ≠ 0 then .error (.notByteAligned b.toUInt32)
    else if s.type = .float ∧ b ≠ 32 ∧ b ≠ 64 then .error (.invalidFloatSize b.toUInt32)
    else if s.type = .integer ∧ b > 64 then .error (.integerTooWide b.toUInt32)
    else .ok (some (b / 8))

/-- Signedness: the last of `signed` and `unsigned` wins; unsigned by default. -/
def signed (s : Spec) : Bool :=
  match s.attrs.reverse.find? (fun a => a = .signed ∨ a = .unsigned) with
  | some a => a = .signed
  | none => false

/-- Byte order: the last of `big`, `little` and `native` wins; native order is little-endian,
and the default is big-endian. -/
def littleEndian (s : Spec) : Bool :=
  match s.attrs.reverse.find? (fun a => a = .big ∨ a = .little ∨ a = .native) with
  | some a => a ≠ .big
  | none => false

end Spec

end ActorCore.Binary
