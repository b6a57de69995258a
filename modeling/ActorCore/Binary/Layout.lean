import ActorCore.Binary.Encode

/-!
# Layout of a binary pattern

A binary pattern is laid out once, from its segments: each segment gets a window of the
candidate binary. A segment holding a value gets a window as long as the value's bytes, which the
template holds; a segment holding a pattern gets a window of its width, zeros in the template,
or, when it has no size and is the last segment, the open window of all remaining bytes.
Windows follow each other without gaps, from the start.

* `Layout.build` — the windows and template of segments, or the error of the first segment
  that cannot be laid out.
* `Layout.fixedWidth` — the length of every binary the pattern can match, unless the last window
  is open.
* `Layout.fits` — a candidate of this length can match.
-/

namespace ActorCore.Binary

/-- The bytes of a candidate that one segment of a pattern reads. -/
inductive Window where
  /-- `len` bytes from `start`. -/
  | span (start len : Nat)
  /-- Every byte from `start` on. -/
  | rest (start : Nat)
  deriving DecidableEq, Repr

/-- The bytes of a window, if the binary reaches that far. -/
def Window.slice (w : Window) (bytes : List UInt8) : Option (List UInt8) :=
  match w with
  | .span start len => if start + len ≤ bytes.length then some ((bytes.drop start).take len) else none
  | .rest start => if start ≤ bytes.length then some (bytes.drop start) else none

/-- The windows of a binary pattern, one per segment, and the bytes its values fix. -/
structure Layout where
  windows : List Window
  template : List UInt8
  deriving DecidableEq, Repr

namespace Layout

/-- Lays out segments holding values (`some`) or patterns (`none`), the segment at `index` next
and `count` segments in all. -/
def buildFrom (count : Nat) : Nat → Layout → List (Spec × Option Term) → Except Error Layout
  | _, acc, [] => .ok acc
  | index, acc, (s, slot) :: rest => do
    let start := acc.template.length
    match slot with
    | some v =>
      let bytes ← encode s v
      buildFrom count (index + 1)
        ⟨acc.windows ++ [.span start bytes.length], acc.template ++ bytes⟩ rest
    | none =>
      match ← s.width with
      | some len =>
        buildFrom count (index + 1)
          ⟨acc.windows ++ [.span start len], acc.template ++ List.replicate len 0⟩ rest
      | none =>
        if index + 1 = count then
          buildFrom count (index + 1) ⟨acc.windows ++ [.rest start], acc.template⟩ rest
        else .error (.unsizedSegment index)

/-- The layout of segments holding values (`some`) or patterns (`none`). -/
def build (segments : List (Spec × Option Term)) : Except Error Layout :=
  buildFrom segments.length 0 ⟨[], []⟩ segments

/-- The length of every binary the pattern matches, unless its last window is open. -/
def fixedWidth (l : Layout) : Option Nat :=
  match l.windows.getLast? with
  | some (.rest _) => none
  | _ => some l.template.length

/-- A candidate of `n` bytes has the pattern's length: exactly the template's, or at least
that when the last window is open. -/
def fits (l : Layout) (n : Nat) : Bool :=
  match l.fixedWidth with
  | some total => n == total
  | none => l.template.length ≤ n

end Layout

end ActorCore.Binary
