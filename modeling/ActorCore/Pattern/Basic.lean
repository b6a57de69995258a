import ActorCore.Binary.Spec
import ActorCore.Term.Basic

/-!
# Patterns and bindings

A pattern describes the terms it accepts and the values it binds. Its leaves (literals, pinned
values, map keys, defaults and the values in binary segments) have a type parameter: closed
terms, or expressions that a process script fills in when it runs.

* `Pattern` — variables (named, unnamed or ignored, with an optional default), the wildcard,
  head and tail of a list, a string prefix, a capture of the whole value, a pinned value, a
  record of a given name, a binary, lists, tuples, literals and maps.
* `Segment` — a segment of a binary pattern: a value the bytes must spell, or a pattern the
  decoded bytes must match.
* `Binding`, `Bindings` — the values a match binds, in pattern order, each with the name it is
  checked under; `Bindings.consistent` — every name is bound to strictly equal values.
-/

namespace ActorCore

mutual

/-- A pattern whose leaves are of type `α`. -/
inductive Pattern (α : Type) where
  | var (name : Option String) (ignored : Bool) (default : Option α)
  | wildcard
  | headTail (head tail : Pattern α)
  | startsWith (pre : String)
  | capture (inner : Pattern α)
  | bound (value : α)
  | record (name : String) (fields : List (α × Pattern α))
  | binary (segments : List (Segment α))
  | list (items : List (Pattern α))
  | tuple (items : List (Pattern α))
  | literal (value : α)
  | map (entries : List (α × Pattern α))

/-- A segment of a binary pattern or a binary: a value to write (`value`) or a pattern that
reads the segment's bytes (`hole`), with the segment's format. -/
inductive Segment (α : Type) where
  | value (spec : Binary.Spec) (v : α)
  | hole (spec : Binary.Spec) (inner : Pattern α)

end

namespace Segment

/-- The format of a segment. -/
def spec {α : Type} : Segment α → Binary.Spec
  | .value s _ => s
  | .hole s _ => s

/-- The format of a segment and its value, if it holds one. -/
def plan : Segment Term → Binary.Spec × Option Term
  | .value s v => (s, some v)
  | .hole s _ => (s, none)

end Segment

namespace Pattern

/-- The name a variable is checked under: its name, unless it is ignored or starts with `__`. -/
def checkedName (name : Option String) (ignored : Bool) : Option String :=
  match name with
  | some n => if ignored ∨ n.startsWith "__" then none else some n
  | none => none

/-- The default of a top-level variable. -/
def default? {α : Type} : Pattern α → Option α
  | .var _ _ d => d
  | _ => none

mutual

/-- Replaces every leaf of a pattern. -/
def mapLeaves {α β : Type} (f : α → β) : Pattern α → Pattern β
  | .var n i d => .var n i (d.map f)
  | .wildcard => .wildcard
  | .headTail h t => .headTail (mapLeaves f h) (mapLeaves f t)
  | .startsWith pre => .startsWith pre
  | .capture p => .capture (mapLeaves f p)
  | .bound v => .bound (f v)
  | .record name fields => .record name (mapEntries f fields)
  | .binary segments => .binary (mapSegments f segments)
  | .list items => .list (mapItems f items)
  | .tuple items => .tuple (mapItems f items)
  | .literal v => .literal (f v)
  | .map entries => .map (mapEntries f entries)

/-- Replaces the leaves of a list of patterns. -/
def mapItems {α β : Type} (f : α → β) : List (Pattern α) → List (Pattern β)
  | [] => []
  | p :: ps => mapLeaves f p :: mapItems f ps

/-- Replaces the keys and the leaves of the patterns of entries. -/
def mapEntries {α β : Type} (f : α → β) : List (α × Pattern α) → List (β × Pattern β)
  | [] => []
  | (k, p) :: es => (f k, mapLeaves f p) :: mapEntries f es

/-- Replaces the values and the leaves of the patterns of segments. -/
def mapSegments {α β : Type} (f : α → β) : List (Segment α) → List (Segment β)
  | [] => []
  | .value s v :: rest => .value s (f v) :: mapSegments f rest
  | .hole s p :: rest => .hole s (mapLeaves f p) :: mapSegments f rest

end

end Pattern

/-- A bound value and the name it is checked under, if any. -/
structure Binding where
  name : Option String
  value : Term

/-- The values a match binds, in pattern order. -/
abbrev Bindings := List Binding

namespace Bindings

/-- The bound values. -/
def values (bs : Bindings) : List Term :=
  bs.map (·.value)

/-- Each named binding holds a value strictly equal to the first binding of its name; `seen`
holds the first value of every name met so far. -/
def consistentFrom (seen : List (String × Term)) : Bindings → Bool
  | [] => true
  | ⟨none, _⟩ :: rest => consistentFrom seen rest
  | ⟨some n, v⟩ :: rest =>
    match seen.lookup n with
    | some first => first.beq v && consistentFrom seen rest
    | none => consistentFrom ((n, v) :: seen) rest

/-- Every name is bound to values strictly equal to its first binding. -/
def consistent (bs : Bindings) : Bool :=
  consistentFrom [] bs

end Bindings

end ActorCore
