import ActorCore.Pattern.Basic
import ActorCore.Term.Map
import ActorCore.Binary.Decode
import ActorCore.Binary.Layout

/-!
# Matching

`Pattern.matches?` decides whether a pattern accepts a term and computes the bindings the match
appends, in pattern order. It depends only on the pattern and the term, never on bindings made
before; the compiled matchers of `ActorCore.Pattern.Compile` push onto shared bindings and are
shown to append exactly these.

* variables bind the term under their checked name; the wildcard binds nothing;
* `headTail` needs a non-empty list and matches its rest as a list;
* `startsWith` needs a string with the prefix and binds the remainder;
* `capture` binds what its pattern binds, then the whole term;
* `bound` needs a strictly equal term and binds the pinned value;
* `record` needs a record of the name; `map` a map or a record; both need every key;
* lists and tuples need the same kind and length, and match item by item;
* a literal needs a strictly equal term and binds nothing;
* a binary needs a byte string or a string (its UTF-8 bytes) of the pattern's length; the bytes
  of each value segment must be the ones the value writes, and the bytes of each pattern segment
  must decode to a term its pattern accepts.
-/

namespace ActorCore

namespace Pattern

/-- The bytes a binary pattern reads from a term: a byte string's, or a string's UTF-8 bytes. -/
def candidateBytes? : Term → Option (List UInt8)
  | .bits bytes => some bytes
  | .str s => some (Binary.utf8Bytes s)
  | _ => none

/-- The string after a prefix, if it starts with it. -/
def afterPrefix? (pre s : String) : Option String :=
  if pre.toList.isPrefixOf s.toList then some (String.ofList (s.toList.drop pre.length)) else none

mutual

/-- The bindings a pattern appends when it accepts a term. -/
def matches? : Pattern Term → Term → Option Bindings
  | .var name ignored _, v => some [⟨checkedName name ignored, v⟩]
  | .wildcard, _ => some []
  | .headTail h t, .list (x :: xs) => do
    let a ← matches? h x
    let b ← matches? t (.list xs)
    pure (a ++ b)
  | .startsWith pre, .str s => (afterPrefix? pre s).map fun rest => [⟨none, .str rest⟩]
  | .capture p, v => (matches? p v).map (· ++ [⟨none, v⟩])
  | .bound t, v => if v.beq t then some [⟨none, t⟩] else none
  | .record name fields, .record n fs => if n == name then matchEntries fields fs else none
  | .binary segments, v =>
    match candidateBytes? v, Binary.Layout.build (segments.map Segment.plan) with
    | some bytes, .ok layout =>
      if layout.fits bytes.length then matchSegments segments layout.windows layout.template bytes
      else none
    | _, _ => none
  | .list ps, .list vs => matchItems ps vs
  | .tuple ps, .tuple vs => matchItems ps vs
  | .literal t, v => if v.beq t then some [] else none
  | .map entries, .map fs => matchEntries entries fs
  | .map entries, .record _ fs => matchEntries entries fs
  | _, _ => none

/-- Patterns against terms, position by position; the counts must agree. -/
def matchItems : List (Pattern Term) → List Term → Option Bindings
  | [], [] => some []
  | p :: ps, v :: vs => do
    let a ← matches? p v
    let b ← matchItems ps vs
    pure (a ++ b)
  | _, _ => none

/-- Every key is in the map, and its pattern accepts the value stored there. -/
def matchEntries : List (Term × Pattern Term) → TermMap → Option Bindings
  | [], _ => some []
  | (k, p) :: es, m => do
    let v ← m.get? k
    let a ← matches? p v
    let b ← matchEntries es m
    pure (a ++ b)

/-- The segments of a binary pattern against their windows of a candidate. -/
def matchSegments : List (Segment Term) → List Binary.Window → List UInt8 → List UInt8 →
    Option Bindings
  | [], _, _, _ => some []
  | _ :: _, [], _, _ => none
  | seg :: segs, w :: ws, template, bytes => do
    let actual ← w.slice bytes
    let a ← match seg with
      | .value _ _ => if w.slice template = some actual then some [] else none
      | .hole s p => do
        let decoded ← Binary.decode s actual
        matches? p decoded
    let b ← matchSegments segs ws template bytes
    pure (a ++ b)

end

/-- The short description of a compiled pattern. -/
def debugText : String := "Matcher(..)"

mutual

/-- Every binary pattern inside the pattern can be laid out; the first error in pattern order,
nested patterns before the binary that holds them. -/
def check : Pattern Term → Except Binary.Error Unit
  | .var _ _ _ | .wildcard | .startsWith _ | .bound _ | .literal _ => .ok ()
  | .headTail h t => do check h; check t
  | .capture p => check p
  | .record _ fields => checkEntries fields
  | .binary segments => do
    checkSegments segments
    let _ ← Binary.Layout.build (segments.map Segment.plan)
    pure ()
  | .list items => checkItems items
  | .tuple items => checkItems items
  | .map entries => checkEntries entries

/-- Every pattern of a list can be laid out. -/
def checkItems : List (Pattern Term) → Except Binary.Error Unit
  | [] => .ok ()
  | p :: ps => do check p; checkItems ps

/-- Every pattern of the entries can be laid out. -/
def checkEntries : List (Term × Pattern Term) → Except Binary.Error Unit
  | [] => .ok ()
  | (_, p) :: es => do check p; checkEntries es

/-- Every pattern of the segments can be laid out. -/
def checkSegments : List (Segment Term) → Except Binary.Error Unit
  | [] => .ok ()
  | .value _ _ :: rest => checkSegments rest
  | .hole _ p :: rest => do check p; checkSegments rest

end

/-- The layout of a binary pattern whose nested patterns can all be laid out. -/
def binaryLayout (segments : List (Segment Term)) : Except Binary.Error Binary.Layout := do
  checkSegments segments
  Binary.Layout.build (segments.map Segment.plan)

end Pattern

end ActorCore
