import ActorCore.Pattern.Match

/-!
# Compiled matchers

A pattern is compiled once into a matcher: a function that reads a candidate term and the
bindings made so far, pushes the values it binds onto them, and answers whether it accepts. Each
kind of pattern has a resolver that builds its matcher from the matchers of its parts. The parts
push as they go, so a matcher that fails part-way may leave bindings behind: `Matcher.test`
marks the length of the bindings on entry and cuts them back to that mark when the matcher fails.

* `Matcher.transact` — an action on the bindings, cut back to its entry mark when it fails;
  `Matcher.test` and `SequenceMatcher.test` are transactions, `Matcher.run` and
  `SequenceMatcher.run` test on fresh bindings and keep them only when their repeated names
  agree.
* `Matcher.allOf` — actions on shared bindings run in order until one fails, as the items of a
  list or tuple, the entries of a map or record, and the segments of a binary are matched.
* `Matcher.Step` — one segment of a compiled binary pattern: its window, and the format and
  matcher of the pattern it holds.
* `Pattern.compile` — the matcher of a pattern; `Pattern.compileSequence` — the matchers of a
  parameter list, tried against the arguments of a call.
* `Pattern.test`, `Pattern.run`, `Pattern.runAll` — matching through the compiled matchers.
-/

namespace ActorCore

/-- A compiled pattern: from a candidate and the bindings made so far, whether it accepts and the
bindings after the values it pushed. -/
structure Matcher where
  apply : Term → Bindings → Bool × Bindings

namespace Matcher

/-- Runs an action on the bindings; when it fails, the bindings are cut back to their length on
entry. -/
def transact (f : Bindings → Bool × Bindings) (b : Bindings) : Bool × Bindings :=
  let mark := b.length
  match f b with
  | (true, after) => (true, after)
  | (false, after) => (false, after.take mark)

/-- Fresh bindings for an action, kept when it accepts and the repeated names agree. -/
def fresh (f : Bindings → Bool × Bindings) : Option Bindings :=
  match transact f [] with
  | (true, b) => if b.consistent then some b else none
  | (false, _) => none

/-- Matches a candidate, appending on success and leaving the bindings as they were on failure. -/
def test (m : Matcher) (v : Term) (b : Bindings) : Bool × Bindings :=
  transact (m.apply v) b

/-- Matches a candidate on fresh bindings whose repeated names agree. -/
def run (m : Matcher) (v : Term) : Option Bindings :=
  fresh (m.apply v)

/-- Actions on shared bindings, run in order until one fails; the failing action's bindings are
passed on for the enclosing test to cut back. -/
def allOf : List (Bindings → Bool × Bindings) → Bindings → Bool × Bindings
  | [], b => (true, b)
  | f :: fs, b =>
    match f b with
    | (true, after) => allOf fs after
    | (false, after) => (false, after)

/-- Matchers against terms position by position; the counts must agree. -/
def elements (items : List Matcher) (values : List Term) (b : Bindings) : Bool × Bindings :=
  if items.length = values.length then allOf ((items.zip values).map fun (m, v) => m.test v) b
  else (false, b)

/-- Every key is in the map, and its matcher accepts the value stored there. -/
def entries (es : List (Term × Matcher)) (map : TermMap) (b : Bindings) : Bool × Bindings :=
  allOf (es.map fun (k, m) b =>
    match map.get? k with
    | some v => m.test v b
    | none => (false, b)) b

/-- Accepts nothing: the matcher of a binary pattern that cannot be laid out. -/
def reject : Matcher :=
  ⟨fun _ b => (false, b)⟩

/-- A variable pushes the candidate under the name it is checked under. -/
def bindAs (name : Option String) : Matcher :=
  ⟨fun v b => (true, b ++ [⟨name, v⟩])⟩

def wildcard : Matcher :=
  ⟨fun _ b => (true, b)⟩

/-- A non-empty list: the head's matcher on the first item, then the tail's on the rest. -/
def headTail (head tail : Matcher) : Matcher :=
  ⟨fun v b =>
    match v with
    | .list (x :: xs) => allOf [head.test x, tail.test (.list xs)] b
    | _ => (false, b)⟩

/-- A string with the prefix pushes the remainder. -/
def startsWith (pre : String) : Matcher :=
  ⟨fun v b =>
    match v with
    | .str s =>
      match Pattern.afterPrefix? pre s with
      | some rest => (true, b ++ [⟨none, .str rest⟩])
      | none => (false, b)
    | _ => (false, b)⟩

/-- The inner matcher, then the whole candidate is pushed. -/
def capture (inner : Matcher) : Matcher :=
  ⟨fun v b => allOf [inner.test v, fun after => (true, after ++ [⟨none, v⟩])] b⟩

/-- A candidate strictly equal to the pinned value pushes the pinned value. -/
def bound (pinned : Term) : Matcher :=
  ⟨fun v b => if v.beq pinned then (true, b ++ [⟨none, pinned⟩]) else (false, b)⟩

/-- A record of the name whose fields hold every key. -/
def record (name : String) (fields : List (Term × Matcher)) : Matcher :=
  ⟨fun v b =>
    match v with
    | .record n fs => if n == name then entries fields fs b else (false, b)
    | _ => (false, b)⟩

def list (items : List Matcher) : Matcher :=
  ⟨fun v b =>
    match v with
    | .list vs => elements items vs b
    | _ => (false, b)⟩

def tuple (items : List Matcher) : Matcher :=
  ⟨fun v b =>
    match v with
    | .tuple vs => elements items vs b
    | _ => (false, b)⟩

/-- A strictly equal candidate; nothing is pushed. -/
def literal (expected : Term) : Matcher :=
  ⟨fun v b => (v.beq expected, b)⟩

/-- A map, or the fields of a record, holding every key. -/
def map (es : List (Term × Matcher)) : Matcher :=
  ⟨fun v b =>
    match v with
    | .map fs => entries es fs b
    | .record _ fs => entries es fs b
    | _ => (false, b)⟩

/-- One segment of a compiled binary pattern: its window, and the format and matcher of the
pattern it holds, if it holds one. -/
structure Step where
  window : Binary.Window
  bind : Option (Binary.Spec × Matcher)

/-- The window of a value segment must hold the template's bytes; the window of a pattern
segment must decode to a term its matcher accepts. -/
def Step.apply (st : Step) (bytes template : List UInt8) (b : Bindings) : Bool × Bindings :=
  match st.window.slice bytes with
  | none => (false, b)
  | some actual =>
    match st.bind with
    | none => (decide (st.window.slice template = some actual), b)
    | some (s, m) =>
      match Binary.decode s actual with
      | some decoded => m.test decoded b
      | none => (false, b)

/-- A byte string, or the UTF-8 bytes of a string, of the layout's length, whose segments' steps
all succeed. -/
def binary (layout : Binary.Layout) (binds : List (Option (Binary.Spec × Matcher))) : Matcher :=
  let steps := (layout.windows.zip binds).map fun (w, bind) => Step.mk w bind
  ⟨fun v b =>
    match Pattern.candidateBytes? v with
    | some bytes =>
      if layout.fits bytes.length then allOf (steps.map fun st => st.apply bytes layout.template) b
      else (false, b)
    | none => (false, b)⟩

end Matcher

/-- The matchers of a parameter list. -/
structure SequenceMatcher where
  items : List Matcher

namespace SequenceMatcher

/-- Matches the arguments of a call, appending on success and leaving the bindings as they were
on failure. -/
def test (sm : SequenceMatcher) (values : List Term) (b : Bindings) : Bool × Bindings :=
  Matcher.transact (Matcher.elements sm.items values) b

/-- Matches the arguments of a call on fresh bindings whose repeated names agree. -/
def run (sm : SequenceMatcher) (values : List Term) : Option Bindings :=
  Matcher.fresh (Matcher.elements sm.items values)

end SequenceMatcher

namespace Pattern

mutual

/-- The matcher of a pattern, built by its kind's resolver from the matchers of its parts. -/
def compile : Pattern Term → Matcher
  | .var name ignored _ => .bindAs (checkedName name ignored)
  | .wildcard => .wildcard
  | .headTail h t => .headTail (compile h) (compile t)
  | .startsWith pre => .startsWith pre
  | .capture p => .capture (compile p)
  | .bound t => .bound t
  | .record name fields => .record name (compileEntries fields)
  | .binary segments =>
    match Binary.Layout.build (segments.map Segment.plan) with
    | .ok layout => .binary layout (compileSegments segments)
    | .error _ => .reject
  | .list items => .list (compileItems items)
  | .tuple items => .tuple (compileItems items)
  | .literal t => .literal t
  | .map entries => .map (compileEntries entries)

/-- The matchers of a list of patterns. -/
def compileItems : List (Pattern Term) → List Matcher
  | [] => []
  | p :: ps => compile p :: compileItems ps

/-- The keys of entries with the matchers of their patterns. -/
def compileEntries : List (Term × Pattern Term) → List (Term × Matcher)
  | [] => []
  | (k, p) :: es => (k, compile p) :: compileEntries es

/-- For each segment, the format and matcher of the pattern it holds, if it holds one. -/
def compileSegments : List (Segment Term) → List (Option (Binary.Spec × Matcher))
  | [] => []
  | .value _ _ :: rest => none :: compileSegments rest
  | .hole s p :: rest => some (s, compile p) :: compileSegments rest

end

/-- The matchers of a parameter list. -/
def compileSequence (ps : List (Pattern Term)) : SequenceMatcher :=
  ⟨compileItems ps⟩

/-- Matching with bindings made before. -/
def test (p : Pattern Term) (v : Term) (b : Bindings) : Bool × Bindings :=
  p.compile.test v b

/-- A match on fresh bindings whose repeated names agree. -/
def run (p : Pattern Term) (v : Term) : Option Bindings :=
  p.compile.run v

/-- Patterns against arguments, on fresh bindings whose repeated names agree. -/
def runAll (ps : List (Pattern Term)) (vs : List Term) : Option Bindings :=
  (compileSequence ps).run vs

end Pattern

end ActorCore
