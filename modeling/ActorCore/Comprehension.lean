import ActorCore.Dispatch
import ActorCore.Binary.Bytes

/-!
# Comprehensions

A comprehension draws rows of bound values from generators, keeps the rows a filter accepts, and
collects a body's result for each row, into a list or into one byte string.

* `Generator` — a pattern and the items it is matched against: the items of a list, or the
  consecutive chunks of a byte string, each as wide as a binary pattern of fixed, non-zero width
  (a short tail is dropped). Items the pattern does not accept are skipped.
* `Generator.product` — every choice of one accepted item per generator, the first generator
  outermost, each row the concatenation of the items' bound values.
* `collect` — rows are filtered and evaluated one at a time, in order; the first failing body
  ends the walk.
* `listComprehension`, `bitsComprehension` — the results as a list, or the concatenation of
  their bytes (each result must be a byte string or a string).
-/

namespace ActorCore

/-- A pattern and the items it is matched against. -/
structure Generator where
  pattern : Pattern Term
  items : List Term

/-- Consecutive chunks of `w` bytes; a tail shorter than `w` is dropped. -/
def chunks (w : Nat) (bytes : List UInt8) : List (List UInt8) :=
  if _ : 0 < w ∧ w ≤ bytes.length then bytes.take w :: chunks w (bytes.drop w) else []
termination_by bytes.length
decreasing_by simp only [List.length_drop]; omega

namespace Generator

/-- A generator over the items of a list; any other source is a bad match. -/
def ofList (p : Pattern Term) (source : Term) : Except RuntimeError Generator :=
  match source with
  | .list items => .ok ⟨p, items⟩
  | _ => .error (.badMatch source)

/-- A generator over the chunks of a byte string, as wide as a binary pattern; a pattern with
an open last segment or no width is a bad match of the source. -/
def ofBits (segments : List (Segment Term)) (source : List UInt8) : Except RuntimeError Generator := do
  let layout ← (Pattern.binaryLayout segments).mapError RuntimeError.binary
  match layout.fixedWidth with
  | some w =>
    if 0 < w then pure ⟨.binary segments, (chunks w source).map Term.bits⟩
    else throw (.badMatch (.bits source))
  | none => throw (.badMatch (.bits source))

/-- The bound values of every item the pattern accepts, in order. -/
def bindings (g : Generator) : List (List Term) :=
  g.items.filterMap fun t => (g.pattern.run t).map Bindings.values

/-- Every row of bound values, the first generator outermost. -/
def product (gs : List Generator) : List (List Term) :=
  gs.foldl (fun rows g => rows.flatMap fun row => g.bindings.map (row ++ ·)) [[]]

end Generator

/-- The body's results on the rows the filter keeps, in order; a panic of the filter or a
failure of the body ends the walk. -/
def collect (filter : Option (List Term → Except Panic Bool)) (body : List Term → Except Fault Term) :
    List (List Term) → Except Fault (List Term)
  | [] => pure []
  | row :: rows => do
    let keep ← match filter with
      | some f => (f row).mapError Fault.panic
      | none => pure true
    if keep then
      let v ← body row
      let vs ← collect filter body rows
      pure (v :: vs)
    else collect filter body rows

/-- The bytes a comprehension result adds to a byte string; anything but a byte string or a
string is a bad match. -/
def bytesOfResult : Term → Except Fault (List UInt8)
  | .bits bytes => pure bytes
  | .str s => pure (Binary.utf8Bytes s)
  | other => throw (.error (.badMatch other))

/-- The results of a comprehension as a list. -/
def listComprehension (gs : List Generator) (filter : Option (List Term → Except Panic Bool))
    (body : List Term → Except Fault Term) : Except Fault Term :=
  (collect filter body (Generator.product gs)).map Term.list

/-- The results of a comprehension as one byte string; every result is collected first. -/
def bitsComprehension (gs : List Generator) (filter : Option (List Term → Except Panic Bool))
    (body : List Term → Except Fault Term) : Except Fault Term := do
  let results ← collect filter body (Generator.product gs)
  let parts ← results.mapM bytesOfResult
  pure (.bits parts.flatten)

end ActorCore
