import ActorCore.Term.Basic
import ActorCore.Decimal.Format
import ActorCore.Text.Quoted

/-!
# The text of a term

`Term.inspect` writes a term as the guest language would print it: `nil`, `true`, integers in
decimal, doubles by `Term.floatFormat`, atoms as `:name`, strings quoted, lists `[a, b]`,
tuples `{a, b}`, maps `%{k => v}`, records `%Name{k => v}`, byte strings `<<1, 2>>`, process
ids `#PID<0.N.0>` and references `#Reference<0.0.0.N>`, always with `", "` between items.
-/

namespace ActorCore

namespace Term

/-- Doubles are written with the fewest digits that read back: positionally, with at least one
digit after the point, when `10^-4 ≤ |x| < 10^16`, and otherwise as digits, `e` and an exponent
without a plus sign; `NaN`, `inf` and `-inf` stand for themselves. -/
def floatFormat : Decimal.FloatFormat :=
  { positionalFrom := -3, positionalTo := 16, exponentMark := "e", nanText := "NaN",
    infinityText := "inf" }

/-- The text of a double. -/
def floatText (x : Double) : String :=
  floatFormat.render x

/-- The text of a byte string. -/
def bitsText (bytes : List UInt8) : String :=
  "<<" ++ ", ".intercalate (bytes.map fun b => toString b.toNat) ++ ">>"

/-- The text of a process id. -/
def pidText (n : Nat) : String :=
  "#PID<0." ++ toString n ++ ".0>"

/-- The text of a reference. -/
def refText (n : Nat) : String :=
  "#Reference<0.0.0." ++ toString n ++ ">"

mutual

/-- The printed form of a term. -/
def inspect : Term → String
  | .nil => "nil"
  | .bool b => if b then "true" else "false"
  | .int n => toString n
  | .float x => floatText x
  | .atom name => ":" ++ name
  | .str s => Text.quote s
  | .list xs => "[" ++ inspectItems xs ++ "]"
  | .tuple xs => "\x7b" ++ inspectItems xs ++ "\x7d"
  | .map es => "%\x7b" ++ inspectEntries es ++ "\x7d"
  | .record name es => "%" ++ name ++ "\x7b" ++ inspectEntries es ++ "\x7d"
  | .bits bytes => bitsText bytes
  | .pid n => pidText n
  | .ref n => refText n

/-- Items separated by `", "`. -/
def inspectItems : List Term → String
  | [] => ""
  | [x] => inspect x
  | x :: xs => inspect x ++ ", " ++ inspectItems xs

/-- Entries `k => v` separated by `", "`. -/
def inspectEntries : List (Term × Term) → String
  | [] => ""
  | [(k, v)] => inspect k ++ " => " ++ inspect v
  | (k, v) :: es => inspect k ++ " => " ++ inspect v ++ ", " ++ inspectEntries es

end

/-- The short diagnostic form that atoms, byte strings, process ids and references have:
`:name`, the byte string's text, `PID(n)` and `REF(n)`. -/
def debugText? : Term → Option String
  | .atom name => some (":" ++ name)
  | .bits bytes => some (bitsText bytes)
  | .pid n => some ("PID(" ++ toString n ++ ")")
  | .ref n => some ("REF(" ++ toString n ++ ")")
  | _ => none

end Term

end ActorCore
