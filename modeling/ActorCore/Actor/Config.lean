/-!
# Scheduler settings

How many reductions a process may use per turn, how many a tick may use in all, and the stack
size of a process. Settings read from the environment are trimmed of white space and read as
unsigned decimal numbers (an optional `+`, then ASCII digits, within 32 bits for the counts and
64 bits for the stack size); a missing or unreadable value keeps the default. Both counts are at
least 1.
-/

-- Powers of naturals stay core's `Nat.pow` where Mathlib is in scope too, so that these
-- definitions mean the same with or without it.
attribute [local instance (2000)] instPowNat

namespace ActorCore

/-- Scheduler settings. -/
structure Config where
  reductions : Nat := 2000
  tickBudget : Nat := 100000
  stackSize : Nat := 262144
  deriving DecidableEq, Repr

namespace Config

/-- The default settings. -/
def default : Config := {}

/-- Both counts raised to at least 1. -/
def clamped (c : Config) : Config :=
  { c with reductions := max c.reductions 1, tickBudget := max c.tickBudget 1 }

/-- The settings with a reduction count of at least 1. -/
def withReductions (c : Config) (n : Nat) : Config :=
  { c with reductions := max n 1 }

/-- The settings with a tick budget of at least 1. -/
def withTickBudget (c : Config) (n : Nat) : Config :=
  { c with tickBudget := max n 1 }

/-- The characters with the Unicode White_Space property. -/
def isWhiteSpace (c : Char) : Bool :=
  let n := c.toNat
  (0x09 ≤ n ∧ n ≤ 0x0D) ∨ n = 0x20 ∨ n = 0x85 ∨ n = 0xA0 ∨ n = 0x1680 ∨
    (0x2000 ≤ n ∧ n ≤ 0x200A) ∨ n = 0x2028 ∨ n = 0x2029 ∨ n = 0x202F ∨ n = 0x205F ∨ n = 0x3000

/-- The value of ASCII digits, most significant first; none for an empty list or another
character. -/
def digitsValue? (cs : List Char) : Option Nat :=
  if cs.isEmpty then none
  else cs.foldl (fun acc c => acc.bind fun n =>
    if c.isDigit then some (10 * n + (c.toNat - '0'.toNat)) else none) (some 0)

/-- An unsigned decimal number below `2 ^ bits`, after trimming white space. -/
def readUnsigned? (bits : Nat) (s : String) : Option Nat :=
  let cs := ((s.toList.dropWhile isWhiteSpace).reverse.dropWhile isWhiteSpace).reverse
  let digits := match cs with
    | '+' :: rest => rest
    | _ => cs
  (digitsValue? digits).filter (· < 2 ^ bits)

/-- The settings read from an environment, each unreadable value left at its default, then
clamped. -/
def ofEnv (env : String → Option String) : Config :=
  let read (key : String) (bits fallback : Nat) : Nat :=
    ((env key).bind (readUnsigned? bits)).getD fallback
  Config.clamped {
    reductions := read "EMBER_REDUCTIONS" 32 Config.default.reductions
    tickBudget := read "EMBER_TICK_BUDGET" 32 Config.default.tickBudget
    stackSize := read "EMBER_STACK_SIZE" 64 Config.default.stackSize }

end Config

end ActorCore
