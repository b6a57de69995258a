import ActorCore.Fault
import ActorCore.Lang.Expr

/-!
# Guards

A guard is a condition on the values a clause binds, written as data: comparisons of a bound
value (by position) with a term or with another bound value, its kind, its truthiness, the number
of bound values, and the connectives. A guard may also panic.

* `Guard.holds` — whether a guard holds of bound values. A position past the end makes a
  comparison false. `and` and `or` stop at the first guard that decides them, so a later guard
  that would panic is not reached.
-/

namespace ActorCore

/-- A condition on bound values. -/
inductive Guard where
  | const (b : Bool)
  /-- The value at a position is strictly equal to a term. -/
  | eq (i : Nat) (t : Expr)
  /-- There is a value at a position and it is not strictly equal to a term. -/
  | ne (i : Nat) (t : Expr)
  /-- The value at a position is an integer greater than `n`. -/
  | gt (i : Nat) (n : Int)
  /-- The value at a position is an integer smaller than `n`. -/
  | lt (i : Nat) (n : Int)
  | kind (i : Nat) (k : Term.Kind)
  | truthy (i : Nat)
  /-- There are exactly `n` bound values. -/
  | len (n : Nat)
  /-- The values at two positions are strictly equal. -/
  | eqb (i j : Nat)
  | and (gs : List Guard)
  | or (gs : List Guard)
  | not (g : Guard)
  | panic (p : Panic)

namespace Guard

/-- An integer bound at a position is on the chosen side of `n`. -/
def compareAt (b : List Term) (i : Nat) (test : Int → Bool) : Bool :=
  match b[i]? with
  | some (.int m) => test m
  | _ => false

mutual

/-- Whether a guard holds of bound values; the scope fills the holes of its terms. -/
def holds (sc : Scope) (b : List Term) : Guard → Except Panic Bool
  | .const v => pure v
  | .eq i t => pure ((b[i]?).any fun v => v.beq (t.eval sc))
  | .ne i t => pure ((b[i]?).any fun v => !v.beq (t.eval sc))
  | .gt i n => pure (compareAt b i fun m => n < m)
  | .lt i n => pure (compareAt b i fun m => m < n)
  | .kind i k => pure ((b[i]?).any fun v => v.kind == k)
  | .truthy i => pure ((b[i]?).any Term.truthy)
  | .len n => pure (b.length == n)
  | .eqb i j =>
    match b[i]?, b[j]? with
    | some x, some y => pure (x.beq y)
    | _, _ => pure false
  | .and gs => allHold sc b gs
  | .or gs => anyHolds sc b gs
  | .not g => do return !(← holds sc b g)
  | .panic p => throw p

/-- Every guard holds; the first that does not stops the walk. -/
def allHold (sc : Scope) (b : List Term) : List Guard → Except Panic Bool
  | [] => pure true
  | g :: gs => do if ← holds sc b g then allHold sc b gs else pure false

/-- Some guard holds; the first that does stops the walk. -/
def anyHolds (sc : Scope) (b : List Term) : List Guard → Except Panic Bool
  | [] => pure false
  | g :: gs => do if ← holds sc b g then pure true else anyHolds sc b gs

end

end Guard

end ActorCore
