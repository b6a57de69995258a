import ActorCore.Lang.Expr
import ActorCore.Term.Inspect

/-!
# Arguments of a required kind

Some arguments of a script step or a host operation must be of one kind: a pid, a reference,
or a destination (a pid, or a registered name given as a string). An argument of another kind
is refused before the step does anything. The refusal names the field the argument came in,
the kind it needed and the term it gave, and reads `field: expected a pid, got nil`.

* `ArgKind` — the kinds an argument can be required to have.
* `Refusal` — an argument of the wrong kind, with its `message`.
* `pidArg`, `refArg` — the pid or the reference an expression gives in a scope, or the refusal.
-/

namespace ActorCore

/-- The kinds an argument can be required to have. -/
inductive ArgKind where
  | pid
  | reference
  | destination
  deriving DecidableEq, Repr

/-- The kind as the refusal names it. -/
def ArgKind.text : ArgKind → String
  | .pid => "a pid"
  | .reference => "a reference"
  | .destination => "a pid or a name"

/-- An argument of the wrong kind: the field it came in, the kind it needed, the term it gave. -/
structure Refusal where
  field : String
  expected : ArgKind
  got : Term

/-- The text of a refusal. -/
def Refusal.message (r : Refusal) : String :=
  r.field ++ ": expected " ++ r.expected.text ++ ", got " ++ r.got.inspect

/-- The pid that the expression in `field` gives, or the refusal. -/
def pidArg (field : String) (sc : Scope) (e : Expr) : Except Refusal Nat :=
  match e.eval sc with
  | .pid n => .ok n
  | t => .error ⟨field, .pid, t⟩

/-- The reference that the expression in `field` gives, or the refusal. -/
def refArg (field : String) (sc : Scope) (e : Expr) : Except Refusal Nat :=
  match e.eval sc with
  | .ref n => .ok n
  | t => .error ⟨field, .reference, t⟩

theorem pidArg_pid (field : String) (sc : Scope) (n : Nat) :
    pidArg field sc (.term (.pid n)) = .ok n := by
  simp [pidArg, Expr.eval]

end ActorCore
