import ActorCore.Binary.Spec
import ActorCore.Actor.ExitReason

/-!
# Runtime errors

The errors a guest program can see, each with a message and a term form.

* `RuntimeError` — no match, no clause for the arguments, no clause of that arity, a binary that
  cannot be built, the three registry errors, a raised term and an exit.
* `RuntimeError.message`, `RuntimeError.toTerm`, `RuntimeError.toExitReason` — the error's
  text, its term (`{:badmatch, v}`, `{:function_clause, args}`, `{:badarity, n}` with `n` read
  as a signed 64-bit integer, `{:badarg, ...}`, the raised term, the exit reason's term), and the reason a process ends with
  when the error ends its body.
-/

-- Powers of naturals stay core's `Nat.pow` where Mathlib is in scope too, and literal
-- exponents are written as `Nat`, so that these definitions mean the same with or without it.
attribute [local instance (2000)] instPowNat

namespace ActorCore

/-- An error a guest program can see. -/
inductive RuntimeError where
  | badMatch (value : Term)
  | functionClause (args : List Term)
  | arity (n : Nat)
  | binary (e : Binary.Error)
  | unregisteredName (name : String)
  | nameTaken (name : String) (pid : Nat)
  | alreadyRegistered (name : String) (pid : Nat)
  | raise (value : Term)
  | exit (reason : ExitReason)

namespace RuntimeError

/-- The name of the kind of error. -/
def kindName : RuntimeError → String
  | .badMatch _ => "BadMatch"
  | .functionClause _ => "FunctionClause"
  | .arity _ => "Arity"
  | .binary _ => "BitString"
  | .unregisteredName _ => "UnregisteredName"
  | .nameTaken _ _ => "NameTaken"
  | .alreadyRegistered _ _ => "AlreadyRegistered"
  | .raise _ => "Raise"
  | .exit _ => "Exit"

/-- What went wrong, in words. -/
def message : RuntimeError → String
  | .badMatch v => "no match of right hand side value: " ++ v.inspect
  | .functionClause args => "no function clause matching arguments (" ++ Term.inspectItems args ++ ")"
  | .arity n => s!"no function clause of arity {n}"
  | .binary e => e.message
  | .unregisteredName name => "no process registered under name " ++ Text.quote name
  | .nameTaken name pid => "name " ++ Text.quote name ++ " is already registered to " ++ Term.pidText pid
  | .alreadyRegistered name pid => Term.pidText pid ++ " is already registered as " ++ Text.quote name
  | .raise v => v.inspect
  | .exit r => "exit: " ++ r.inspect

/-- The term of an error. -/
def toTerm : RuntimeError → Term
  | .badMatch v => .tuple [.atom "badmatch", v]
  | .functionClause args => .tuple [.atom "function_clause", .list args]
  | .arity n => .tuple [.atom "badarity", .int (Int.bmod n (2 ^ (64 : Nat)))]
  | .binary e => .tuple [.atom "badarg", .str e.message]
  | .unregisteredName name => .tuple [.atom "badarg", .atom name]
  | .nameTaken name _ => .tuple [.atom "badarg", .atom name]
  | .alreadyRegistered name _ => .tuple [.atom "badarg", .atom name]
  | .raise v => v
  | .exit r => r.toTerm

/-- The reason a process ends with when this error ends its body: the reason of an exit, the
reason a raised term stands for, and otherwise the error's term. -/
def toExitReason : RuntimeError → ExitReason
  | .exit r => r
  | .raise v => ExitReason.ofTerm v
  | e => .error e.toTerm

end RuntimeError

end ActorCore
