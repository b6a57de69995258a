import ActorCore.Dispatch
import ActorCore.Lang.Guard

/-!
# Clause bodies

A clause body, written as data, computes a clause's result from the values it bound and the
clause's position: a tag with the position and the values, the values, a constant, one value,
a raised term, an exit, a panic, a binary built from segments, or a match of one value.

* `BodyExpr.run` — the result of a body; the holes of its terms are filled by a scope. The
  segments of a binary are read from the scope when the body runs, and a reading error is
  raised as a string.
* `BodyExpr.patternError?` — the error of a match body whose binary pattern cannot be laid out
  once its holes are filled.
* `BodyExpr.clause` — a clause whose guard and body are written as data. The scope that fills
  the body's holes may depend on the bound values: a clause defined on its own fills the
  binding holes with them, a receive in a script fills them from the script's scope when the
  receive starts.
-/

namespace ActorCore

/-- A clause body. -/
inductive BodyExpr where
  /-- `{position, [values]}`. -/
  | tag
  /-- The list of bound values. -/
  | bindings
  | const (e : Expr)
  /-- The value at a position, or `nil`. -/
  | elem (i : Nat)
  | raise (e : Expr)
  | exit (e : Expr)
  | panic (p : Panic)
  /-- The binary that segments spell; the segments are read from the scope, or the message of
  why they cannot be. -/
  | encode (segments : Scope → Except String (List (Segment Term)))
  /-- The values a pattern binds in the value at a position. -/
  | bind (p : Pattern Expr) (i : Nat)

namespace BodyExpr

/-- The result of a body on bound values `b`, for the clause at position `index`; `sc` fills
the holes of its terms. -/
def run (sc : Scope) (index : Nat) (b : List Term) (body : BodyExpr) : Except Fault Term :=
  match body with
  | .tag => pure (.tuple [.int index, .list b])
  | .bindings => pure (.list b)
  | .const e => pure (e.eval sc)
  | .elem i => pure (b.getD i .nil)
  | .raise e => throw (.error (.raise (e.eval sc)))
  | .exit e => throw (.error (.exit (ExitReason.ofTerm (e.eval sc))))
  | .panic p => throw (.panic p)
  | .encode segments =>
    match segments sc with
    | .error msg => throw (.error (.raise (.str msg)))
    | .ok segments =>
      match Binary.build (segments.map Segment.plan) with
      | .ok bytes => pure (.bits bytes)
      | .error e => throw (.error (.binary e))
  | .bind p i =>
    let filled := p.mapLeaves (Expr.eval sc)
    match filled.check with
    | .error e => throw (.error (.binary e))
    | .ok () => (filled.matchValues (b.getD i .nil)).map Term.list |>.mapError Fault.error

/-- The error of a match body whose pattern, with its holes filled by `sc`, cannot be laid
out; other bodies have none. -/
def patternError? (sc : Scope) : BodyExpr → Option Binary.Error
  | .bind p _ =>
    match (p.mapLeaves (Expr.eval sc)).check with
    | .error e => some e
    | .ok () => none
  | _ => none

/-- The clause at position `index` with parameters, a guard and a body written as data; `sc`
fills the holes of the guard's terms, and `scopeOf b` those of the body's terms when the clause
bound the values `b`. -/
def clause (sc : Scope) (scopeOf : List Term → Scope) (index : Nat) (params : List (Pattern Term))
    (guard : Option Guard) (body : BodyExpr) : Clause where
  params := params
  guard := guard.map fun g b => g.holds sc b
  body := fun b => body.run (scopeOf b) index b

end BodyExpr

end ActorCore
