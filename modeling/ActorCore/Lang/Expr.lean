import ActorCore.Term.Map

/-!
# Expressions

An expression is a term with holes that a scope fills: the running process, the result of the
previous step, a stored result, or a value bound by the last match.

* `Expr` — a closed term, a list, tuple, map or record of expressions, or a hole.
* `Scope` — what fills the holes; a hole with nothing to fill it gives `nil`.
* `Expr.eval` — the term an expression stands for in a scope. Maps and records are built by
  inserting their entries in order, so a repeated key keeps its first place and its last value.
* `Term.reread` — a term as its written form reads back: the same term, except that every NaN
  becomes the plain NaN, since a NaN is written without its sign and payload. A hole stands for
  the written form of its value, so it gives the value reread.
-/

namespace ActorCore

/-- A term with holes. -/
inductive Expr where
  | term (t : Term)
  | list (items : List Expr)
  | tuple (items : List Expr)
  | map (entries : List (Expr × Expr))
  | record (name : String) (fields : List (Expr × Expr))
  /-- The process that evaluates the expression. -/
  | self
  /-- The result of the previous step. -/
  | last
  /-- A result stored under a name. -/
  | stored (name : String)
  /-- A value bound by the last match, by position. -/
  | binding (index : Nat)

/-- What fills the holes of expressions. -/
structure Scope where
  self : Term := .nil
  last : Term := .nil
  /-- Stored results, the latest first. -/
  stored : List (String × Term) := []
  bindings : List Term := []

namespace Scope

/-- The scope with a result stored under a name. -/
def store (sc : Scope) (name : String) (t : Term) : Scope :=
  { sc with stored := (name, t) :: sc.stored }

/-- The result stored last under a name, or `nil`. -/
def lookup (sc : Scope) (name : String) : Term :=
  (sc.stored.lookup name).getD .nil

end Scope

namespace Term

mutual

/-- A term as its written form reads back: every NaN in it becomes the plain NaN. -/
def reread : Term → Term
  | .float x => .float (if x.isNaN then Double.nan else x)
  | .list items => .list (rereadItems items)
  | .tuple items => .tuple (rereadItems items)
  | .map entries => .map (rereadEntries entries)
  | .record name fields => .record name (rereadEntries fields)
  | t => t

/-- The terms of a list, each reread. -/
def rereadItems : List Term → List Term
  | [] => []
  | t :: ts => reread t :: rereadItems ts

/-- The keys and values of entries, each reread. -/
def rereadEntries : List (Term × Term) → List (Term × Term)
  | [] => []
  | (k, v) :: es => (reread k, reread v) :: rereadEntries es

end

end Term

namespace Expr

mutual

/-- The term an expression stands for in a scope. -/
def eval (sc : Scope) : Expr → Term
  | .term t => t
  | .list items => .list (evalItems sc items)
  | .tuple items => .tuple (evalItems sc items)
  | .map entries => .map (TermMap.ofList (evalEntries sc entries))
  | .record name fields => .record name (TermMap.ofList (evalEntries sc fields))
  | .self => sc.self
  | .last => sc.last.reread
  | .stored name => (sc.lookup name).reread
  | .binding i => (sc.bindings.getD i .nil).reread

/-- The terms of a list of expressions. -/
def evalItems (sc : Scope) : List Expr → List Term
  | [] => []
  | e :: es => eval sc e :: evalItems sc es

/-- The terms of pairs of expressions. -/
def evalEntries (sc : Scope) : List (Expr × Expr) → List (Term × Term)
  | [] => []
  | (k, v) :: es => (eval sc k, eval sc v) :: evalEntries sc es

end

end Expr

end ActorCore
