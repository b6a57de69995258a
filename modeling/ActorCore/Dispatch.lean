import ActorCore.Fault
import ActorCore.Pattern.Compile

/-!
# Clauses and functions of clauses

A clause is a list of parameter patterns, an optional guard on the values they bind, and a body
that computes a result from those values. A function is a list of clauses; a call runs the first
clause, in declaration order, whose patterns accept the arguments and whose guard holds.

* `Clause.optionals` — the parameters with a default value: a top-level variable with a default.
  A clause accepts calls from `minArity` (its arity less its optionals) to `arity` arguments.
* `Clause.fillDefaults` — a call `g` arguments short, with `0 < g` and at most as many
  optionals, gets the defaults of the last `g` optionals inserted at their positions.
* `defmatch` — a function of clauses with its arity buckets, built by adding each clause to the
  bucket of every arity it accepts.
* `ClauseFunction.resolve` — the clause a call runs and the values it binds, tried in the bucket
  of the call's number of arguments only; no bucket (`arity`), or no clause of it matches
  (`functionClause`).
* `Pattern.matchValues`, `Pattern.matchGuarded`, `Pattern.matchOrDefault` — a single match
  whose failure is a `badMatch` error or `none`.

A guard or a body may panic; the panic is passed on unchanged.
-/

namespace ActorCore

/-- A clause: parameter patterns, an optional guard and a body, both on the bound values. -/
structure Clause where
  params : List (Pattern Term)
  guard : Option (List Term → Except Panic Bool) := none
  body : List Term → Except Fault Term

/-- `xs` with `x` inserted before position `i`, or at the end when `xs` is shorter. -/
def insertAt {α : Type} (i : Nat) (x : α) (xs : List α) : List α :=
  xs.take i ++ x :: xs.drop i

namespace Clause

/-- The number of parameters. -/
def arity (c : Clause) : Nat :=
  c.params.length

/-- The positions and default values of the parameters that have a default. -/
def optionals (c : Clause) : List (Nat × Term) :=
  c.params.zipIdx.filterMap fun (p, i) => p.default?.map (i, ·)

/-- The fewest arguments a call needs: one for each parameter without a default. -/
def minArity (c : Clause) : Nat :=
  c.arity - c.optionals.length

/-- The clause takes calls with `n` arguments. -/
def accepts (c : Clause) (n : Nat) : Bool :=
  c.minArity ≤ n && n ≤ c.arity

/-- The values the parameters bind, when they accept the arguments, the names agree and the
guard holds. -/
def select (c : Clause) (args : List Term) : Except Panic (Option (List Term)) :=
  match Pattern.runAll c.params args with
  | none => pure none
  | some bs =>
    match c.guard with
    | none => pure (some bs.values)
    | some g => do
      let ok ← g bs.values
      pure (if ok then some bs.values else none)

/-- The arguments with the defaults of the last optionals inserted, when the call is short by
at least one and at most the number of optionals; otherwise the arguments. -/
def fillDefaults (c : Clause) (args : List Term) : List Term :=
  let gap := c.arity - args.length
  if gap = 0 ∨ c.optionals.length < gap then args
  else (c.optionals.drop (c.optionals.length - gap)).foldl (fun acc (i, d) => insertAt i d acc) args

/-- The result of the body on bound values. -/
def invoke (c : Clause) (values : List Term) : Except Fault Term :=
  c.body values

/-- A short description: arity, number of optionals, and whether there is a guard. -/
def debugText (c : Clause) : String :=
  let guarded := if c.guard.isSome then "true" else "false"
  "Clause \x7b arity: " ++ toString c.arity ++ ", optionals: " ++ toString c.optionals.length ++
    ", guarded: " ++ guarded ++ " \x7d"

end Clause

/-- A function given by clauses, tried in order, with its arity buckets: for each number of
arguments some clause takes, the positions of the clauses that take it, in declaration order. -/
structure ClauseFunction where
  clauses : List Clause
  buckets : List (Nat × List (Fin clauses.length))

/-- Adds a position to the bucket of an arity, opening the bucket when the arity has none. -/
def pushBucket {n : Nat} : List (Nat × List (Fin n)) → Nat → Fin n → List (Nat × List (Fin n))
  | [], arity, i => [(arity, [i])]
  | (a, is) :: rest, arity, i =>
    if a = arity then (a, is ++ [i]) :: rest else (a, is) :: pushBucket rest arity i

/-- The function of clauses in priority order: each clause goes into the bucket of every arity from
its `minArity` to its `arity`. -/
def defmatch (clauses : List Clause) : ClauseFunction :=
  { clauses
    buckets := (List.finRange clauses.length).foldl (fun bs i =>
      let c := clauses.get i
      (List.range' c.minArity (c.arity + 1 - c.minArity)).foldl (fun bs k => pushBucket bs k i) bs)
      [] }

namespace ClauseFunction

/-- The numbers of arguments some clause takes, ascending. -/
def arities (f : ClauseFunction) : List Nat :=
  (f.buckets.map Prod.fst).mergeSort

/-- The first clause among the positions that selects the arguments, after filling its defaults. -/
def firstSelected (f : ClauseFunction) (args : List Term) :
    List (Fin f.clauses.length) → Except Fault (Option (Nat × Clause × List Term))
  | [] => pure none
  | i :: rest =>
    let c := f.clauses.get i
    match c.select (c.fillDefaults args) with
    | .error p => throw (.panic p)
    | .ok (some values) => pure (some (i, c, values))
    | .ok none => f.firstSelected args rest

/-- The position of the clause a call runs, the clause and the values it binds: only the bucket of
the call's number of arguments is tried. -/
def resolveClause (f : ClauseFunction) (args : List Term) : Except Fault (Nat × Clause × List Term) :=
  match f.buckets.lookup args.length with
  | none => throw (.error (.arity args.length))
  | some bucket => do
    match ← f.firstSelected args bucket with
    | some found => pure found
    | none => throw (.error (.functionClause args))

/-- The position of the clause a call runs and the values it binds. -/
def resolve (f : ClauseFunction) (args : List Term) : Except Fault (Nat × List Term) :=
  (f.resolveClause args).map fun (i, _, values) => (i, values)

/-- The result of a call: the body of the clause it resolves to, on the bound values. -/
def call (f : ClauseFunction) (args : List Term) : Except Fault Term := do
  let (_, c, values) ← f.resolveClause args
  c.invoke values

/-- A short description: the number of clauses and the arities. -/
def debugText (f : ClauseFunction) : String :=
  "Function \x7b clauses: " ++ toString f.clauses.length ++ ", arities: [" ++
    ", ".intercalate (f.arities.map toString) ++ "] \x7d"

end ClauseFunction

namespace Pattern

/-- The values a full match binds, or a `badMatch` error. -/
def matchValues (p : Pattern Term) (v : Term) : Except RuntimeError (List Term) :=
  match p.run v with
  | some bs => .ok bs.values
  | none => .error (.badMatch v)

/-- The values a full match binds when the guard holds of them, or a `badMatch` error. -/
def matchGuarded (p : Pattern Term) (v : Term) (g : List Term → Except Panic Bool) :
    Except Fault (List Term) :=
  match p.matchValues v with
  | .ok values => do
    if ← (g values).mapError Fault.panic then pure values else throw (.error (.badMatch v))
  | .error e => throw (.error e)

/-- The values a full match binds, if it succeeds. -/
def matchOrDefault (p : Pattern Term) (v : Term) : Option (List Term) :=
  (p.run v).map Bindings.values

end Pattern

end ActorCore
