import ActorCore.Dispatch
import ActorCore.Actor.ExitReason
import ActorCore.Lang.Argument

/-!
# Process programs

A process runs a program: a tree of requests to the scheduler, each with a continuation that
receives the scheduler's reply, ending in a normal return, a runtime error or a panic. A
program may also leave notes, which the scheduler collects, with the process's pid, in the
order they are made.

* `Request` — what a process can ask of the scheduler: yield, spawn (the child's program gets
  the child's pid), send, send later, receive by clauses with an optional timeout, sleep, link,
  unlink, monitor, demonitor, exit signals, the registry, process flags, the process dictionary,
  and queries.
* `Reply` — the scheduler's answer; `Received` — the clause a received message selected and the
  values it bound, or the timeout.
* `Program.exitReason` — a return is a normal exit; a runtime error exits with the reason the
  error stands for.
-/

namespace ActorCore

/-- Where a message goes: a process, or the process registered under a name. -/
inductive Dest where
  | pid (n : Nat)
  | name (s : String)

/-- The outcome of a receive: the position of the selecting clause and the values it bound,
or the timeout. -/
inductive Received where
  | message (clause : Nat) (values : List Term)
  | timeout

/-- The scheduler's answer to a request. -/
inductive Reply where
  | start
  | ok
  | error (e : RuntimeError)
  | spawned (pid : Nat) (monitor : Option Nat)
  | ref (r : Nat)
  | term (t : Term)
  | terms (ts : List Term)
  | bool (b : Bool)
  | pid (p : Option Nat)
  | pids (ps : List Nat)
  | names (ns : List String)
  | received (r : Received)

/-- What a note records: a term, an error, an exit reason, or an argument refused for its kind. -/
inductive Logged where
  | term (t : Term)
  | error (e : RuntimeError)
  | reason (r : ExitReason)
  | refused (r : Refusal)
  /-- A step that could not be read, and why. -/
  | unreadable (message : String)

/-- A note a program leaves: the name of what it did and its result. -/
structure Note where
  op : String
  result : Logged

mutual

/-- A process program. -/
inductive Program where
  /-- The body returned (`ok`) or failed with a runtime error. -/
  | finish (outcome : Except RuntimeError Unit)
  | crash (p : Panic)
  | note (n : Note) (next : Program)
  | call (req : Request) (k : Reply → Program)

/-- A request to the scheduler. -/
inductive Request where
  | yield
  | spawn (body : Nat → Program) (link monitor : Bool)
  | send (dest : Dest) (msg : Term)
  | sendAfter (pid : Nat) (msg : Term) (after : Nat)
  | receive (clauses : List Clause) (after : Option Nat)
  | sleep (ms : Nat)
  | link (pid : Nat)
  | unlink (pid : Nat)
  | monitor (pid : Nat)
  | demonitor (ref : Nat)
  | exit (target : Nat) (reason : ExitReason)
  | register (name : String)
  | unregister (name : String)
  | whereis (name : String)
  | registered
  | processFlag (flag : String) (value : Term)
  | put (key value : Term)
  | get (key : Term)
  | erase (key : Term)
  | getKeys
  | isAlive (pid : Nat)
  | list
  | makeRef

end

namespace Program

/-- The reason a finished body exits with. -/
def exitReason : Except RuntimeError Unit → ExitReason
  | .ok () => .normal
  | .error e => e.toExitReason

end Program

end ActorCore
