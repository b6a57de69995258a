import ActorCore.System.Run
import ActorCore.Script.Compile

/-!
# Host sessions

A host drives a process system by a sequence of operations: spawning scripts, sending, links,
monitors, exit signals, the registry, flags, queries, and running the scheduler. The terms of
an operation are expressions over the host's own scope: the previous result and the results
stored by name (no process and no bindings).

* `HostOp.apply` — the result of one operation (a term or a runtime error) and the next state;
  an argument that must be a pid, a reference or a destination and is not one is refused, and
  the operation does nothing.
* `Session.step` — applies an operation, collects the notes processes left while it ran, and
  records its result as the previous result and, if the line names one, under that name; a
  spawn under a stack size on which the machine's allocator panics panics.
* `Machine.reference` — the machine of the reference runs: which stacks it cannot allocate,
  and which stack sizes its allocator cannot count.
* `System.stateTerm` — a summary of the system as a map: the live processes with their status,
  mailbox and links; the registered names; the exit reasons of the ended pids up to the highest
  pid a spawn returned; whether any process has work.
-/

-- Powers of naturals stay core's `Nat.pow` where Mathlib is in scope too, and literal
-- exponents are written as `Nat`, so that these definitions mean the same with or without it.
attribute [local instance (2000)] instPowNat

namespace ActorCore

/-- An operation of the host. -/
inductive HostOp where
  | spawn (body : List Line)
  | spawnLink (parent : Expr) (body : List Line)
  | spawnMonitor (observer : Expr) (body : List Line)
  | send (dest msg : Expr)
  | sendAfter (dest msg : Expr) (ms : Nat)
  | link (a b : Expr)
  | unlink (a b : Expr)
  | monitor (observer observed : Expr)
  | demonitor (ref : Expr)
  | exit (sender : Option Expr) (target reason : Expr)
  | register (name : String) (pid : Expr)
  | unregister (name : String)
  | whereis (name : String)
  | registered
  | processFlag (pid : Expr) (flag : String) (value : Expr)
  | isAlive (pid : Expr)
  | list
  | status (pid : Expr)
  | exitReason (pid : Expr)
  | mailboxLen (pid : Expr)
  | messages (pid : Expr)
  | links (pid : Expr)
  | makeRef
  | hasRunnable
  | tick
  | runUntilIdle
  | run
  | state

namespace HostOp

/-- The operations that take no argument, by name. -/
def plain : List (String × HostOp) :=
  [("registered", .registered), ("list", .list), ("make_ref", .makeRef),
    ("has_runnable", .hasRunnable), ("tick", .tick), ("run_until_idle", .runUntilIdle),
    ("run", .run), ("state", .state)]

end HostOp

namespace System

/-- The summary of one live process. -/
def actorTerm (a : Actor) : Term :=
  .map [(.atom "pid", .pid a.pid), (.atom "status", .atom a.status.name),
    (.atom "mailbox", .list a.mailbox.messages), (.atom "mailbox_len", .int a.mailbox.len),
    (.atom "links", .list (a.links.map Term.pid))]

/-- The summary of the system; the exit reasons listed are those of the pids up to `upTo`. -/
def stateTerm (s : System) (upTo : Nat) : Term :=
  let ended := (List.range upTo).filterMap fun i =>
    (s.exitReason? (i + 1)).map fun r => Term.tuple [.pid (i + 1), r.toTerm]
  .map [(.atom "live", .list (s.actors.map actorTerm)),
    (.atom "registered", .list (s.registry.registered.map Term.str)),
    (.atom "exited", .list ended),
    (.atom "has_runnable", .bool s.hasRunnable)]

end System

namespace HostOp

/-- Whether the operation spawns a process. -/
def spawns : HostOp → Bool
  | .spawn _ | .spawnLink _ _ | .spawnMonitor _ _ => true
  | _ => false

/-- The result of a host operation and the next state, in a scope and with the highest pid a
spawn returned; an argument of the wrong kind is refused. -/
def apply (sc : Scope) (upTo : Nat) (s : System) :
    HostOp → Except Refusal (Except RuntimeError Term × System)
  | .spawn body =>
    let (p, s) := s.spawn (Script.program body)
    pure (.ok (.pid p), s)
  | .spawnLink parent body => do
    let parent ← pidArg "parent" sc parent
    let (p, s) := s.spawn (Script.program body)
    pure (.ok (.pid p), s.link parent p)
  | .spawnMonitor observer body => do
    let observer ← pidArg "observer" sc observer
    let (p, s) := s.spawn (Script.program body)
    let (ref, s) := s.monitor observer p
    pure (.ok (.tuple [.pid p, .ref ref]), s)
  | .send dest msg => do
    let d ← Script.destArg "to" sc dest
    match s.send d (msg.eval sc) with
    | .ok s' => pure (.ok Script.okAtom, s')
    | .error e => pure (.error e, s)
  | .sendAfter dest msg ms => do
    let p ← pidArg "to" sc dest
    pure (.ok Script.okAtom, s.sendAfter p (msg.eval sc) ms)
  | .link a b => do
    let a ← pidArg "a" sc a
    let b ← pidArg "b" sc b
    pure (.ok Script.okAtom, s.link a b)
  | .unlink a b => do
    let a ← pidArg "a" sc a
    let b ← pidArg "b" sc b
    pure (.ok Script.okAtom, s.unlink a b)
  | .monitor observer observed => do
    let observer ← pidArg "observer" sc observer
    let observed ← pidArg "observed" sc observed
    let (ref, s) := s.monitor observer observed
    pure (.ok (.ref ref), s)
  | .demonitor ref => do
    let (found, s) := s.demonitor (← refArg "ref" sc ref)
    pure (.ok (.bool found), s)
  | .exit sender target reason => do
    let sender ← sender.mapM (pidArg "from" sc)
    let target ← pidArg "target" sc target
    pure (.ok Script.okAtom, s.signalExit sender target (ExitReason.ofTerm (reason.eval sc)))
  | .register name pid => do
    let pid ← pidArg "pid" sc pid
    match s.register name pid with
    | .ok s' => pure (.ok Script.okAtom, s')
    | .error e => pure (.error e, s)
  | .unregister name =>
    let (found, s) := s.unregister name
    pure (.ok (.bool found), s)
  | .whereis name => pure (.ok ((s.registry.whereis name).map Term.pid |>.getD .nil), s)
  | .registered => pure (.ok (.list (s.registry.registered.map Term.str)), s)
  | .processFlag pid flag value => do
    let pid ← pidArg "pid" sc pid
    match s.processFlag pid flag (value.eval sc) with
    | (some old, s) => pure (.ok (.tuple [.atom "some", old]), s)
    | (none, s) => pure (.ok (.atom "none"), s)
  | .isAlive pid => do
    let pid ← pidArg "pid" sc pid
    pure (.ok (.bool (s.alive pid)), s)
  | .list => pure (.ok (.list (s.pids.map Term.pid)), s)
  | .status pid => do
    let pid ← pidArg "pid" sc pid
    pure (.ok ((s.find? pid).map (fun a => Term.atom a.status.name) |>.getD .nil), s)
  | .exitReason pid => do
    let pid ← pidArg "pid" sc pid
    match s.exitReason? pid with
    | some r => pure (.ok (.tuple [.atom "some", r.toTerm, .str r.inspect]), s)
    | none => pure (.ok (.atom "none"), s)
  | .mailboxLen pid => do
    let pid ← pidArg "pid" sc pid
    pure (.ok ((s.find? pid).map (fun a => Term.int a.mailbox.len) |>.getD .nil), s)
  | .messages pid => do
    let pid ← pidArg "pid" sc pid
    pure (.ok (.list ((s.find? pid).map (·.mailbox.messages) |>.getD [])), s)
  | .links pid => do
    let pid ← pidArg "pid" sc pid
    pure (.ok (.list (((s.find? pid).map (·.links) |>.getD []).map Term.pid)), s)
  | .makeRef =>
    let (ref, s) := s.makeRef
    pure (.ok (.ref ref), s)
  | .hasRunnable => pure (.ok (.bool s.hasRunnable), s)
  | .tick =>
    let (spent, s) := s.tick
    pure (.ok (.int spent), s)
  | .runUntilIdle => pure (.ok Script.okAtom, s.runUntilIdle)
  | .run => pure (.ok Script.okAtom, s.run)
  | .state => pure (.ok (s.stateTerm upTo), s)

end HostOp

/-- The pid that a note of a spawn reports: the spawn returned it to the script. -/
def Note.spawned? (n : Note) : Option Nat :=
  if n.op = "spawn" then
    match n.result with
    | .term (.pid p) | .term (.tuple [.pid p, _]) => some p
    | _ => none
  else none

/-- A machine a host runs a system on: how it answers stack allocations, and the stack sizes
under which its stack allocator panics, which takes the whole system down. -/
structure Machine where
  allocate : StackAllocation
  panics : Nat → Bool

/-! ## The reference machine -/

/-- The size of a page of memory. -/
def pageSize : Nat := 4096

/-- The bytes a stack of `n` bytes takes: `n` rounded up to whole pages, and a guard page. -/
def stackReservation (n : Nat) : Nat :=
  (n + pageSize - 1) / pageSize * pageSize + pageSize

/-- The pages of memory of the reference machine. -/
def memoryPages : Nat := 8234882

/-- The machine of the reference runs. Its allocator commits the writable pages of a stack, all
but the guard page, when it makes the stack, so it refuses a stack of more pages than there are;
and it counts sizes in 64-bit words, so it panics on a size that does not fit in one. -/
def Machine.reference : Machine where
  allocate _ n :=
    if stackReservation n - pageSize ≤ memoryPages * pageSize then none
    else some "Cannot allocate memory (os error 12)"
  panics n := 2 ^ (64 : Nat) ≤ stackReservation n

/-- A host driving a system: the machine, the system, the host's scope, and the highest pid a
spawn has returned, to the host or to a script. -/
structure Session where
  machine : Machine
  system : System
  scope : Scope := {}
  spawned : Nat := 0

namespace Session

/-- A session on a fresh system on a machine. -/
def createOn (c : Config) (m : Machine) : Session :=
  { machine := m, system := System.createOn c m.allocate }

/-- A session on a fresh system on the reference machine. -/
def create (c : Config) : Session :=
  createOn c .reference

/-- The panic of a spawn whose stack size the machine's allocator cannot count. -/
def stackPanic : Panic :=
  .text "integer overflow while calculating stack size"

/-- Applies a host operation: its result, the notes left while it ran, and the next session;
the result is recorded as the previous result and under `store`. An operation whose argument
is refused leaves the session as it was. An operation during which a process is spawned under a
stack size on which the machine's allocator panics panics. -/
def step (ss : Session) (op : HostOp) (store : Option String) :
    Except Panic ((Except Refusal (Except RuntimeError Term) × List Entry) × Session) :=
  match op.apply ss.scope ss.spawned { ss.system with trace := [] } with
  | .error r => .ok ((.error r, []), ss)
  | .ok (result, s) =>
    if s.nextPid ≠ ss.system.nextPid && ss.machine.panics s.config.stackSize then .error stackPanic
    else
    let scope := match result with
      | .ok t => Script.afterStep ss.scope t store
      | .error _ => ss.scope
    let spawned := (s.trace.filterMap (·.note.spawned?)).foldl max
      (if op.spawns then s.nextPid else ss.spawned)
    .ok ((.ok result, s.trace), { ss with system := { s with trace := [] }, scope, spawned })

end Session

end ActorCore
