import ActorCore.Actor.Basic
import ActorCore.Actor.Registry
import ActorCore.Actor.Monitor
import ActorCore.Actor.Timer
import ActorCore.Actor.Config

/-!
# The process system

The state of a process system: its settings, how its machine answers stack allocations, a clock
in milliseconds, the counters of pids, references and receive tokens (each starts at 0 and is
incremented before use, so the first is 1), the live processes in ascending order of pid, the
registry, the monitor table, the timers, the exit reasons of ended processes in the order they
ended, and the notes processes have left.

The operations here change the state at once, without running any process:

* `spawn` — the next pid; the process is live with one task, to start its program, unless the
  machine cannot allocate its stack, which ends it at once with `{:system_limit, text}`, the
  text being the machine's error. How the machine answers each allocation is a parameter of
  the system (`System.allocateStack`).
* `deliver` — appends to the mailbox of a live process (a message to an ended process is
  dropped); a process waiting in a receive gets a task to look again.
* `link` — links two live processes; when one of them has ended, the live one gets a `noproc`
  exit signal from it.
* `monitor` — installs a monitor; when the observed process has ended, the observer gets
  `{:DOWN, ref, :process, pid, :noproc}` at once instead.
* `release` — ends a live process: it is removed with its tasks and pending receive (whose
  timer is cancelled), its name is freed, the monitors it holds are dropped, the observers of
  the monitors on it get `:DOWN` messages in ascending order of reference, it is unlinked from
  every process it was linked to, and each of them gets an exit signal from it, in ascending
  order of pid.
* `propagate` — delivers exit signals, first in first out: to an ended target a signal does
  nothing; otherwise, by `ExitReason.action`, it becomes an `{:EXIT, from, reason}` message or
  ends the target, whose own signals join the end of the queue. Each step drops a signal or
  removes a live process, so the queue empties.
-/

namespace ActorCore

/-- A note and the process that left it. -/
structure Entry where
  pid : Nat
  note : Note

/-- An exit signal: who sent it (none for the host), its target and its reason. -/
structure Signal where
  sender : Option Nat
  target : Nat
  reason : ExitReason

/-- How the machine answers the allocation of the stack of a new process, given the pid the
process is to have and the stack size: `none` when the stack is allocated, or the text of the
error. -/
abbrev StackAllocation := Nat → Nat → Option String

/-- The exit reason of a process whose stack could not be allocated, with the machine's error. -/
def allocationFailure (text : String) : Term :=
  .tuple [.atom "system_limit", .str text]

/-- The state of a process system. -/
structure System where
  config : Config
  allocateStack : StackAllocation := fun _ _ => none
  now : Nat := 0
  nextPid : Nat := 0
  nextRef : Nat := 0
  nextToken : Nat := 0
  actors : Actors := []
  registry : Registry := {}
  monitors : MonitorTable := {}
  timers : TimerQueue := {}
  exited : List (Nat × ExitReason) := []
  trace : List Entry := []

namespace System

/-- A fresh system with the settings clamped, on a machine that answers stack allocations by
`allocate`. -/
def createOn (c : Config) (allocate : StackAllocation) : System :=
  { config := c.clamped, allocateStack := allocate }

/-- A fresh system with the settings clamped, on a machine that allocates every stack. -/
def create (c : Config) : System :=
  createOn c fun _ _ => none

/-- The live process of a pid. -/
def find? (s : System) (pid : Nat) : Option Actor :=
  s.actors.find? pid

/-- Whether a pid is live. -/
def alive (s : System) (pid : Nat) : Bool :=
  s.actors.alive pid

/-- Applies `f` to a live process. -/
def update (s : System) (pid : Nat) (f : Actor → Actor) : System :=
  { s with actors := s.actors.update pid f }

/-- Starts a process running a program given its pid; returns the pid. -/
def spawn (s : System) (body : Nat → Program) : Nat × System :=
  let pid := s.nextPid + 1
  let s := { s with nextPid := pid }
  match s.allocateStack pid s.config.stackSize with
  | none => (pid, { s with actors := s.actors ++ [{ pid, queue := [.resume .start], cont := fun _ => body pid }] })
  | some text => (pid, { s with exited := s.exited ++ [(pid, .error (allocationFailure text))] })

/-- The pid a destination names: a pid, or the process registered under a name. -/
def resolve (s : System) : Dest → Except RuntimeError Nat
  | .pid n => .ok n
  | .name n =>
    match s.registry.whereis n with
    | some p => .ok p
    | none => .error (.unregisteredName n)

/-- Delivers a message to a live process; a message to an ended process is dropped. -/
def deliver (s : System) (pid : Nat) (msg : Term) : System :=
  s.update pid (·.deliver msg)

/-- Queues a task for a live process. -/
def enqueue (s : System) (pid : Nat) (t : Task) : System :=
  s.update pid (·.enqueue t)

/-- Sends a message to a destination. -/
def send (s : System) (dest : Dest) (msg : Term) : Except RuntimeError System := do
  let pid ← s.resolve dest
  pure (s.deliver pid msg)

/-- Arranges for a message to be delivered `after` milliseconds from now. -/
def sendAfter (s : System) (pid : Nat) (msg : Term) (after : Nat) : System :=
  { s with timers := (s.timers.push (s.now + after) (.deliver pid msg)).2 }

/-- A fresh reference. -/
def makeRef (s : System) : Nat × System :=
  (s.nextRef + 1, { s with nextRef := s.nextRef + 1 })

/-- Removes the link between two processes. -/
def unlink (s : System) (a b : Nat) : System :=
  { s with actors := s.actors.unlink a b }

/-- Installs a monitor of `observed` for `observer`; returns its reference. -/
def monitor (s : System) (observer observed : Nat) : Nat × System :=
  let (ref, s) := s.makeRef
  if s.alive observed then
    let s := { s with monitors := s.monitors.insert ref ⟨observer, observed⟩ }
    (ref, s.update observer fun a => { a with monitors := insertAscending ref a.monitors })
  else (ref, s.deliver observer (ExitReason.noproc.downMessage ref observed))

/-- Removes a monitor; whether it was installed. -/
def demonitor (s : System) (ref : Nat) : Bool × System :=
  match s.monitors.remove ref with
  | (some m, table) =>
    (true, { s with monitors := table }.update m.observer fun a => { a with monitors := a.monitors.erase ref })
  | (none, _) => (false, s)

/-- What the end of process `a` with `reason` does to another live process `o`: the monitors
`o` held on `a` are dropped and `o` gets their `:DOWN` messages in the order of `taken`; a link
to `a` is removed. -/
def afterExit (a : Actor) (reason : ExitReason) (taken : List (Nat × Nat)) (o : Actor) : Actor :=
  let refs := (taken.filter (·.2 == o.pid)).map (·.1)
  let o := { o with monitors := refs.foldl List.erase o.monitors }
  let o := refs.foldl (fun o r => o.deliver (reason.downMessage r a.pid)) o
  if a.links.contains o.pid then { o with links := o.links.erase a.pid } else o

/-- Ends a live process with a reason; returns the exit signals to its linked processes. -/
def release (s : System) (pid : Nat) (reason : ExitReason) : System × List Signal :=
  match s.find? pid with
  | none => (s, [])
  | some a =>
    let timers := match a.pending.bind (·.timeout) with
      | some id => s.timers.cancel id
      | none => s.timers
    let held := a.monitors.foldl (fun t r => (t.remove r).2) s.monitors
    let (taken, monitors) := held.takeObserving pid
    let actors := (s.actors.filter (·.pid != pid)).map (afterExit a reason taken)
    ({ s with actors, timers, monitors, registry := s.registry.cleanup pid,
              exited := s.exited ++ [(pid, reason)] },
     a.links.map fun other => ⟨some pid, other, reason⟩)

@[simp] theorem length_update (s : System) (pid : Nat) (f : Actor → Actor) :
    (s.update pid f).actors.length = s.actors.length := by
  simp [update]

@[simp] theorem length_deliver (s : System) (pid : Nat) (msg : Term) :
    (s.deliver pid msg).actors.length = s.actors.length := by
  simp [deliver]

/-- Ending a live process removes it. -/
theorem length_release_lt (s : System) (pid : Nat) (reason : ExitReason) (a : Actor)
    (h : s.find? pid = some a) : (s.release pid reason).1.actors.length < s.actors.length := by
  unfold release
  rw [h]
  simp only [List.length_map]
  apply List.length_filter_lt_length_iff_exists.mpr
  refine ⟨a, ?_, ?_⟩
  · exact List.mem_of_find?_eq_some h
  · have := List.find?_some h
    simpa using this

/-- Delivers exit signals, first in first out, until none is left. -/
def propagate (s : System) (signals : List Signal) : System :=
  match signals with
  | [] => s
  | sg :: rest =>
    match _hfind : s.find? sg.target with
    | none => propagate s rest
    | some a =>
      match sg.reason.action a.trapExit with
      | .deliver => propagate (s.deliver sg.target (sg.reason.exitMessage sg.sender)) rest
      | .terminate r => propagate (s.release sg.target r).1 (rest ++ (s.release sg.target r).2)
termination_by (s.actors.length, signals.length)
decreasing_by
  · exact Prod.Lex.right _ (by simp)
  · exact Prod.Lex.right' _ (by simp) (by simp)
  · exact Prod.Lex.left _ _ (length_release_lt s sg.target r a _hfind)

/-- Sends one exit signal. -/
def signalExit (s : System) (sender : Option Nat) (target : Nat) (reason : ExitReason) : System :=
  s.propagate [⟨sender, target, reason⟩]

/-- Ends a live process and delivers the exit signals that follow. -/
def terminate (s : System) (pid : Nat) (reason : ExitReason) : System :=
  let (s, signals) := s.release pid reason
  s.propagate signals

/-- Links two processes; when exactly one of them is live, it gets a `noproc` exit signal from
the other. -/
def link (s : System) (a b : Nat) : System :=
  match s.alive a, s.alive b with
  | true, true => { s with actors := s.actors.link a b }
  | true, false => s.signalExit (some b) a .noproc
  | false, true => s.signalExit (some a) b .noproc
  | false, false => s

/-- Registers a name for a live process. -/
def register (s : System) (name : String) (pid : Nat) : Except RuntimeError System :=
  if s.alive pid then
    (s.registry.register name pid).map fun r => { s with registry := r }
  else .error (.raise (.tuple [.atom "noproc", .pid pid]))

/-- Removes a name; whether it was registered. -/
def unregister (s : System) (name : String) : Bool × System :=
  let (found, r) := s.registry.unregister name
  (found, { s with registry := r })

/-- Sets a flag of a live process; the old value. -/
def processFlag (s : System) (pid : Nat) (flag : String) (value : Term) : Option Term × System :=
  match s.find? pid with
  | some a =>
    let (old, a) := a.setFlag flag value
    (some old, s.update pid fun _ => a)
  | none => (none, s)

/-- Changes the dictionary of a live process; what the change returns, if the process is live. -/
def withDictionary {α : Type} (s : System) (pid : Nat) (f : TermMap → α × TermMap) : Option α × System :=
  match s.find? pid with
  | some a =>
    let (out, d) := f a.dictionary
    (some out, s.update pid fun a => { a with dictionary := d })
  | none => (none, s)

/-- The live pids, ascending. -/
def pids (s : System) : List Nat :=
  s.actors.map (·.pid)

/-- Whether some live process has a queued task. -/
def hasRunnable (s : System) : Bool :=
  s.actors.any fun a => !a.queue.isEmpty

/-- The exit reason of an ended process. -/
def exitReason? (s : System) (pid : Nat) : Option ExitReason :=
  s.exited.lookup pid

end System

end ActorCore
