import ActorCore.Actor.Program
import ActorCore.Actor.Mailbox
import ActorCore.Term.Map

/-!
# Processes (actors)

A live process: its status, mailbox, links, the monitors it holds as observer, whether it traps
exits, its flags and dictionary, the reductions it has used, the tasks queued for it, the
continuation of its program, and the receive it waits in.

* `Actor.setFlag` — `trap_exit` stores the truthiness of the value and returns the old
  setting; any other flag stores the value and returns the old one, or `nil`.
* `Actors.link`, `Actors.unlink` — links are symmetric: linking two processes adds each to
  the other's links when it is live; a process is never linked to itself.
-/

namespace ActorCore

/-- What a process is doing. -/
inductive Status where
  /-- Spawned and not yet run. -/
  | stopped
  | running
  /-- Waiting for a wake-up timer. -/
  | sleeping
  /-- Waiting in a receive. -/
  | suspended
  /-- Ended: the record is being torn down, and is no longer among the live processes. -/
  | exiting
  deriving DecidableEq, Repr

/-- The name of a status. -/
def Status.name : Status → String
  | .stopped => "Stopped"
  | .running => "Running"
  | .sleeping => "Sleeping"
  | .suspended => "Suspended"
  | .exiting => "Exiting"

/-- Work queued for a process: resume its program with a reply, or look again for a message
its receive accepts. -/
inductive Task where
  | resume (r : Reply)
  | retry

/-- A receive a process waits in: its clauses, the token that names it, and the timer of its
timeout. -/
structure PendingReceive where
  clauses : List Clause
  token : Nat
  timeout : Option Nat

/-- A live process. -/
structure Actor where
  pid : Nat
  status : Status := .stopped
  mailbox : Mailbox := {}
  /-- Linked processes, ascending. -/
  links : List Nat := []
  /-- References of the monitors this process holds as observer, ascending. -/
  monitors : List Nat := []
  trapExit : Bool := false
  flags : TermMap := []
  dictionary : TermMap := []
  reductions : Nat := 0
  queue : List Task := []
  cont : Reply → Program := fun _ => .finish (.ok ())
  pending : Option PendingReceive := none

/-- `n` inserted into an ascending list, unless it is there. -/
def insertAscending (n : Nat) : List Nat → List Nat
  | [] => [n]
  | m :: ms => if n < m then n :: m :: ms else if n = m then m :: ms else m :: insertAscending n ms

namespace Actor

/-- Sets a flag; the old value. -/
def setFlag (p : Actor) (flag : String) (value : Term) : Term × Actor :=
  if flag = "trap_exit" then (.bool p.trapExit, { p with trapExit := value.truthy })
  else ((p.flags.get? (.atom flag)).getD .nil, { p with flags := p.flags.insert (.atom flag) value })

/-- The process with a message appended to its mailbox; a process waiting in a receive also gets
a task to look at its mailbox again. -/
def deliver (p : Actor) (msg : Term) : Actor :=
  { p with mailbox := p.mailbox.deliver msg,
           queue := if p.status = .suspended then p.queue ++ [.retry] else p.queue }

/-- The process with a task appended to its queue. -/
def enqueue (p : Actor) (t : Task) : Actor :=
  { p with queue := p.queue ++ [t] }

/-- A short description of a process. -/
def debugText (p : Actor) : String :=
  let links := ", ".intercalate (p.links.map fun n => "PID(" ++ toString n ++ ")")
  "Process \x7b pid: PID(" ++ toString p.pid ++ "), status: " ++ p.status.name ++ ", links: \x7b" ++
    links ++ "\x7d, trap_exit: " ++ (if p.trapExit then "true" else "false") ++ ", mailbox_len: " ++
    toString p.mailbox.len ++ ", reductions: " ++ toString p.reductions ++ " \x7d"

end Actor

/-- Live processes, ascending by pid. -/
abbrev Actors := List Actor

namespace Actors

/-- The live process of a pid. -/
def find? (ps : Actors) (pid : Nat) : Option Actor :=
  List.find? (·.pid == pid) ps

/-- Whether a pid is live. -/
def alive (ps : Actors) (pid : Nat) : Bool :=
  ps.any (·.pid == pid)

/-- Applies `f` to the process of a pid, if it is live. -/
def update (ps : Actors) (pid : Nat) (f : Actor → Actor) : Actors :=
  ps.map fun p => if p.pid = pid then f p else p

/-- Links two distinct processes, each side only if it is live. -/
def link (ps : Actors) (a b : Nat) : Actors :=
  if a = b then ps
  else
    let ps := ps.update a fun p => { p with links := insertAscending b p.links }
    ps.update b fun p => { p with links := insertAscending a p.links }

/-- Removes the link between two processes, on each side that is live. -/
def unlink (ps : Actors) (a b : Nat) : Actors :=
  let ps := ps.update a fun p => { p with links := p.links.erase b }
  ps.update b fun p => { p with links := p.links.erase a }

@[simp] theorem length_update (ps : Actors) (pid : Nat) (f : Actor → Actor) :
    (ps.update pid f).length = ps.length := by
  simp [update]

@[simp] theorem length_link (ps : Actors) (a b : Nat) : (ps.link a b).length = ps.length := by
  unfold link; split <;> simp

@[simp] theorem length_unlink (ps : Actors) (a b : Nat) : (ps.unlink a b).length = ps.length := by
  simp [unlink]

end Actors

end ActorCore
