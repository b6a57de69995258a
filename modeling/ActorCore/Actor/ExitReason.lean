import ActorCore.Term.Inspect

/-!
# Exit reasons

Why a process ended, and what an exit signal does to the process it reaches.

* `ExitReason` — the body returned (`normal`), an untrappable kill request (`kill`), killed
  (`killed`), the other end of a link or monitor did not exist (`noproc`), or any other term.
  `ExitReason.ofTerm` recognises exactly the atoms `:normal`, `:kill`, `:killed` and `:noproc`.
* `ExitReason.action` — a kill request terminates the target as killed; otherwise a target that
  traps exits, or a normal reason, gets the signal delivered as a message, and any other reason
  terminates the target with that reason.
* `ExitReason.exitMessage`, `ExitReason.downMessage` — the messages `{:EXIT, from, reason}` and
  `{:DOWN, ref, :process, pid, reason}`.
-/

namespace ActorCore

/-- Why a process ended. -/
inductive ExitReason where
  | normal
  | kill
  | killed
  | noproc
  | error (t : Term)

namespace ExitReason

/-- The reason a term stands for: the four reserved atoms, or any other term. -/
def ofTerm : Term → ExitReason
  | .atom "normal" => .normal
  | .atom "kill" => .kill
  | .atom "killed" => .killed
  | .atom "noproc" => .noproc
  | t => .error t

/-- The term of a reason. -/
def toTerm : ExitReason → Term
  | .normal => .atom "normal"
  | .kill => .atom "kill"
  | .killed => .atom "killed"
  | .noproc => .atom "noproc"
  | .error t => t

/-- The name of the kind of reason. -/
def kindName : ExitReason → String
  | .normal => "normal"
  | .kill => "kill"
  | .killed => "killed"
  | .noproc => "noproc"
  | .error _ => "error"

/-- The text of a reason: the text of its term. -/
def inspect (r : ExitReason) : String :=
  r.toTerm.inspect

/-- The body returned. -/
def isNormal : ExitReason → Bool
  | .normal => true
  | _ => false

/-- The kill request. -/
def isKill : ExitReason → Bool
  | .kill => true
  | _ => false

/-- What an exit signal does to a live process. -/
inductive Action where
  /-- Append `{:EXIT, from, reason}` to the target's mailbox. -/
  | deliver
  /-- End the target with this reason. -/
  | terminate (reason : ExitReason)

/-- The effect of a signal with this reason on a target that traps exits or not. -/
def action (r : ExitReason) (trapping : Bool) : Action :=
  match r with
  | .kill => .terminate .killed
  | .normal => .deliver
  | r => if trapping then .deliver else .terminate r

/-- `{:EXIT, from, reason}`; `from` is `nil` for a signal that no process sent. -/
def exitMessage (r : ExitReason) (sender : Option Nat) : Term :=
  .tuple [.atom "EXIT", (sender.map Term.pid).getD .nil, r.toTerm]

/-- `{:DOWN, ref, :process, pid, reason}`. -/
def downMessage (r : ExitReason) (ref pid : Nat) : Term :=
  .tuple [.atom "DOWN", .ref ref, .atom "process", .pid pid, r.toTerm]

end ExitReason

end ActorCore
