import ActorCore.Error

/-!
# Panics and faults

A guest computation can fail in two ways: with a runtime error, which guest code can see and
turn into an exit reason, or with a panic, which unwinds to whoever runs the computation.

* `Panic` — a panic whose payload is text, or some other value that carries no text.
* `Fault` — a runtime error or a panic.
-/

namespace ActorCore

/-- A panic: its payload is text, or a value that is not text. -/
inductive Panic where
  | text (message : String)
  | value

namespace Panic

/-- The text a panic carries, if its payload is text. -/
def text? : Panic → Option String
  | .text message => some message
  | .value => none

/-- The reason a process that panics ends with: the panic's text, or a fixed text when the
payload is not text. -/
def reason (p : Panic) : String :=
  p.text?.getD "process panicked"

end Panic

/-- Why a guest computation failed: a runtime error or a panic. -/
inductive Fault where
  | error (e : RuntimeError)
  | panic (p : Panic)

end ActorCore
