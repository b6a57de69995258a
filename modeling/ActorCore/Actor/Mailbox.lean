import ActorCore.Term.Inspect

/-!
# Mailboxes

A mailbox is the queue of messages delivered to a process, oldest first. Delivery appends;
`pop` takes the oldest message; `takeFirst` takes the oldest message a selector accepts and
leaves the others in order. A selector may fail (a guard can panic): the first failure stops
the search and the mailbox is unchanged.
-/

namespace ActorCore

/-- The messages delivered to a process and not yet taken, oldest first. -/
structure Mailbox where
  messages : List Term := []

namespace Mailbox

/-- The mailbox with a message appended. -/
def deliver (mb : Mailbox) (msg : Term) : Mailbox :=
  ⟨mb.messages ++ [msg]⟩

/-- The oldest message and the mailbox without it. -/
def pop (mb : Mailbox) : Option (Term × Mailbox) :=
  match mb.messages with
  | [] => none
  | m :: ms => some (m, ⟨ms⟩)

/-- The number of messages. -/
def len (mb : Mailbox) : Nat :=
  mb.messages.length

/-- The first message a selector accepts, what the selector made of it, and the other
messages in order; the first failure of the selector stops the search. -/
def pick {ε α : Type} (select : Term → Except ε (Option α)) :
    List Term → Except ε (Option (Term × α × List Term))
  | [] => .ok none
  | m :: ms =>
    match select m with
    | .error e => .error e
    | .ok (some a) => .ok (some (m, a, ms))
    | .ok none => (pick select ms).map (Option.map fun (m', a, rest) => (m', a, m :: rest))

/-- Takes the oldest message a fallible selector accepts. -/
def takeFirstE {ε α : Type} (mb : Mailbox) (select : Term → Except ε (Option α)) :
    Except ε (Option (Term × α × Mailbox)) :=
  (pick select mb.messages).map (Option.map fun (m, a, rest) => (m, a, ⟨rest⟩))

/-- Takes the oldest message a selector accepts. -/
def takeFirst {α : Type} (mb : Mailbox) (select : Term → Option α) : Option (Term × α × Mailbox) :=
  match mb.takeFirstE (ε := Unit) fun m => .ok (select m) with
  | .ok found => found
  | .error () => none

/-- A short description: the number of messages. -/
def debugText (mb : Mailbox) : String :=
  "Mailbox \x7b len: " ++ toString mb.len ++ " \x7d"

end Mailbox

end ActorCore
