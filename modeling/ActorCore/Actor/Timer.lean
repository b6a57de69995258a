import ActorCore.Term.Basic

/-!
# Timers

A timer queue holds events due at deadlines (in milliseconds). Events leave it in order of
deadline, and events with the same deadline in the order they were pushed: each push gets the
next sequence number, starting at 1, and the queue is kept sorted by deadline and sequence
number.

A cancelled event is marked, not removed, unless marked events would then be more than half of
the queue, in which case every marked event is dropped. The first event of the queue is never
marked: cancelling it, or taking the event before marked ones, drops the marked events at the
front. `len` counts the events that are not marked.
-/

namespace ActorCore

/-- What happens when a timer fires. -/
inductive TimerEvent where
  /-- Wake a sleeping process. -/
  | wake (pid : Nat)
  /-- End the receive a process is waiting in, if it is still the one the token names. -/
  | receiveTimeout (pid token : Nat)
  /-- Deliver a message. -/
  | deliver (pid : Nat) (msg : Term)

/-- An event in the queue, with its deadline and sequence number. -/
structure TimerEntry where
  deadline : Nat
  seq : Nat
  event : TimerEvent

/-- Events by deadline, then by sequence number; `cancelled` holds the marked sequence numbers. -/
structure TimerQueue where
  entries : List TimerEntry := []
  seq : Nat := 0
  cancelled : List Nat := []

namespace TimerQueue

/-- `e` goes after every entry due no later than it. -/
def insertSorted (e : TimerEntry) : List TimerEntry → List TimerEntry
  | [] => [e]
  | x :: xs => if e.deadline < x.deadline then e :: x :: xs else x :: insertSorted e xs

/-- Pushes an event due at a deadline; returns its sequence number. -/
def push (q : TimerQueue) (deadline : Nat) (event : TimerEvent) : Nat × TimerQueue :=
  let seq := q.seq + 1
  (seq, { q with entries := insertSorted ⟨deadline, seq, event⟩ q.entries, seq })

/-- Drops marked entries from the front. -/
def skipCancelled (entries : List TimerEntry) (cancelled : List Nat) : List TimerEntry × List Nat :=
  match entries with
  | [] => ([], cancelled)
  | e :: rest =>
    if cancelled.contains e.seq then skipCancelled rest (cancelled.erase e.seq)
    else (entries, cancelled)

/-- Marks the event of a sequence number, if it is in the queue. -/
def cancel (q : TimerQueue) (id : Nat) : TimerQueue :=
  if id = 0 ∨ q.seq < id ∨ !(q.entries.any (·.seq == id)) then q
  else
    let cancelled := if q.cancelled.contains id then q.cancelled else q.cancelled ++ [id]
    if q.entries.length < cancelled.length * 2 then
      { q with entries := q.entries.filter (fun e => !cancelled.contains e.seq), cancelled := [] }
    else
      let (entries, cancelled) := skipCancelled q.entries cancelled
      { q with entries, cancelled }

/-- The next event. -/
def peek (q : TimerQueue) : Option TimerEvent :=
  q.entries.head?.map (·.event)

/-- Takes the next event. -/
def pop (q : TimerQueue) : Option (TimerEvent × TimerQueue) :=
  match q.entries with
  | [] => none
  | e :: rest =>
    let (entries, cancelled) := skipCancelled rest q.cancelled
    some (e.event, { q with entries, cancelled })

/-- Takes the next event if it is due at `now`. -/
def popDue (q : TimerQueue) (now : Nat) : Option (TimerEvent × TimerQueue) :=
  match q.entries with
  | e :: _ => if now < e.deadline then none else q.pop
  | [] => none

/-- The deadline of the next event. -/
def nextDeadline (q : TimerQueue) : Option Nat :=
  q.entries.head?.map (·.deadline)

/-- The number of events that are not marked. -/
def len (q : TimerQueue) : Nat :=
  q.entries.length - q.cancelled.length

end TimerQueue

end ActorCore
