import ActorCore.System.Basic

/-!
# Running processes

Processes run in turns. A turn (`runSlice`) takes a process's queued tasks one by one, each
costing one reduction, up to a limit: a task resumes the program with a reply, or looks again
for a message the pending receive accepts (a task that finds none still costs its reduction).
Resuming runs the program, collecting its notes, until its next request, which the scheduler
answers at once (the answer is queued as the next task) or by parking the process: in a
receive that no queued message satisfies, or asleep. A program that ends ends its process.

* `selectMessage` — the oldest message some clause accepts, the first such clause, and the
  values it bound; a guard that panics ends the search.
* `tick` — rounds over the processes with queued work, in ascending order of pid, each process
  running up to `reductions` tasks; the tick stops when no work is left or when it has used
  `tickBudget` reductions. Returns the reductions used.
* `fireTimers` — handles the due timers: wake a sleeping process, time out the receive a token
  names, deliver a message.
* `runUntilIdle` — fires due timers and ticks until no work is left; `run` then waits for the
  next live timer and goes on, until no timer is left.
-/

namespace ActorCore

/-- How the scheduler answers a request: with a reply to queue, or by parking the process. -/
inductive Flow where
  | reply (r : Reply)
  | park

/-- The reason a process ends with when its program or a guard panics. -/
def panicReason (p : Panic) : ExitReason :=
  .error (.str p.reason)

/-- The position of the first clause that selects a message and the values it bound. -/
def firstClause (msg : Term) : List (Clause × Nat) → Except Panic (Option (Nat × List Term))
  | [] => .ok none
  | (c, i) :: rest => do
    match ← c.select [msg] with
    | some values => pure (some (i, values))
    | none => firstClause msg rest

/-- The oldest message some clause selects, and the mailbox without it. -/
def selectMessage (mb : Mailbox) (clauses : List Clause) : Except Panic (Option (Received × Mailbox)) :=
  (mb.takeFirstE fun msg => firstClause msg clauses.zipIdx).map
    (Option.map fun (_, (i, values), mb') => (.message i values, mb'))

/-- The notes a program leaves before its next request or its end, and that request or end. -/
def Program.advance : Program → List Note × Program
  | .note n next =>
    let (notes, stop) := next.advance
    (n :: notes, stop)
  | p => ([], p)

namespace System

/-- Takes the first queued task of a live process. -/
def popTask (s : System) (pid : Nat) : Option (Task × System) :=
  match s.find? pid with
  | some a =>
    match a.queue with
    | t :: rest => some (t, s.update pid fun a => { a with queue := rest })
    | [] => none
  | none => none

/-- A process asks to receive: a queued message the clauses select is the reply at once; with
no such message, a deadline already passed is a timeout; otherwise the process waits, with a
timer when there is a deadline. -/
def beginReceive (s : System) (pid : Nat) (clauses : List Clause) (deadline : Option Nat) : Flow × System :=
  match s.find? pid with
  | none => (.park, s)
  | some a =>
    match selectMessage a.mailbox clauses with
    | .error p => (.park, s.terminate pid (panicReason p))
    | .ok (some (r, mb)) => (.reply (.received r), s.update pid fun a => { a with mailbox := mb })
    | .ok none =>
      if deadline.any (· ≤ s.now) then (.reply (.received .timeout), s)
      else
        let token := s.nextToken + 1
        let (timeout, timers) := match deadline with
          | some d =>
            let (id, q) := s.timers.push d (.receiveTimeout pid token)
            (some id, q)
          | none => (none, s.timers)
        (.park, { s with nextToken := token, timers }.update pid fun a =>
          { a with status := .suspended, pending := some ⟨clauses, token, timeout⟩ })

/-- The scheduler's answer to a request of a live process. -/
def handle (s : System) (pid : Nat) : Request → Flow × System
  | .yield => (.reply .ok, s)
  | .spawn body link monitor =>
    let (child, s) := s.spawn body
    let s := if link then s.link pid child else s
    if monitor then
      let (ref, s) := s.monitor pid child
      (.reply (.spawned child (some ref)), s)
    else (.reply (.spawned child none), s)
  | .send dest msg =>
    match s.send dest msg with
    | .ok s' => (.reply .ok, s')
    | .error e => (.reply (.error e), s)
  | .sendAfter target msg after => (.reply .ok, s.sendAfter target msg after)
  | .receive clauses after => s.beginReceive pid clauses (after.map (s.now + ·))
  | .sleep ms =>
    let s := s.update pid fun a => { a with status := .sleeping }
    (.park, { s with timers := (s.timers.push (s.now + ms) (.wake pid)).2 })
  | .link other => (.reply .ok, s.link pid other)
  | .unlink other => (.reply .ok, s.unlink pid other)
  | .monitor other =>
    let (ref, s) := s.monitor pid other
    (.reply (.ref ref), s)
  | .demonitor ref =>
    let (found, s) := s.demonitor ref
    (.reply (.bool found), s)
  | .exit target reason => (.reply .ok, s.signalExit (some pid) target reason)
  | .register name =>
    match s.register name pid with
    | .ok s' => (.reply .ok, s')
    | .error e => (.reply (.error e), s)
  | .unregister name =>
    let (found, s) := s.unregister name
    (.reply (.bool found), s)
  | .whereis name => (.reply (.pid (s.registry.whereis name)), s)
  | .registered => (.reply (.names s.registry.registered), s)
  | .processFlag flag value =>
    let (old, s) := s.processFlag pid flag value
    (.reply (.term (old.getD .nil)), s)
  | .put key value =>
    let (old, s) := s.withDictionary pid fun d => (d.get? key, d.insert key value)
    (.reply (.term (old.bind id |>.getD .nil)), s)
  | .get key =>
    let (v, s) := s.withDictionary pid fun d => (d.get? key, d)
    (.reply (.term (v.bind id |>.getD .nil)), s)
  | .erase key =>
    let (old, s) := s.withDictionary pid fun d => (d.get? key, d.erase key)
    (.reply (.term (old.bind id |>.getD .nil)), s)
  | .getKeys =>
    let (keys, s) := s.withDictionary pid fun d => (d.keys, d)
    (.reply (.terms (keys.getD [])), s)
  | .isAlive other => (.reply (.bool (s.alive other)), s)
  | .list => (.reply (.pids s.pids), s)
  | .makeRef =>
    let (ref, s) := s.makeRef
    (.reply (.ref ref), s)

/-- Resumes the program of a live process with a reply: its notes are collected, and the
request it stops at is returned; a program that ends ends the process. -/
def resume (s : System) (pid : Nat) (reply : Reply) : Option Request × System :=
  match s.find? pid with
  | none => (none, s)
  | some a =>
    let (notes, stop) := (a.cont reply).advance
    let s := { s with trace := s.trace ++ notes.map fun n => ({ pid, note := n } : Entry) }
    let s := s.update pid fun a => { a with status := .running }
    match stop with
    | .call req k => (some req, s.update pid fun a => { a with cont := k })
    | .finish outcome => (none, s.terminate pid (Program.exitReason outcome))
    | .crash p => (none, s.terminate pid (panicReason p))
    | .note _ _ => (none, s)

/-- Looks again at the mailbox of a process waiting in a receive; the reply when a message is
selected, which ends the wait and cancels its timer. -/
def retryReceive (s : System) (pid : Nat) : Option Reply × System :=
  match s.find? pid with
  | none => (none, s)
  | some a =>
    match a.pending with
    | none => (none, s)
    | some pr =>
      match selectMessage a.mailbox pr.clauses with
      | .ok none => (none, s)
      | .ok (some (r, mb)) =>
        let s := s.update pid fun a => { a with mailbox := mb, pending := none }
        let s := match pr.timeout with
          | some id => { s with timers := s.timers.cancel id }
          | none => s
        (some (.received r), s)
      | .error p => (none, s.terminate pid (panicReason p))

/-- Runs the tasks of a process while `allowance` lasts; returns the reductions used. -/
def runTasks (pid : Nat) : Nat → Nat → System → Nat × System
  | 0, used, s => (used, s)
  | allowance + 1, used, s =>
    match s.popTask pid with
    | none => (used, s)
    | some (task, s) =>
      let used := used + 1
      let (reply, s) := match task with
        | .resume r => (some r, s)
        | .retry => s.retryReceive pid
      match reply with
      | none => runTasks pid allowance used s
      | some r =>
        match s.resume pid r with
        | (none, s) => (used, s)
        | (some req, s) =>
          let (flow, s) := s.handle pid req
          let s := match flow with
            | .reply r => s.enqueue pid (.resume r)
            | .park => s
          runTasks pid allowance used s

/-- One turn of a process: at most `limit` tasks; the reductions used are added to its count. -/
def runSlice (s : System) (pid : Nat) (limit : Nat) : Nat × System :=
  let (used, s) := runTasks pid limit 0 s
  (used, s.update pid fun a => { a with reductions := a.reductions + used })

/-- The pids with queued tasks, ascending. -/
def runnable (s : System) : List Nat :=
  (s.actors.filter fun a => !a.queue.isEmpty).map (·.pid)

/-- One round of a tick over a list of pids: whether the budget ran out, the reductions used so
far, and the state. -/
def tickRound (budget : Nat) : List Nat → Nat → System → Bool × Nat × System
  | [], spent, s => (false, spent, s)
  | pid :: rest, spent, s =>
    if budget ≤ spent then (true, spent, s)
    else
      let (used, s) := s.runSlice pid (min s.config.reductions (budget - spent))
      tickRound budget rest (spent + used) s

/-- Rounds of a tick until no work is left or the budget runs out. -/
def tickFrom (budget : Nat) (spent : Nat) (s : System) : Nat × System :=
  let pids := s.runnable
  if pids.isEmpty then (spent, s)
  else
    let (exhausted, spent', s') := tickRound budget pids spent s
    if !exhausted ∧ spent < spent' ∧ spent < budget then tickFrom budget spent' s'
    else (spent', s')
termination_by budget - spent

/-- A tick; returns the reductions used. -/
def tick (s : System) : Nat × System :=
  tickFrom s.config.tickBudget 0 s

/-- Handles one timer event. -/
def fire (s : System) : TimerEvent → System
  | .wake pid =>
    if (s.find? pid).any (·.status = .sleeping) then s.enqueue pid (.resume .ok) else s
  | .receiveTimeout pid token =>
    if (s.find? pid).any (fun a => a.pending.any (·.token = token)) then
      (s.update pid fun a => { a with pending := none }).enqueue pid (.resume (.received .timeout))
    else s
  | .deliver pid msg => s.deliver pid msg

/-- Handles due timers, at most `fuel` of them. -/
def fireDue : Nat → System → System
  | 0, s => s
  | fuel + 1, s =>
    match s.timers.popDue s.now with
    | some (e, q) => fireDue fuel ({ s with timers := q }.fire e)
    | none => s

/-- Handles every due timer (each firing removes one, and none adds any). -/
def fireTimers (s : System) : System :=
  fireDue s.timers.entries.length s

/-- Whether a timer event can still have an effect. -/
def isLive (s : System) : TimerEvent → Bool
  | .wake pid => (s.find? pid).any (·.status = .sleeping)
  | .receiveTimeout pid token => (s.find? pid).any fun a => a.pending.any (·.token = token)
  | .deliver pid _ => s.alive pid

/-- Drops timers at the front that can no longer have an effect, at most `fuel` of them. -/
def pruneFrom : Nat → System → System
  | 0, s => s
  | fuel + 1, s =>
    match s.timers.peek with
    | some e =>
      if s.isLive e then s
      else
        match s.timers.pop with
        | some (_, q) => pruneFrom fuel { s with timers := q }
        | none => s
    | none => s

/-- Drops the timers at the front that can no longer have an effect. -/
def pruneStaleTimers (s : System) : System :=
  pruneFrom s.timers.entries.length s

/-- The number of ticks a run may take. -/
def runLimit : Nat := 1000000

/-- Fires due timers and ticks, at most `fuel` times, until no work is left. -/
def idleFrom : Nat → System → System
  | 0, s => s
  | fuel + 1, s =>
    let s := s.fireTimers
    if s.hasRunnable then idleFrom fuel s.tick.2 else s

/-- Runs until no process has work. -/
def runUntilIdle (s : System) : System :=
  idleFrom runLimit s

/-- Runs until idle, then waits for the next live timer, at most `fuel` times, until no timer
is left. -/
def runFrom : Nat → System → System
  | 0, s => s
  | fuel + 1, s =>
    let s := s.runUntilIdle.pruneStaleTimers
    match s.timers.nextDeadline with
    | some d => runFrom fuel { s with now := max s.now d }
    | none => s

/-- Runs until no process has work and no timer is left. -/
def run (s : System) : System :=
  runFrom runLimit s

end System

end ActorCore
