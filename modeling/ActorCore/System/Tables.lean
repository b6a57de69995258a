import ActorCore.System.Run

/-!
# The process tables

The runtime keeps a process system in tables keyed by pid: the control blocks of the live
processes (status, mailbox, links, monitors held, flags, dictionary, reductions), their
coroutines, their task queues, and the receives they wait in; beside them the registry, as a map
from names to pids and one back (`NameMaps`), the monitors, the timers and the exit reasons of
ended processes. Every operation writes each table it concerns on its own:

* `spawn` — inserts the new pid into the coroutines, the control blocks and the queues, or, when
  the machine cannot allocate its stack, records its exit only;
* `release` — removes the control block, marked exiting while it is torn down, then the queue,
  the pending receive (cancelling its timer), the coroutine and the name of the pid; drops the
  monitors it held, sends the `:DOWN` messages of the monitors on it one at a time, removes it
  from the links of each process it was linked to, and records its exit;
* `deliver`, `enqueue`, `popTask`, `resume`, `beginReceive`, `retryReceive`, `fire` — look a pid
  up in the table they need, and change nothing when it has no entry there.

The scheduler's loops are those of `System.run`, over these operations. `System` keeps one record
per live process instead; `ActorCore.Proofs.TableRefinement` shows that every operation does the
same to the two, and `ActorCore.Proofs.Tables`, from that, that these tables stay in step.
-/

namespace ActorCore

/-- A table keyed by pid, ascending by pid, with at most one entry for a pid. -/
abbrev PidTable (α : Type) := List (Nat × α)

namespace PidTable

variable {α : Type}

/-- The entry of a pid. -/
def get? (t : PidTable α) (pid : Nat) : Option α :=
  t.lookup pid

/-- Whether a pid has an entry. -/
def contains (t : PidTable α) (pid : Nat) : Bool :=
  t.any (·.1 == pid)

/-- The table with `v` as the entry of `pid`, replacing the one it had. -/
def insert (t : PidTable α) (pid : Nat) (v : α) : PidTable α :=
  match t with
  | [] => [(pid, v)]
  | e :: rest =>
    if pid < e.1 then (pid, v) :: e :: rest
    else if pid = e.1 then (pid, v) :: rest
    else e :: insert rest pid v

/-- The table without the entry of a pid. -/
def erase (t : PidTable α) (pid : Nat) : PidTable α :=
  t.filter (·.1 != pid)

/-- Applies `f` to the entry of a pid, if it has one. -/
def modify (t : PidTable α) (pid : Nat) (f : α → α) : PidTable α :=
  t.map fun e => if e.1 = pid then (e.1, f e.2) else e

/-- The pids with an entry, ascending. -/
def keys (t : PidTable α) : List Nat :=
  t.map (·.1)

@[simp] theorem length_modify (t : PidTable α) (pid : Nat) (f : α → α) :
    (t.modify pid f).length = t.length := by
  simp [modify]

theorem length_erase_lt {t : PidTable α} {pid : Nat} {v : α} (h : t.get? pid = some v) :
    (t.erase pid).length < t.length := by
  apply List.length_filter_lt_length_iff_exists.2
  obtain ⟨e, he, hk⟩ : ∃ e ∈ t, e.1 = pid := by
    induction t with
    | nil => cases h
    | cons e rest ih =>
      obtain ⟨k, w⟩ := e
      by_cases hk : k = pid
      · exact ⟨(k, w), List.mem_cons_self, hk⟩
      · have hne : (pid == k) = false := beq_eq_false_iff_ne.2 (Ne.symm hk)
        have h' : rest.lookup pid = some v := by simpa [get?, List.lookup_cons, hne] using h
        obtain ⟨e', he', hk'⟩ := ih h'
        exact ⟨e', List.mem_cons_of_mem _ he', hk'⟩
  exact ⟨e, he, by simp [hk]⟩

end PidTable

/-- The control block of a live process: what the runtime keeps of it in its table of
processes. -/
structure Process where
  pid : Nat
  status : Status := .stopped
  mailbox : Mailbox := {}
  /-- Linked processes, ascending. -/
  links : List Nat := []
  /-- References of the monitors this process holds as observer, ascending. -/
  monitors : List Nat := []
  trapExit : Bool := false
  flags : TermMap := []
  dictionary : TermMap := []
  reductions : Nat := 0

namespace Process

/-- Sets a flag; the old value. -/
def setFlag (p : Process) (flag : String) (value : Term) : Term × Process :=
  if flag = "trap_exit" then (.bool p.trapExit, { p with trapExit := value.truthy })
  else ((p.flags.get? (.atom flag)).getD .nil, { p with flags := p.flags.insert (.atom flag) value })

end Process

/-- A process system as the runtime keeps it. -/
structure Tables where
  config : Config
  allocateStack : StackAllocation := fun _ _ => none
  now : Nat := 0
  nextPid : Nat := 0
  nextRef : Nat := 0
  nextToken : Nat := 0
  processes : PidTable Process := []
  coroutines : PidTable (Reply → Program) := []
  queues : PidTable (List Task) := []
  receiving : PidTable PendingReceive := []
  registry : NameMaps := {}
  monitors : MonitorTable := {}
  timers : TimerQueue := {}
  exited : List (Nat × ExitReason) := []
  trace : List Entry := []

/-- Links two distinct processes, each side only if it has a control block. -/
def linkProcesses (ps : PidTable Process) (a b : Nat) : PidTable Process :=
  if a = b then ps
  else
    let ps := ps.modify a fun p => { p with links := insertAscending b p.links }
    ps.modify b fun p => { p with links := insertAscending a p.links }

/-- Removes the link between two processes, on each side that has a control block. -/
def unlinkProcesses (ps : PidTable Process) (a b : Nat) : PidTable Process :=
  let ps := ps.modify a fun p => { p with links := p.links.erase b }
  ps.modify b fun p => { p with links := p.links.erase a }

namespace Tables

/-- A fresh system with the settings clamped, on a machine that answers stack allocations by
`allocate`. -/
def createOn (c : Config) (allocate : StackAllocation) : Tables :=
  { config := c.clamped, allocateStack := allocate }

/-- Whether a pid is live: it has a control block. -/
def isAlive (t : Tables) (pid : Nat) : Bool :=
  t.processes.contains pid

/-- The status of a live process. -/
def status (t : Tables) (pid : Nat) : Option Status :=
  (t.processes.get? pid).map (·.status)

/-- The exit reason of an ended process. -/
def exitReason (t : Tables) (pid : Nat) : Option ExitReason :=
  t.exited.lookup pid

/-- The live pids, ascending. -/
def pids (t : Tables) : List Nat :=
  t.processes.keys

/-- Starts a process running a program given its pid; returns the pid. -/
def spawn (t : Tables) (body : Nat → Program) : Nat × Tables :=
  let pid := t.nextPid + 1
  let t := { t with nextPid := pid }
  match t.allocateStack pid t.config.stackSize with
  | none =>
    (pid, { t with coroutines := t.coroutines.insert pid fun _ => body pid,
                   processes := t.processes.insert pid { pid },
                   queues := t.queues.insert pid [.resume .start] })
  | some text => (pid, { t with exited := t.exited ++ [(pid, .error (allocationFailure text))] })

/-- The pid a destination names: a pid, or the process registered under a name. -/
def resolve (t : Tables) : Dest → Except RuntimeError Nat
  | .pid n => .ok n
  | .name n =>
    match t.registry.whereis n with
    | some p => .ok p
    | none => .error (.unregisteredName n)

/-- Queues a task for a process that has a queue. -/
def enqueue (t : Tables) (pid : Nat) (task : Task) : Tables :=
  { t with queues := t.queues.modify pid (· ++ [task]) }

/-- Delivers a message to a live process; one waiting in a receive gets a task to look again. -/
def deliver (t : Tables) (pid : Nat) (msg : Term) : Tables :=
  match t.processes.get? pid with
  | none => t
  | some p =>
    let t := { t with processes := t.processes.modify pid fun p => { p with mailbox := p.mailbox.deliver msg } }
    if p.status = .suspended then t.enqueue pid .retry else t

/-- Sends a message to a destination. -/
def send (t : Tables) (dest : Dest) (msg : Term) : Except RuntimeError Tables := do
  let pid ← t.resolve dest
  pure (t.deliver pid msg)

/-- Arranges for a message to be delivered `after` milliseconds from now. -/
def sendAfter (t : Tables) (pid : Nat) (msg : Term) (after : Nat) : Tables :=
  { t with timers := (t.timers.push (t.now + after) (.deliver pid msg)).2 }

/-- A fresh reference. -/
def makeRef (t : Tables) : Nat × Tables :=
  (t.nextRef + 1, { t with nextRef := t.nextRef + 1 })

/-- Removes the link between two processes. -/
def unlink (t : Tables) (a b : Nat) : Tables :=
  { t with processes := unlinkProcesses t.processes a b }

/-- Installs a monitor of `observed` for `observer`; returns its reference. -/
def monitor (t : Tables) (observer observed : Nat) : Nat × Tables :=
  let (ref, t) := t.makeRef
  if t.isAlive observed then
    let t := { t with monitors := t.monitors.insert ref ⟨observer, observed⟩ }
    (ref, { t with processes := t.processes.modify observer fun p =>
      { p with monitors := insertAscending ref p.monitors } })
  else (ref, t.deliver observer (ExitReason.noproc.downMessage ref observed))

/-- Removes a monitor; whether it was installed. -/
def demonitor (t : Tables) (ref : Nat) : Bool × Tables :=
  match t.monitors.remove ref with
  | (some m, table) =>
    (true, { t with monitors := table,
                    processes := t.processes.modify m.observer fun p => { p with monitors := p.monitors.erase ref } })
  | (none, _) => (false, t)

/-- The `:DOWN` message of one monitor on an ended process: the reference leaves its observer's
set, and the observer gets the message. -/
def sendDown (pid : Nat) (reason : ExitReason) (t : Tables) (taken : Nat × Nat) : Tables :=
  let (ref, observer) := taken
  let t := { t with processes := t.processes.modify observer fun o => { o with monitors := o.monitors.erase ref } }
  t.deliver observer (reason.downMessage ref pid)

/-- Ends a live process with a reason; returns the exit signals to its linked processes. -/
def release (t : Tables) (pid : Nat) (reason : ExitReason) : Tables × List Signal :=
  match t.processes.get? pid with
  | none => (t, [])
  | some p =>
    -- the control block leaves its table, marked exiting while the rest is torn down
    let p := { p with status := .exiting }
    let t := { t with processes := t.processes.erase pid, queues := t.queues.erase pid }
    let t := match (t.receiving.get? pid).bind (·.timeout) with
      | some id => { t with timers := t.timers.cancel id }
      | none => t
    let t := { t with receiving := t.receiving.erase pid, coroutines := t.coroutines.erase pid,
                      registry := t.registry.cleanup pid }
    let held := p.monitors.foldl (fun m r => (m.remove r).2) t.monitors
    let (taken, monitors) := held.takeObserving pid
    let t := taken.foldl (sendDown pid reason) { t with monitors }
    let t := { t with processes := p.links.foldl (fun ps other =>
      ps.modify other fun o => { o with links := o.links.erase pid }) t.processes }
    ({ t with exited := t.exited ++ [(pid, reason)] }, p.links.map fun other => ⟨some pid, other, reason⟩)

@[simp] theorem length_enqueue_processes (t : Tables) (pid : Nat) (task : Task) :
    (t.enqueue pid task).processes.length = t.processes.length := rfl

@[simp] theorem length_deliver_processes (t : Tables) (pid : Nat) (msg : Term) :
    (t.deliver pid msg).processes.length = t.processes.length := by
  unfold deliver
  split
  · rfl
  · split <;> simp

theorem length_foldl_sendDown (pid : Nat) (reason : ExitReason) :
    ∀ (taken : List (Nat × Nat)) (t : Tables),
      (taken.foldl (sendDown pid reason) t).processes.length = t.processes.length
  | [], _ => rfl
  | _ :: rest, t => by
    rw [List.foldl_cons, length_foldl_sendDown pid reason rest]
    simp [sendDown]

theorem length_foldl_unlink (pid : Nat) :
    ∀ (links : List Nat) (ps : PidTable Process),
      (links.foldl (fun ps other => ps.modify other fun o => { o with links := o.links.erase pid }) ps).length =
        ps.length
  | [], _ => rfl
  | _ :: rest, ps => by
    rw [List.foldl_cons, length_foldl_unlink pid rest]
    simp

/-- Ending a live process removes its control block. -/
theorem length_release_lt (t : Tables) (pid : Nat) (reason : ExitReason) (p : Process)
    (h : t.processes.get? pid = some p) :
    (t.release pid reason).1.processes.length < t.processes.length := by
  unfold release
  rw [h]
  dsimp only
  split <;>
  · simp only [length_foldl_unlink, length_foldl_sendDown]
    exact PidTable.length_erase_lt h

/-- Delivers exit signals, first in first out, until none is left. -/
def propagate (t : Tables) (signals : List Signal) : Tables :=
  match signals with
  | [] => t
  | sg :: rest =>
    match _hfind : t.processes.get? sg.target with
    | none => propagate t rest
    | some p =>
      match sg.reason.action p.trapExit with
      | .deliver => propagate (t.deliver sg.target (sg.reason.exitMessage sg.sender)) rest
      | .terminate r => propagate (t.release sg.target r).1 (rest ++ (t.release sg.target r).2)
termination_by (t.processes.length, signals.length)
decreasing_by
  · exact Prod.Lex.right _ (by simp)
  · exact Prod.Lex.right' _ (by simp) (by simp)
  · exact Prod.Lex.left _ _ (length_release_lt t sg.target r p _hfind)

/-- Sends one exit signal. -/
def signalExit (t : Tables) (sender : Option Nat) (target : Nat) (reason : ExitReason) : Tables :=
  t.propagate [⟨sender, target, reason⟩]

/-- Ends a live process and delivers the exit signals that follow. -/
def terminate (t : Tables) (pid : Nat) (reason : ExitReason) : Tables :=
  let (t, signals) := t.release pid reason
  t.propagate signals

/-- Links two processes; when exactly one of them is live, it gets a `noproc` exit signal from
the other. -/
def link (t : Tables) (a b : Nat) : Tables :=
  match t.isAlive a, t.isAlive b with
  | true, true => { t with processes := linkProcesses t.processes a b }
  | true, false => t.signalExit (some b) a .noproc
  | false, true => t.signalExit (some a) b .noproc
  | false, false => t

/-- Registers a name for a live process. -/
def register (t : Tables) (name : String) (pid : Nat) : Except RuntimeError Tables :=
  if t.isAlive pid then
    (t.registry.register name pid).map fun r => { t with registry := r }
  else .error (.raise (.tuple [.atom "noproc", .pid pid]))

/-- Removes a name; whether it was registered. -/
def unregister (t : Tables) (name : String) : Bool × Tables :=
  let (found, r) := t.registry.unregister name
  (found, { t with registry := r })

/-- Sets a flag of a live process; the old value. -/
def processFlag (t : Tables) (pid : Nat) (flag : String) (value : Term) : Option Term × Tables :=
  match t.processes.get? pid with
  | some p =>
    let (old, p) := p.setFlag flag value
    (some old, { t with processes := t.processes.modify pid fun _ => p })
  | none => (none, t)

/-- Changes the dictionary of a live process; what the change returns, if the process is live. -/
def withDictionary {α : Type} (t : Tables) (pid : Nat) (f : TermMap → α × TermMap) : Option α × Tables :=
  match t.processes.get? pid with
  | some p =>
    let (out, d) := f p.dictionary
    (some out, { t with processes := t.processes.modify pid fun p => { p with dictionary := d } })
  | none => (none, t)

/-- Whether some queue holds a task. -/
def hasRunnable (t : Tables) : Bool :=
  t.queues.any fun e => !e.2.isEmpty

/-! ## Running processes -/

/-- Takes the first task of the queue of a pid. -/
def popTask (t : Tables) (pid : Nat) : Option (Task × Tables) :=
  match t.queues.get? pid with
  | some (task :: rest) => some (task, { t with queues := t.queues.modify pid fun _ => rest })
  | _ => none

/-- A process asks to receive: a queued message the clauses select is the reply at once; with
no such message, a deadline already passed is a timeout; otherwise the process waits, with a
timer when there is a deadline. -/
def beginReceive (t : Tables) (pid : Nat) (clauses : List Clause) (deadline : Option Nat) : Flow × Tables :=
  match t.processes.get? pid with
  | none => (.park, t)
  | some p =>
    match selectMessage p.mailbox clauses with
    | .error e => (.park, t.terminate pid (panicReason e))
    | .ok (some (r, mb)) =>
      (.reply (.received r), { t with processes := t.processes.modify pid fun p => { p with mailbox := mb } })
    | .ok none =>
      if deadline.any (· ≤ t.now) then (.reply (.received .timeout), t)
      else
        let t := { t with processes := t.processes.modify pid fun p => { p with status := .suspended } }
        let token := t.nextToken + 1
        let (timeout, timers) := match deadline with
          | some d =>
            let (id, q) := t.timers.push d (.receiveTimeout pid token)
            (some id, q)
          | none => (none, t.timers)
        (.park, { t with nextToken := token, timers,
                         receiving := t.receiving.insert pid ⟨clauses, token, timeout⟩ })

/-- The scheduler's answer to a request of a live process. -/
def handle (t : Tables) (pid : Nat) : Request → Flow × Tables
  | .yield => (.reply .ok, t)
  | .spawn body link monitor =>
    let (child, t) := t.spawn body
    let t := if link then t.link pid child else t
    if monitor then
      let (ref, t) := t.monitor pid child
      (.reply (.spawned child (some ref)), t)
    else (.reply (.spawned child none), t)
  | .send dest msg =>
    match t.send dest msg with
    | .ok t' => (.reply .ok, t')
    | .error e => (.reply (.error e), t)
  | .sendAfter target msg after => (.reply .ok, t.sendAfter target msg after)
  | .receive clauses after => t.beginReceive pid clauses (after.map (t.now + ·))
  | .sleep ms =>
    let t := { t with processes := t.processes.modify pid fun p => { p with status := .sleeping } }
    (.park, { t with timers := (t.timers.push (t.now + ms) (.wake pid)).2 })
  | .link other => (.reply .ok, t.link pid other)
  | .unlink other => (.reply .ok, t.unlink pid other)
  | .monitor other =>
    let (ref, t) := t.monitor pid other
    (.reply (.ref ref), t)
  | .demonitor ref =>
    let (found, t) := t.demonitor ref
    (.reply (.bool found), t)
  | .exit target reason => (.reply .ok, t.signalExit (some pid) target reason)
  | .register name =>
    match t.register name pid with
    | .ok t' => (.reply .ok, t')
    | .error e => (.reply (.error e), t)
  | .unregister name =>
    let (found, t) := t.unregister name
    (.reply (.bool found), t)
  | .whereis name => (.reply (.pid (t.registry.whereis name)), t)
  | .registered => (.reply (.names t.registry.registered), t)
  | .processFlag flag value =>
    let (old, t) := t.processFlag pid flag value
    (.reply (.term (old.getD .nil)), t)
  | .put key value =>
    let (old, t) := t.withDictionary pid fun d => (d.get? key, d.insert key value)
    (.reply (.term (old.bind id |>.getD .nil)), t)
  | .get key =>
    let (v, t) := t.withDictionary pid fun d => (d.get? key, d)
    (.reply (.term (v.bind id |>.getD .nil)), t)
  | .erase key =>
    let (old, t) := t.withDictionary pid fun d => (d.get? key, d.erase key)
    (.reply (.term (old.bind id |>.getD .nil)), t)
  | .getKeys =>
    let (keys, t) := t.withDictionary pid fun d => (d.keys, d)
    (.reply (.terms (keys.getD [])), t)
  | .isAlive other => (.reply (.bool (t.isAlive other)), t)
  | .list => (.reply (.pids t.pids), t)
  | .makeRef =>
    let (ref, t) := t.makeRef
    (.reply (.ref ref), t)

/-- Resumes the coroutine of a pid with a reply: the process is marked running, its notes are
collected, and the request it stops at is returned; a program that ends ends the process. -/
def resume (t : Tables) (pid : Nat) (reply : Reply) : Option Request × Tables :=
  match t.coroutines.get? pid with
  | none => (none, t)
  | some k =>
    let t := { t with processes := t.processes.modify pid fun p => { p with status := .running } }
    let (notes, stop) := (k reply).advance
    let t := { t with trace := t.trace ++ notes.map fun n => ({ pid, note := n } : Entry) }
    match stop with
    | .call req k => (some req, { t with coroutines := t.coroutines.modify pid fun _ => k })
    | .finish outcome => (none, t.terminate pid (Program.exitReason outcome))
    | .crash p => (none, t.terminate pid (panicReason p))
    | .note _ _ => (none, t)

/-- Looks again at the mailbox of a process waiting in a receive; the reply when a message is
selected, which ends the wait and cancels its timer. -/
def retryReceive (t : Tables) (pid : Nat) : Option Reply × Tables :=
  match t.receiving.get? pid with
  | none => (none, t)
  | some pr =>
    match t.processes.get? pid with
    | none => (none, t)
    | some p =>
      match selectMessage p.mailbox pr.clauses with
      | .ok none => (none, t)
      | .ok (some (r, mb)) =>
        let t := { t with processes := t.processes.modify pid fun p => { p with mailbox := mb },
                          receiving := t.receiving.erase pid }
        let t := match pr.timeout with
          | some id => { t with timers := t.timers.cancel id }
          | none => t
        (some (.received r), t)
      | .error e => (none, t.terminate pid (panicReason e))

/-- Runs the tasks of a process while `allowance` lasts; returns the reductions used. -/
def runTasks (pid : Nat) : Nat → Nat → Tables → Nat × Tables
  | 0, used, t => (used, t)
  | allowance + 1, used, t =>
    match t.popTask pid with
    | none => (used, t)
    | some (task, t) =>
      let used := used + 1
      let (reply, t) := match task with
        | .resume r => (some r, t)
        | .retry => t.retryReceive pid
      match reply with
      | none => runTasks pid allowance used t
      | some r =>
        match t.resume pid r with
        | (none, t) => (used, t)
        | (some req, t) =>
          let (flow, t) := t.handle pid req
          let t := match flow with
            | .reply r => t.enqueue pid (.resume r)
            | .park => t
          runTasks pid allowance used t

/-- One turn of a process: at most `limit` tasks; the reductions used are added to its count. -/
def runSlice (t : Tables) (pid : Nat) (limit : Nat) : Nat × Tables :=
  let (used, t) := runTasks pid limit 0 t
  (used, { t with processes := t.processes.modify pid fun p => { p with reductions := p.reductions + used } })

/-- The pids whose queue holds a task, ascending. -/
def runnable (t : Tables) : List Nat :=
  (t.queues.filter fun e => !e.2.isEmpty).map (·.1)

/-- One round of a tick over a list of pids: whether the budget ran out, the reductions used so
far, and the state. -/
def tickRound (budget : Nat) : List Nat → Nat → Tables → Bool × Nat × Tables
  | [], spent, t => (false, spent, t)
  | pid :: rest, spent, t =>
    if budget ≤ spent then (true, spent, t)
    else
      let (used, t) := t.runSlice pid (min t.config.reductions (budget - spent))
      tickRound budget rest (spent + used) t

/-- Rounds of a tick until no work is left or the budget runs out. -/
def tickFrom (budget : Nat) (spent : Nat) (t : Tables) : Nat × Tables :=
  let pids := t.runnable
  if pids.isEmpty then (spent, t)
  else
    let (exhausted, spent', t') := tickRound budget pids spent t
    if !exhausted ∧ spent < spent' ∧ spent < budget then tickFrom budget spent' t'
    else (spent', t')
termination_by budget - spent

/-- A tick; returns the reductions used. -/
def tick (t : Tables) : Nat × Tables :=
  tickFrom t.config.tickBudget 0 t

/-- Handles one timer event. -/
def fire (t : Tables) : TimerEvent → Tables
  | .wake pid => if t.status pid = some .sleeping then t.enqueue pid (.resume .ok) else t
  | .receiveTimeout pid token =>
    if (t.receiving.get? pid).any (·.token = token) then
      { t with receiving := t.receiving.erase pid }.enqueue pid (.resume (.received .timeout))
    else t
  | .deliver pid msg => t.deliver pid msg

/-- Handles due timers, at most `fuel` of them. -/
def fireDue : Nat → Tables → Tables
  | 0, t => t
  | fuel + 1, t =>
    match t.timers.popDue t.now with
    | some (e, q) => fireDue fuel ({ t with timers := q }.fire e)
    | none => t

/-- Handles every due timer. -/
def fireTimers (t : Tables) : Tables :=
  fireDue t.timers.entries.length t

/-- Whether a timer event can still have an effect. -/
def isLive (t : Tables) : TimerEvent → Bool
  | .wake pid => t.status pid = some .sleeping
  | .receiveTimeout pid token => (t.receiving.get? pid).any (·.token = token)
  | .deliver pid _ => t.isAlive pid

/-- Drops timers at the front that can no longer have an effect, at most `fuel` of them. -/
def pruneFrom : Nat → Tables → Tables
  | 0, t => t
  | fuel + 1, t =>
    match t.timers.peek with
    | some e =>
      if t.isLive e then t
      else
        match t.timers.pop with
        | some (_, q) => pruneFrom fuel { t with timers := q }
        | none => t
    | none => t

/-- Drops the timers at the front that can no longer have an effect. -/
def pruneStaleTimers (t : Tables) : Tables :=
  pruneFrom t.timers.entries.length t

/-- Fires due timers and ticks, at most `fuel` times, until no work is left. -/
def idleFrom : Nat → Tables → Tables
  | 0, t => t
  | fuel + 1, t =>
    let t := t.fireTimers
    if t.hasRunnable then idleFrom fuel t.tick.2 else t

/-- Runs until no process has work. -/
def runUntilIdle (t : Tables) : Tables :=
  idleFrom System.runLimit t

/-- Runs until idle, then waits for the next live timer, at most `fuel` times, until no timer
is left. -/
def runFrom : Nat → Tables → Tables
  | 0, t => t
  | fuel + 1, t =>
    let t := t.runUntilIdle.pruneStaleTimers
    match t.timers.nextDeadline with
    | some d => runFrom fuel { t with now := max t.now d }
    | none => t

/-- Runs until no process has work and no timer is left. -/
def run (t : Tables) : Tables :=
  runFrom System.runLimit t

end Tables

end ActorCore
