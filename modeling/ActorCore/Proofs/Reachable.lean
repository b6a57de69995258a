import ActorCore.System.Run

/-!
# Reachable states of a process system

A host drives a process system through its interface: it spawns processes (linked to or
monitored by another, or neither), sends messages now or later, links, unlinks, monitors and
demonitors, sends exit signals, registers names, sets flags, makes references, lets time pass,
and runs the scheduler. Processes act only while the scheduler runs, through the requests of their programs.
`Call` lists these operations and `System.perform` applies one; a call that fails leaves the
state as it was. A state is *reachable* when some sequence of calls leads to it from a fresh
system, whatever the programs of its processes and however the machine answers the allocation
of their stacks.

The requests of a process and the calls of the host are built from the same few operations, and
the scheduler's loops are the same for every invariant, so both arguments are made once here.
`Keeps P` lists what an invariant owes: that each operation of the interface keeps it. It is then
kept by every request other than receiving and sleeping (`Keeps.handle`), which the scheduler
answers at once (`handle_reply`), and by every call of the host, given that running the
scheduler keeps it (`Keeps.perform`). An invariant that one turn of a process keeps is kept by a
tick (`tick_keeps`); one that firing a due timer keeps is kept by `fireTimers`; and so on up to
`run` (`run_keeps`).
-/

namespace ActorCore

/-- A call of the host on a process system: the operations of its interface that change it. -/
inductive Call where
  | spawn (body : Nat → Program)
  | spawnLink (parent : Nat) (body : Nat → Program)
  | spawnMonitor (observer : Nat) (body : Nat → Program)
  | send (dest : Dest) (msg : Term)
  | sendAfter (pid : Nat) (msg : Term) (after : Nat)
  | link (a b : Nat)
  | unlink (a b : Nat)
  | monitor (observer observed : Nat)
  | demonitor (ref : Nat)
  | exit (sender : Option Nat) (target : Nat) (reason : ExitReason)
  | register (name : String) (pid : Nat)
  | unregister (name : String)
  | processFlag (pid : Nat) (flag : String) (value : Term)
  | makeRef
  /-- The host lets `ms` milliseconds pass before its next call. -/
  | advance (ms : Nat)
  | tick
  | runUntilIdle
  | run

/-- A request that is neither a receive nor a sleep: the scheduler answers it at once. -/
def Request.IsPrompt : Request → Prop
  | .receive _ _ | .sleep _ => False
  | _ => True

namespace System

/-- The state after a call; a call that fails leaves the state as it was. -/
def perform (s : System) : Call → System
  | .spawn body => (s.spawn body).2
  | .spawnLink parent body =>
    let (p, s) := s.spawn body
    s.link parent p
  | .spawnMonitor observer body =>
    let (p, s) := s.spawn body
    (s.monitor observer p).2
  | .send dest msg =>
    match s.send dest msg with
    | .ok s' => s'
    | .error _ => s
  | .sendAfter pid msg after => s.sendAfter pid msg after
  | .link a b => s.link a b
  | .unlink a b => s.unlink a b
  | .monitor observer observed => (s.monitor observer observed).2
  | .demonitor ref => (s.demonitor ref).2
  | .exit sender target reason => s.signalExit sender target reason
  | .register name pid =>
    match s.register name pid with
    | .ok s' => s'
    | .error _ => s
  | .unregister name => (s.unregister name).2
  | .processFlag pid flag value => (s.processFlag pid flag value).2
  | .makeRef => s.makeRef.2
  | .advance ms => { s with now := s.now + ms }
  | .tick => s.tick.2
  | .runUntilIdle => s.runUntilIdle
  | .run => s.run

/-- The states some sequence of calls leads to from a fresh system, on any machine. -/
inductive Reachable : System → Prop
  | create (c : Config) (allocate : StackAllocation) : Reachable (createOn c allocate)
  | perform {s : System} (call : Call) : Reachable s → Reachable (s.perform call)

/-! ## The operations of the interface -/

/-- What an invariant owes to be kept by requests and calls: each operation of the interface that
a request or a call is made of keeps it. -/
structure Keeps (P : System → Prop) : Prop where
  spawn : ∀ s body, P s → P (s.spawn body).2
  link : ∀ s a b, P s → P (s.link a b)
  unlink : ∀ s a b, P s → P (s.unlink a b)
  monitor : ∀ s a b, P s → P (s.monitor a b).2
  demonitor : ∀ s ref, P s → P (s.demonitor ref).2
  send : ∀ s s' dest msg, P s → s.send dest msg = .ok s' → P s'
  sendAfter : ∀ s pid msg after, P s → P (s.sendAfter pid msg after)
  signalExit : ∀ s sender target reason, P s → P (s.signalExit sender target reason)
  register : ∀ s s' name pid, P s → s.register name pid = .ok s' → P s'
  unregister : ∀ s name, P s → P (s.unregister name).2
  processFlag : ∀ s pid flag value, P s → P (s.processFlag pid flag value).2
  withDictionary : ∀ {α : Type} s pid (f : TermMap → α × TermMap), P s → P (s.withDictionary pid f).2
  makeRef : ∀ s, P s → P s.makeRef.2

/-- The scheduler answers a request other than a receive or a sleep at once, with a reply. -/
theorem handle_reply (s : System) (pid : Nat) {req : Request} (hreq : req.IsPrompt) :
    ∃ r, (s.handle pid req).1 = .reply r := by
  cases req with
  | receive _ _ | sleep _ => exact hreq.elim
  | spawn body link monitor =>
    rw [System.handle]
    generalize s.spawn body = m
    obtain ⟨child, s1⟩ := m
    dsimp only
    split
    · generalize ((if link = true then s1.link pid child else s1).monitor pid child) = m
      obtain ⟨ref, s3⟩ := m
      exact ⟨_, rfl⟩
    · exact ⟨_, rfl⟩
  | send dest msg =>
    rw [System.handle]
    split <;> exact ⟨_, rfl⟩
  | register name =>
    rw [System.handle]
    split <;> exact ⟨_, rfl⟩
  | _ => exact ⟨_, rfl⟩

theorem Keeps.handle {P : System → Prop} (hk : Keeps P) {s : System} (hs : P s) (pid : Nat)
    {req : Request} (hreq : req.IsPrompt) : P (s.handle pid req).2 := by
  cases req with
  | receive _ _ | sleep _ => exact hreq.elim
  | spawn body link monitor =>
    have h1 := hk.spawn s body hs
    rw [System.handle]
    generalize s.spawn body = m at h1 ⊢
    obtain ⟨child, s1⟩ := m
    dsimp only at h1 ⊢
    have h2 : P (if link = true then s1.link pid child else s1) := by
      split
      · exact hk.link _ _ _ h1
      · exact h1
    generalize (if link = true then s1.link pid child else s1) = s2 at h2 ⊢
    split
    · have h3 := hk.monitor s2 pid child h2
      generalize s2.monitor pid child = m at h3 ⊢
      obtain ⟨ref, s3⟩ := m
      exact h3
    · exact h2
  | send dest msg =>
    rw [System.handle]
    split
    · exact hk.send _ _ _ _ hs ‹_›
    · exact hs
  | register name =>
    rw [System.handle]
    split
    · exact hk.register _ _ _ _ hs ‹_›
    · exact hs
  | sendAfter target msg after => exact hk.sendAfter _ _ _ _ hs
  | link other => exact hk.link _ _ _ hs
  | unlink other => exact hk.unlink _ _ _ hs
  | monitor other => exact hk.monitor _ _ _ hs
  | demonitor ref => exact hk.demonitor _ _ hs
  | exit target reason => exact hk.signalExit _ _ _ _ hs
  | unregister name => exact hk.unregister _ _ hs
  | processFlag flag value => exact hk.processFlag _ _ _ _ hs
  | put key value | get key | erase key | getKeys =>
    rw [System.handle]
    split
    rename_i out s1 hd
    have h1 := congrArg Prod.snd hd
    dsimp only at h1
    rw [← h1]
    exact hk.withDictionary _ _ _ hs
  | makeRef => exact hk.makeRef _ hs
  | yield | whereis _ | registered | isAlive _ | list => exact hs

/-- Every call of the host keeps an invariant that the operations of the interface, running
the scheduler and moving the clock keep. -/
theorem Keeps.perform {P : System → Prop} (hk : Keeps P) (htick : ∀ s, P s → P s.tick.2)
    (hidle : ∀ s, P s → P s.runUntilIdle) (hrun : ∀ s, P s → P s.run)
    (hclock : ∀ s t, P s → P { s with now := t }) {s : System} (hs : P s)
    (call : Call) : P (s.perform call) := by
  cases call with
  | spawn body =>
    rw [System.perform]
    exact hk.spawn _ _ hs
  | spawnLink parent body =>
    have h1 := hk.spawn s body hs
    rw [System.perform]
    generalize s.spawn body = m at h1 ⊢
    obtain ⟨p, s1⟩ := m
    exact hk.link _ _ _ h1
  | spawnMonitor observer body =>
    have h1 := hk.spawn s body hs
    rw [System.perform]
    generalize s.spawn body = m at h1 ⊢
    obtain ⟨p, s1⟩ := m
    exact hk.monitor _ _ _ h1
  | send dest msg =>
    rw [System.perform]
    split
    · exact hk.send _ _ _ _ hs ‹_›
    · exact hs
  | sendAfter pid msg after => exact hk.sendAfter _ _ _ _ hs
  | link a b => exact hk.link _ _ _ hs
  | unlink a b => exact hk.unlink _ _ _ hs
  | monitor observer observed => exact hk.monitor _ _ _ hs
  | demonitor ref => exact hk.demonitor _ _ hs
  | exit sender target reason => exact hk.signalExit _ _ _ _ hs
  | register name pid =>
    rw [System.perform]
    split
    · exact hk.register _ _ _ _ hs ‹_›
    · exact hs
  | unregister name => exact hk.unregister _ _ hs
  | processFlag pid flag value => exact hk.processFlag _ _ _ _ hs
  | makeRef => exact hk.makeRef _ hs
  | advance ms => exact hclock _ _ hs
  | tick => exact htick _ hs
  | runUntilIdle => exact hidle _ hs
  | run => exact hrun _ hs

/-! ## The scheduler's loops keep what their bodies keep -/

section Loops

/-- A run of the tasks of process `pid` keeps an invariant `Q s served` that also says which
process is being served, when each step keeps it: a resume task makes `pid` served; a retry
makes it served when a message is selected, and serves nothing otherwise; resuming the program
keeps `pid` served, or serves nothing once the program has ended; and the answer to its request
serves nothing once it is queued or the process has parked. -/
theorem runTasks_keeps_served (Q : System → Option Nat → Prop) (pid : Nat)
    (hresume : ∀ s s' r, Q s none → s.popTask pid = some (.resume r, s') → Q s' (some pid))
    (hretry : ∀ s s', Q s none → s.popTask pid = some (.retry, s') →
      Q (s'.retryReceive pid).2 ((s'.retryReceive pid).1.map fun _ => pid))
    (hstop : ∀ s s' r, Q s (some pid) → s.resume pid r = (none, s') → Q s' none)
    (hcall : ∀ s s' r req, Q s (some pid) → s.resume pid r = (some req, s') → Q s' (some pid))
    (hanswer : ∀ s req, Q s (some pid) →
      Q (match (s.handle pid req).1 with
        | .reply r => (s.handle pid req).2.enqueue pid (.resume r)
        | .park => (s.handle pid req).2) none) :
    ∀ (n used : Nat) (s : System), Q s none → Q (runTasks pid n used s).2 none
  | 0, _, _, h => h
  | n + 1, used, s, h => by
    unfold runTasks
    split
    · exact h
    · rename_i task s₁ hpop
      split
      rename_i reply s₂ hreply
      -- the task brings a reply at once, or a look at the mailbox
      have h₂ : Q s₂ (reply.map fun _ => pid) := by
        cases task with
        | resume r =>
          simp only [Prod.mk.injEq] at hreply
          obtain ⟨rfl, rfl⟩ := hreply
          exact hresume s _ r h hpop
        | retry =>
          have h₂ := hretry s s₁ h hpop
          dsimp only at hreply
          rw [hreply] at h₂
          exact h₂
      split
      · exact runTasks_keeps_served Q pid hresume hretry hstop hcall hanswer n _ s₂ h₂
      · rename_i r
        split
        · rename_i s₃ hres
          exact hstop s₂ s₃ r h₂ hres
        · rename_i req s₃ hres
          have h₄ := hanswer s₃ req (hcall s₂ s₃ r req h₂ hres)
          split
          rename_i flow s₄ hflow
          rw [hflow] at h₄
          apply runTasks_keeps_served Q pid hresume hretry hstop hcall hanswer n
          cases flow <;> exact h₄

variable (P : System → Prop)

theorem tickRound_keeps (hslice : ∀ s pid n, P s → P (s.runSlice pid n).2) (budget : Nat) :
    ∀ (pids : List Nat) (spent : Nat) (s : System), P s → P (tickRound budget pids spent s).2.2
  | [], _, _, h => h
  | pid :: rest, spent, s, h => by
    simp only [tickRound]
    split
    · exact h
    · exact tickRound_keeps hslice budget rest _ _ (hslice _ _ _ h)

theorem tickFrom_keeps (hslice : ∀ s pid n, P s → P (s.runSlice pid n).2) (budget : Nat)
    (spent : Nat) (s : System) (h : P s) : P (tickFrom budget spent s).2 := by
  induction spent, s using tickFrom.induct budget with
  | case1 spent s pids hempty =>
    simp only [pids] at hempty
    rw [tickFrom]
    simp only [hempty, if_true]
    exact h
  | case2 spent s pids hne exhausted spent' s' hround hgo ih =>
    simp only [pids] at hne hround
    have hs' : P s' := by simpa [hround] using tickRound_keeps P hslice budget s.runnable spent s h
    rw [tickFrom]
    simp only [hne, hround, hgo]
    exact ih hs'
  | case3 spent s pids hne exhausted spent' s' hround hstop =>
    simp only [pids] at hne hround
    have hs' : P s' := by simpa [hround] using tickRound_keeps P hslice budget s.runnable spent s h
    rw [tickFrom]
    simp only [hne, if_false, hround, hstop]
    exact hs'

/-- A tick keeps what every turn of a process keeps. -/
theorem tick_keeps (hslice : ∀ s pid n, P s → P (s.runSlice pid n).2) (s : System) (h : P s) :
    P s.tick.2 :=
  tickFrom_keeps P hslice _ 0 s h

theorem fireDue_keeps
    (hfire : ∀ s e q, P s → s.timers.popDue s.now = some (e, q) → P ({ s with timers := q }.fire e)) :
    ∀ (n : Nat) (s : System), P s → P (fireDue n s)
  | 0, _, h => h
  | n + 1, s, h => by
    simp only [fireDue]
    split
    · rename_i e q hpop
      exact fireDue_keeps hfire n _ (hfire s e q h hpop)
    · exact h

/-- Firing the due timers keeps what firing one due timer keeps. -/
theorem fireTimers_keeps
    (hfire : ∀ s e q, P s → s.timers.popDue s.now = some (e, q) → P ({ s with timers := q }.fire e))
    (s : System) (h : P s) : P s.fireTimers :=
  fireDue_keeps P hfire _ s h

theorem pruneFrom_keeps
    (hdrop : ∀ s e q, P s → s.timers.pop = some (e, q) → s.isLive e = false → P { s with timers := q }) :
    ∀ (n : Nat) (s : System), P s → P (pruneFrom n s)
  | 0, _, h => h
  | n + 1, s, h => by
    simp only [pruneFrom]
    split
    · rename_i e hpeek
      split
      · exact h
      · rename_i hdead
        split
        · rename_i e' q hpop
          have he : e' = e := by
            simp only [TimerQueue.pop, TimerQueue.peek] at hpop hpeek
            split at hpop
            · cases hpop
            · rename_i entry rest hentries
              simp only [hentries, List.head?_cons, Option.map_some, Option.some.injEq] at hpeek
              simp only [Option.some.injEq, Prod.mk.injEq] at hpop
              exact hpop.1.symm.trans hpeek
          subst he
          exact pruneFrom_keeps hdrop n _ (hdrop s e' q h hpop (by simpa using hdead))
        · exact h
    · exact h

/-- Dropping stale timers keeps what dropping one stale timer keeps. -/
theorem pruneStaleTimers_keeps
    (hdrop : ∀ s e q, P s → s.timers.pop = some (e, q) → s.isLive e = false → P { s with timers := q })
    (s : System) (h : P s) : P s.pruneStaleTimers :=
  pruneFrom_keeps P hdrop _ s h

theorem idleFrom_keeps (hfire : ∀ s, P s → P s.fireTimers) (htick : ∀ s, P s → P s.tick.2) :
    ∀ (n : Nat) (s : System), P s → P (idleFrom n s)
  | 0, _, h => h
  | n + 1, s, h => by
    simp only [idleFrom]
    split
    · exact idleFrom_keeps hfire htick n _ (htick _ (hfire s h))
    · exact hfire s h

theorem runUntilIdle_keeps (hfire : ∀ s, P s → P s.fireTimers) (htick : ∀ s, P s → P s.tick.2)
    (s : System) (h : P s) : P s.runUntilIdle :=
  idleFrom_keeps P hfire htick _ s h

theorem runFrom_keeps (hidle : ∀ s, P s → P s.runUntilIdle) (hprune : ∀ s, P s → P s.pruneStaleTimers)
    (hclock : ∀ s t, P s → P { s with now := t }) :
    ∀ (n : Nat) (s : System), P s → P (runFrom n s)
  | 0, _, h => h
  | n + 1, s, h => by
    simp only [runFrom]
    split
    · exact runFrom_keeps hidle hprune hclock n _ (hclock _ _ (hprune _ (hidle s h)))
    · exact hprune _ (hidle s h)

/-- Running until no work and no timer is left keeps what running until idle, dropping stale
timers and moving the clock keep. -/
theorem run_keeps (hidle : ∀ s, P s → P s.runUntilIdle) (hprune : ∀ s, P s → P s.pruneStaleTimers)
    (hclock : ∀ s t, P s → P { s with now := t }) (s : System) (h : P s) : P s.run :=
  runFrom_keeps P hidle hprune hclock _ s h

end Loops

end System

end ActorCore
