import ActorCore.Proofs.Waiting
import Mathlib.Logic.Relation

/-!
# Invariants kept by the primitive changes of state

Every call of the host, every request of a process and every step of the scheduler changes a
process system by a few primitive changes only:

* `System.update` of one process by a function that keeps its pid and the monitors it holds,
  changes its mailbox only by a delivery or by the receive of one message, and never marks it
  exiting (`Actor.Changes`): a delivery, a queued task, links, a flag, the dictionary, the
  status, the continuation, a pending receive, the reductions;
* quiet changes, which leave the processes, the counters of pids and references, the registry,
  the monitor table and the exits alone: the timers, the clock, receive tokens, notes;
* spawning a process, ending one (`System.release`), installing or removing a monitor, a change
  of the registry, and a fresh reference.

`System.Guarded P` lists these changes for an invariant `P`, the last group in well-formed states
(`System.Wf`), with a monitor only for an observer whose pid has been handed out already. A
process always asks for monitors as their observer, so `P` is then kept by a turn of a process
(`Guarded.runSlice`) and by every call of the host that names such observers only
(`Guarded.perform`, `Call.KnownObserver`). `System.Stable P` asks a monitor to keep `P` whatever
its observer; then every call keeps it (`Stable.perform`), it holds of every reachable state
(`Stable.reachable`) and, from a reachable state where it holds, of every later state
(`Stable.leads`). An invariant about two states, the first one fixed, goes through the same way:
it is how later modules show that something is never undone.
-/

namespace ActorCore

/-- Whether a call names, as the observer of a monitor it asks for, a pid the system has handed
out by the time the monitor is installed. -/
def Call.KnownObserver (s : System) : Call → Prop
  | .monitor observer _ => observer ≤ s.nextPid
  | .spawnMonitor observer _ => observer ≤ s.nextPid + 1
  | _ => True

/-- How the scheduler may change one live process `a` into `b`: its mailbox gets a message
appended, or loses the message a receive selects, or stays as it was; and it is not marked
exiting. -/
structure Actor.Changes (a b : Actor) : Prop where
  mailbox : b.mailbox = a.mailbox ∨ (∃ m, b.mailbox = a.mailbox.deliver m) ∨
    ∃ cs r, selectMessage a.mailbox cs = .ok (some (r, b.mailbox))
  status : b.status = .exiting → a.status = .exiting

/-- A change that keeps the mailbox and sets a status other than exiting. -/
theorem Actor.Changes.of_status {a b : Actor} (hm : b.mailbox = a.mailbox)
    (hs : b.status ≠ .exiting) : a.Changes b :=
  ⟨.inl hm, fun h => absurd h hs⟩

/-- A change that keeps the mailbox and the status. -/
theorem Actor.Changes.of_eq {a b : Actor} (hm : b.mailbox = a.mailbox) (hs : b.status = a.status) :
    a.Changes b :=
  ⟨.inl hm, fun h => hs ▸ h⟩

theorem Actor.changes_deliver (a : Actor) (m : Term) : a.Changes (a.deliver m) :=
  ⟨.inr (.inl ⟨m, rfl⟩), id⟩

/-- A receive that selects a message from the mailbox. -/
theorem Actor.Changes.of_select {a b : Actor} {cs : List Clause} {r : Received}
    (hsel : selectMessage a.mailbox cs = .ok (some (r, b.mailbox))) (hs : b.status = a.status) :
    a.Changes b :=
  ⟨.inr (.inr ⟨cs, r, hsel⟩), fun h => hs ▸ h⟩

namespace System

variable {s s' : System} {P : System → Prop} {pid : Nat}

/-- The states some sequence of calls leads to from `s`. -/
def Leads (s s' : System) : Prop :=
  Relation.ReflTransGen (fun s s' => ∃ call, s' = s.perform call) s s'

theorem Reachable.leads (hs : s.Reachable) (h : Leads s s') : s'.Reachable := by
  induction h with
  | refl => exact hs
  | tail _ hstep ih =>
    obtain ⟨call, rfl⟩ := hstep
    exact .perform call ih

/-- An update of one process by a function that agrees with `g` on the processes of that pid is
the update by `g`. -/
theorem update_congr {f g : Actor → Actor} (h : ∀ a ∈ s.actors, a.pid = pid → f a = g a) :
    s.update pid f = s.update pid g := by
  simp only [update, Actors.update]
  congr 1
  apply List.map_congr_left
  intro a ha
  by_cases hp : a.pid = pid
  · simp [hp, h a ha hp]
  · simp [hp]

/-- Setting a flag of a live process sets it with the flag's own rule, pids being distinct. -/
theorem processFlag_eq (hw : s.Wf) (flag : String) (v : Term) :
    (s.processFlag pid flag v).2 = s.update pid fun b => (b.setFlag flag v).2 := by
  unfold System.processFlag
  split
  · rename_i a ha
    apply update_congr
    intro b hb hbp
    have hfind : s.find? pid = some b := (Actors.find?_eq_some_iff hw.nodup).2 ⟨hb, hbp⟩
    rw [ha] at hfind
    cases hfind
    rfl
  · rename_i ha
    symm
    apply Eq.trans (update_congr (g := id) _)
    · simp [update, Actors.update]
    · intro b hb hbp
      have hfind : s.find? pid = some b := (Actors.find?_eq_some_iff hw.nodup).2 ⟨hb, hbp⟩
      rw [ha] at hfind
      cases hfind

/-- The states some sequence of calls that name known observers only leads to from a fresh
system. -/
inductive ReachableKnown : System → Prop
  | create (c : Config) (allocate : StackAllocation) : ReachableKnown (createOn c allocate)
  | perform {s : System} (call : Call) : ReachableKnown s → call.KnownObserver s →
      ReachableKnown (s.perform call)

theorem ReachableKnown.reachable (hs : s.ReachableKnown) : s.Reachable := by
  induction hs with
  | create c allocate => exact .create c allocate
  | perform call _ _ ih => exact .perform call ih

theorem Wf.le_of_alive {q : Nat} (hw : s.Wf) (h : s.alive q = true) : q ≤ s.nextPid := by
  obtain ⟨a, ha⟩ := alive_iff.1 h
  exact Actors.pid_of_find? ha ▸ hw.pid_le a (Actors.mem_of_find? ha)

attribute [simp] spawn_nextPid release_nextPid

@[simp] theorem nextRef_release {r : ExitReason} : (s.release pid r).1.nextRef = s.nextRef := by
  unfold System.release
  split <;> rfl

/-- Exit signals never hand out a pid. -/
@[simp] theorem nextPid_propagate (signals : List Signal) :
    (s.propagate signals).nextPid = s.nextPid := by
  induction s, signals using System.propagate.induct with
  | case1 s => rw [System.propagate]
  | case2 s sg rest hf ih => rw [System.propagate, hf, ih]
  | case3 s sg rest a hf hact ih =>
    rw [System.propagate, hf]
    simp only [hact]
    rw [ih]
    rfl
  | case4 s sg rest a hf r hact ih =>
    rw [System.propagate, hf]
    simp only [hact]
    rw [ih, release_nextPid]

@[simp] theorem nextPid_link (a b : Nat) : (s.link a b).nextPid = s.nextPid := by
  unfold System.link
  split <;> simp [System.signalExit]

/-- A process that stops at a request is still live. -/
theorem alive_of_resume {r : Reply} {req : Request} (h : s.resume pid r = (some req, s')) :
    s'.alive pid = true := by
  simp only [System.resume] at h
  split at h
  · cases h
  · rename_i a ha
    split at h
    · cases h
      rw [alive_update, alive_update]
      · exact alive_iff.2 ⟨a, ha⟩
      all_goals exact fun _ h => h
    all_goals cases h

/-- In a well-formed state the live process of a pid is the only process with that pid. -/
theorem Wf.eq_of_find? (hw : s.Wf) {a b : Actor} (ha : s.find? pid = some a) (hb : b ∈ s.actors)
    (hbp : b.pid = pid) : b = a := by
  have hfind : s.find? pid = some b := (Actors.find?_eq_some_iff hw.nodup).2 ⟨hb, hbp⟩
  rw [ha] at hfind
  cases hfind
  rfl

/-- What an invariant owes to be kept by every call that names known observers only: each
primitive change keeps it, a monitor when its observer has been handed out. -/
structure Guarded (P : System → Prop) : Prop where
  update : ∀ s pid (f : Actor → Actor), (∀ a, (f a).pid = a.pid) →
    (∀ a, (f a).monitors = a.monitors) → (∀ a ∈ s.actors, a.pid = pid → a.Changes (f a)) →
    P s → P (s.update pid f)
  quiet : ∀ s s' : System, s'.actors = s.actors → s'.nextPid = s.nextPid →
    s'.nextRef = s.nextRef → s'.registry = s.registry → s'.monitors = s.monitors →
    s'.exited = s.exited → P s → P s'
  spawn : ∀ s body, s.Wf → P s → P (s.spawn body).2
  release : ∀ s pid r, s.Wf → P s → P (s.release pid r).1
  monitorKnown : ∀ s observer observed, s.Wf → observer ≤ s.nextPid → P s →
    P (s.monitor observer observed).2
  demonitor : ∀ s ref, s.Wf → P s → P (s.demonitor ref).2
  register : ∀ s s' name pid, s.Wf → s.register name pid = .ok s' → P s → P s'
  unregister : ∀ s name, s.Wf → P s → P (s.unregister name).2
  makeRef : ∀ s, s.Wf → P s → P s.makeRef.2

/-- What an invariant owes to be kept by every call: a monitor keeps it whatever its observer. -/
structure Stable (P : System → Prop) : Prop extends Guarded P where
  monitor : ∀ s observer observed, s.Wf → P s → P (s.monitor observer observed).2
  monitorKnown s observer observed hw _ h := monitor s observer observed hw h

namespace Guarded

/-! ## The operations of the interface -/

theorem deliver (hP : Guarded P) (h : P s) (pid : Nat) (m : Term) : P (s.deliver pid m) :=
  hP.update s pid (·.deliver m) (fun _ => rfl) (fun _ => rfl) (fun a _ _ => a.changes_deliver m) h

theorem enqueue (hP : Guarded P) (h : P s) (pid : Nat) (t : Task) : P (s.enqueue pid t) :=
  hP.update s pid (·.enqueue t) (fun _ => rfl) (fun _ => rfl) (fun _ _ _ => .of_eq rfl rfl) h

theorem unlink (hP : Guarded P) (h : P s) (a b : Nat) : P (s.unlink a b) := by
  rw [unlink_eq]
  exact hP.update _ b _ (fun _ => rfl) (fun _ => rfl) (fun _ _ _ => .of_eq rfl rfl)
    (hP.update _ a _ (fun _ => rfl) (fun _ => rfl) (fun _ _ _ => .of_eq rfl rfl) h)

theorem linkActors (hP : Guarded P) (h : P s) (a b : Nat) :
    P ({ s with actors := s.actors.link a b } : System) := by
  by_cases hab : a = b
  · subst hab
    simpa [Actors.link] using h
  · rw [linkActors_eq hab]
    exact hP.update _ b _ (fun _ => rfl) (fun _ => rfl) (fun _ _ _ => .of_eq rfl rfl)
      (hP.update _ a _ (fun _ => rfl) (fun _ => rfl) (fun _ _ _ => .of_eq rfl rfl) h)

theorem propagate (hP : Guarded P) (hw : s.Wf) (h : P s) (signals : List Signal) :
    P (s.propagate signals) := by
  induction s, signals using System.propagate.induct with
  | case1 s => rwa [System.propagate]
  | case2 s sg rest hf ih =>
    rw [System.propagate, hf]
    exact ih hw h
  | case3 s sg rest a hf hact ih =>
    rw [System.propagate, hf]
    simp only [hact]
    exact ih (hw.deliver _ _) (hP.deliver h _ _)
  | case4 s sg rest a hf r hact ih =>
    rw [System.propagate, hf]
    simp only [hact]
    exact ih (hw.release _ _) (hP.release _ _ _ hw h)

theorem terminate (hP : Guarded P) (hw : s.Wf) (h : P s) (pid : Nat) (r : ExitReason) :
    P (s.terminate pid r) :=
  hP.propagate (hw.release pid r) (hP.release s pid r hw h) _

theorem signalExit (hP : Guarded P) (hw : s.Wf) (h : P s) (sender : Option Nat) (target : Nat)
    (r : ExitReason) : P (s.signalExit sender target r) :=
  hP.propagate hw h _

theorem link (hP : Guarded P) (hw : s.Wf) (h : P s) (a b : Nat) : P (s.link a b) := by
  unfold System.link
  split
  · exact hP.linkActors h a b
  · exact hP.signalExit hw h _ _ _
  · exact hP.signalExit hw h _ _ _
  · exact h

theorem send (hP : Guarded P) (h : P s) {dest : Dest} {m : Term} (hs : s.send dest m = .ok s') :
    P s' := by
  simp only [System.send, bind, Except.bind] at hs
  split at hs
  · cases hs
  · cases hs
    exact hP.deliver h _ _

theorem sendAfter (hP : Guarded P) (h : P s) (pid : Nat) (m : Term) (after : Nat) :
    P (s.sendAfter pid m after) :=
  hP.quiet s _ rfl rfl rfl rfl rfl rfl h

theorem processFlag (hP : Guarded P) (hw : s.Wf) (h : P s) (pid : Nat) (flag : String) (v : Term) :
    P (s.processFlag pid flag v).2 := by
  rw [processFlag_eq hw]
  refine hP.update s pid _ (fun b => ?_) (fun b => ?_) (fun b _ _ => ?_) h
  · exact Actor.setFlag_pid b flag v
  · unfold Actor.setFlag
    split <;> rfl
  · unfold Actor.setFlag
    split <;> exact .of_eq rfl rfl

theorem withDictionary {α : Type} (hP : Guarded P) (h : P s) (pid : Nat)
    (f : TermMap → α × TermMap) : P (s.withDictionary pid f).2 := by
  unfold System.withDictionary
  split
  · exact hP.update _ _ _ (fun _ => rfl) (fun _ => rfl) (fun _ _ _ => .of_eq rfl rfl) h
  · exact h

/-! ## The scheduler -/

theorem popTask (hP : Guarded P) (h : P s) {t : Task} (hp : s.popTask pid = some (t, s')) :
    P s' := by
  unfold System.popTask at hp
  split at hp
  · split at hp
    · cases hp
      exact hP.update _ _ _ (fun _ => rfl) (fun _ => rfl) (fun _ _ _ => .of_eq rfl rfl) h
    · cases hp
  · cases hp

theorem beginReceive (hP : Guarded P) (hw : s.Wf) (h : P s) (pid : Nat) (clauses : List Clause)
    (deadline : Option Nat) : P (s.beginReceive pid clauses deadline).2 := by
  unfold System.beginReceive
  split
  · exact h
  · rename_i a ha
    split
    · exact hP.terminate hw h _ _
    · rename_i r mb hsel
      refine hP.update _ _ _ (fun _ => rfl) (fun _ => rfl) (fun b hb hbp => ?_) h
      obtain rfl := hw.eq_of_find? ha hb hbp
      exact .of_select hsel rfl
    · split
      · exact h
      · -- a new receive token, perhaps a timer, then the process waits
        split <;> dsimp only <;>
          refine hP.update _ _ _ (fun _ => rfl) (fun _ => rfl) (fun _ _ _ => .of_status rfl (by simp)) ?_ <;>
          exact hP.quiet s _ rfl rfl rfl rfl rfl rfl h

/-- The scheduler's answer to a request of a process whose pid has been handed out: a monitor it
asks for names it as the observer, and so does the monitor of a child it spawns. -/
theorem handle (hP : Guarded P) (hw : s.Wf) (h : P s) (hpid : pid ≤ s.nextPid) (req : Request) :
    P (s.handle pid req).2 := by
  cases req with
  | spawn body link monitor =>
    have hw₁ := hw.spawn body
    have h₁ := hP.spawn s body hw h
    have hpid₁ : pid ≤ (s.spawn body).2.nextPid := by
      rw [spawn_nextPid]
      omega
    rw [System.handle]
    generalize s.spawn body = m at hw₁ h₁ hpid₁ ⊢
    obtain ⟨child, s₁⟩ := m
    dsimp only at hw₁ h₁ hpid₁ ⊢
    -- a link on request hands out no pid
    have h₂ : (if link = true then s₁.link pid child else s₁).Wf ∧
        P (if link = true then s₁.link pid child else s₁) ∧
        pid ≤ (if link = true then s₁.link pid child else s₁).nextPid := by
      split
      · exact ⟨hw₁.link _ _, hP.link hw₁ h₁ _ _, by rwa [nextPid_link]⟩
      · exact ⟨hw₁, h₁, hpid₁⟩
    generalize (if link = true then s₁.link pid child else s₁) = s₂ at h₂ ⊢
    split
    · have h₃ := hP.monitorKnown s₂ pid child h₂.1 h₂.2.2 h₂.2.1
      generalize s₂.monitor pid child = m at h₃ ⊢
      obtain ⟨ref, s₃⟩ := m
      exact h₃
    · exact h₂.2.1
  | send dest msg =>
    rw [System.handle]
    split
    · exact hP.send h ‹_›
    · exact h
  | receive clauses after =>
    rw [System.handle]
    exact hP.beginReceive hw h _ _ _
  | sleep ms =>
    rw [System.handle]
    -- the process falls asleep, then its wake-up timer is set
    have h₁ := hP.update s pid (fun a => { a with status := .sleeping }) (fun _ => rfl) (fun _ => rfl)
      (fun _ _ _ => .of_status rfl (by simp)) h
    exact hP.quiet (s.update pid fun a => { a with status := .sleeping }) _ rfl rfl rfl rfl rfl rfl h₁
  | register name =>
    rw [System.handle]
    split
    · exact hP.register _ _ _ _ hw ‹_› h
    · exact h
  | sendAfter target msg after => exact hP.sendAfter h _ _ _
  | link other => exact hP.link hw h _ _
  | unlink other => exact hP.unlink h _ _
  | monitor other => exact hP.monitorKnown s pid other hw hpid h
  | demonitor ref => exact hP.demonitor s ref hw h
  | exit target reason => exact hP.signalExit hw h _ _ _
  | unregister name => exact hP.unregister s name hw h
  | processFlag flag value => exact hP.processFlag hw h _ _ _
  | put key value | get key | erase key | getKeys =>
    rw [System.handle]
    split
    rename_i out s₁ hd
    have h₁ := congrArg Prod.snd hd
    dsimp only at h₁
    rw [← h₁]
    exact hP.withDictionary h _ _
  | makeRef => exact hP.makeRef s hw h
  | yield | whereis _ | registered | isAlive _ | list => exact h

theorem resume (hP : Guarded P) (hw : s.Wf) (h : P s) (pid : Nat) (r : Reply) :
    P (s.resume pid r).2 := by
  simp only [System.resume]
  split
  · exact h
  · rename_i a _
    -- the notes are collected and the process marks itself running
    let s₁ : System := { s with trace := s.trace ++ ((a.cont r).advance.1.map fun n =>
      ({ pid, note := n } : Entry)) }.update pid fun a => { a with status := .running }
    have hw₁ : s₁.Wf :=
      Wf.update (hw.of_actors rfl rfl rfl) (fun _ h => h) (fun _ _ => rfl)
    have h₁ : P s₁ :=
      hP.update _ _ _ (fun _ => rfl) (fun _ => rfl) (fun _ _ _ => .of_status rfl (by simp))
        (hP.quiet s _ rfl rfl rfl rfl rfl rfl h)
    split
    · exact hP.update _ _ _ (fun _ => rfl) (fun _ => rfl) (fun _ _ _ => .of_eq rfl rfl) h₁
    · exact hP.terminate hw₁ h₁ _ _
    · exact hP.terminate hw₁ h₁ _ _
    · exact h₁

theorem retryReceive (hP : Guarded P) (hw : s.Wf) (h : P s) (pid : Nat) :
    P (s.retryReceive pid).2 := by
  simp only [System.retryReceive]
  split
  · exact h
  · rename_i a ha
    split
    · exact h
    · split
      · exact h
      · rename_i r mb hsel
        have h₁ : P (s.update pid fun a => { a with mailbox := mb, pending := none }) := by
          refine hP.update _ _ _ (fun _ => rfl) (fun _ => rfl) (fun b hb hbp => ?_) h
          obtain rfl := hw.eq_of_find? ha hb hbp
          exact .of_select hsel rfl
        split
        · exact hP.quiet (s.update pid fun a => { a with mailbox := mb, pending := none }) _
            rfl rfl rfl rfl rfl rfl h₁
        · exact h₁
      · exact hP.terminate hw h _ _

theorem runTasks (hP : Guarded P) (pid : Nat) :
    ∀ (n used : Nat) (s : System), s.Wf → P s → P (runTasks pid n used s).2
  | 0, _, _, _, h => h
  | n + 1, used, s, hw, h => by
    unfold System.runTasks
    split
    · exact h
    · rename_i task s₁ hpop
      have hw₁ : s₁.Wf := hw.popTask hpop
      have h₁ : P s₁ := hP.popTask h hpop
      split
      rename_i reply s₂ hreply
      -- the task yields a reply, or a retry that finds nothing
      have h₂ : s₂.Wf ∧ P s₂ := by
        have he := congrArg Prod.snd hreply
        cases task with
        | resume r =>
          dsimp only at he
          exact he ▸ ⟨hw₁, h₁⟩
        | retry =>
          dsimp only at he
          exact he ▸ ⟨hw₁.retryReceive pid, hP.retryReceive hw₁ h₁ pid⟩
      split
      · exact runTasks hP pid n _ s₂ h₂.1 h₂.2
      · rename_i r
        have h₃ : (s₂.resume pid r).2.Wf ∧ P (s₂.resume pid r).2 :=
          ⟨h₂.1.resume pid r, hP.resume h₂.1 h₂.2 pid r⟩
        split
        · rename_i s₃ hres
          rw [hres] at h₃
          exact h₃.2
        · rename_i req s₃ hres
          rw [hres] at h₃
          -- the request is answered, and an answer is queued as the next task
          have h₄ : (s₃.handle pid req).2.Wf ∧ P (s₃.handle pid req).2 :=
            ⟨h₃.1.handle pid req, hP.handle h₃.1 h₃.2 (h₃.1.le_of_alive (alive_of_resume hres)) req⟩
          split
          rename_i flow s₄ hflow
          rw [hflow] at h₄
          split
          · exact runTasks hP pid n _ _ (h₄.1.enqueue _ _) (hP.enqueue h₄.2 _ _)
          · exact runTasks hP pid n _ _ h₄.1 h₄.2

theorem runSlice (hP : Guarded P) (hw : s.Wf) (h : P s) (pid limit : Nat) :
    P (s.runSlice pid limit).2 :=
  hP.update _ _ _ (fun _ => rfl) (fun _ => rfl) (fun _ _ _ => .of_eq rfl rfl) (hP.runTasks pid limit 0 s hw h)

theorem fire (hP : Guarded P) (h : P s) (e : TimerEvent) : P (s.fire e) := by
  cases e with
  | wake pid =>
    simp only [System.fire]
    split
    · exact hP.enqueue h _ _
    · exact h
  | receiveTimeout pid token =>
    simp only [System.fire]
    split
    · exact hP.enqueue (hP.update s pid (fun a => { a with pending := none }) (fun _ => rfl)
        (fun _ => rfl) (fun _ _ _ => .of_eq rfl rfl) h) _ _
    · exact h
  | deliver pid msg => exact hP.deliver h _ _

/-! ## Every call and every reachable state -/

theorem tick (hP : Guarded P) (s : System) (h : s.Wf ∧ P s) : s.tick.2.Wf ∧ P s.tick.2 :=
  tick_keeps (fun s => s.Wf ∧ P s) (fun _ pid n h => ⟨h.1.runSlice pid n, hP.runSlice h.1 h.2 pid n⟩) s h

theorem runUntilIdle (hP : Guarded P) (s : System) (h : s.Wf ∧ P s) :
    s.runUntilIdle.Wf ∧ P s.runUntilIdle := by
  refine runUntilIdle_keeps (fun s => s.Wf ∧ P s) (fireTimers_keeps _ fun s₀ e q h _ => ?_) hP.tick s h
  have hq : ({ s₀ with timers := q } : System).Wf ∧ P { s₀ with timers := q } :=
    ⟨h.1.of_actors rfl rfl rfl, hP.quiet s₀ _ rfl rfl rfl rfl rfl rfl h.2⟩
  exact ⟨hq.1.fire e, hP.fire hq.2 e⟩

theorem run (hP : Guarded P) (s : System) (h : s.Wf ∧ P s) : s.run.Wf ∧ P s.run :=
  run_keeps (fun s => s.Wf ∧ P s) hP.runUntilIdle
    (pruneStaleTimers_keeps _ fun s₀ _ _ h _ _ =>
      ⟨h.1.of_actors rfl rfl rfl, hP.quiet s₀ _ rfl rfl rfl rfl rfl rfl h.2⟩)
    (fun s₀ _ h => ⟨h.1.of_actors rfl rfl rfl, hP.quiet s₀ _ rfl rfl rfl rfl rfl rfl h.2⟩) s h

/-- Every call that names known observers only keeps an invariant that the primitive changes
keep. -/
theorem perform (hP : Guarded P) (hw : s.Wf) (h : P s) {call : Call} (hc : call.KnownObserver s) :
    P (s.perform call) := by
  cases call with
  | spawn body =>
    rw [System.perform]
    exact hP.spawn s body hw h
  | spawnLink parent body =>
    have hw₁ := hw.spawn body
    have h₁ := hP.spawn s body hw h
    rw [System.perform]
    generalize s.spawn body = m at hw₁ h₁ ⊢
    obtain ⟨p, s₁⟩ := m
    exact hP.link hw₁ h₁ _ _
  | spawnMonitor observer body =>
    have hw₁ := hw.spawn body
    have h₁ := hP.spawn s body hw h
    -- the observer has been handed out by the time the child is
    have hobs : observer ≤ (s.spawn body).2.nextPid := by
      rw [spawn_nextPid]
      exact hc
    rw [System.perform]
    generalize s.spawn body = m at hw₁ h₁ hobs ⊢
    obtain ⟨p, s₁⟩ := m
    exact hP.monitorKnown s₁ observer p hw₁ hobs h₁
  | send dest msg =>
    rw [System.perform]
    split
    · exact hP.send h ‹_›
    · exact h
  | register name pid =>
    rw [System.perform]
    split
    · exact hP.register s _ name pid hw ‹_› h
    · exact h
  | sendAfter pid msg after => exact hP.sendAfter h _ _ _
  | link a b => exact hP.link hw h a b
  | unlink a b => exact hP.unlink h a b
  | monitor observer observed => exact hP.monitorKnown s observer observed hw hc h
  | demonitor ref => exact hP.demonitor s ref hw h
  | exit sender target reason => exact hP.signalExit hw h sender target reason
  | unregister name => exact hP.unregister s name hw h
  | processFlag pid flag value => exact hP.processFlag hw h pid flag value
  | makeRef => exact hP.makeRef s hw h
  | advance ms => exact hP.quiet s _ rfl rfl rfl rfl rfl rfl h
  | tick => exact (hP.tick s ⟨hw, h⟩).2
  | runUntilIdle => exact (hP.runUntilIdle s ⟨hw, h⟩).2
  | run => exact (hP.run s ⟨hw, h⟩).2

/-- An invariant that holds of fresh systems and that the primitive changes keep holds of every
state that calls naming known observers reach. -/
theorem reachableKnown (hP : Guarded P) (hc : ∀ c allocate, P (System.createOn c allocate))
    (hs : s.ReachableKnown) : P s := by
  induction hs with
  | create c allocate => exact hc c allocate
  | perform call hs hk ih => exact hP.perform hs.reachable.wf ih hk

end Guarded

namespace Stable

/-- Every call keeps an invariant that the primitive changes keep, a monitor whatever its
observer. -/
theorem perform (hP : Stable P) (hw : s.Wf) (h : P s) (call : Call) : P (s.perform call) := by
  cases call with
  | monitor observer observed => exact hP.monitor s observer observed hw h
  | spawnMonitor observer body =>
    have hw₁ := hw.spawn body
    have h₁ := hP.spawn s body hw h
    rw [System.perform]
    generalize s.spawn body = m at hw₁ h₁ ⊢
    obtain ⟨p, s₁⟩ := m
    exact hP.monitor s₁ observer p hw₁ h₁
  | _ => exact hP.toGuarded.perform hw h trivial

/-- An invariant that holds of fresh systems and that the primitive changes keep holds of every
reachable state. -/
theorem reachable (hP : Stable P) (hc : ∀ c allocate, P (System.createOn c allocate))
    (hs : s.Reachable) : P s := by
  induction hs with
  | create c allocate => exact hc c allocate
  | perform call hs ih => exact hP.perform hs.wf ih call

/-- From a reachable state where it holds, an invariant that the primitive changes keep holds of
every later state. -/
theorem leads (hP : Stable P) (hs : s.Reachable) (h : P s) (hl : Leads s s') : P s' := by
  induction hl with
  | refl => exact h
  | tail hl hstep ih =>
    obtain ⟨call, rfl⟩ := hstep
    exact hP.perform (hs.leads hl).wf ih call

end Stable

/-! ## What spawning, monitors, the registry and the end of a process change -/

section Frame

variable {body : Nat → Program} {q observer observed ref : Nat} {r : ExitReason}

theorem fst_spawn : (s.spawn body).1 = s.nextPid + 1 := by
  simp only [System.spawn]
  split <;> rfl

theorem alive_spawn :
    (s.spawn body).2.alive q =
      (s.alive q || (s.nextPid + 1 == q && (s.allocateStack (s.nextPid + 1) s.config.stackSize).isNone)) := by
  simp only [System.spawn]
  split
  · rename_i hfit
    simp [alive, Actors.alive, hfit]
  · rename_i hfit
    simp [alive, hfit]

/-- A spawn records an exit exactly when the machine cannot allocate the new process's stack. -/
theorem exited_spawn :
    (s.spawn body).2.exited = s.exited ++ ((s.allocateStack (s.nextPid + 1) s.config.stackSize).map
      fun text => (s.nextPid + 1, ExitReason.error (allocationFailure text))).toList := by
  simp only [System.spawn]
  split <;> simp_all

@[simp] theorem registry_spawn : (s.spawn body).2.registry = s.registry := by
  simp only [System.spawn]
  split <;> rfl

@[simp] theorem monitors_spawn : (s.spawn body).2.monitors = s.monitors := by
  simp only [System.spawn]
  split <;> rfl

@[simp] theorem nextRef_spawn : (s.spawn body).2.nextRef = s.nextRef := by
  simp only [System.spawn]
  split <;> rfl

/-- A monitor takes a fresh reference; a live observed process gets it installed in the table
and in the observer's set, a process that is not live sends the observer `:DOWN` at once. -/
theorem monitor_eq :
    s.monitor observer observed =
      if s.alive observed then
        (s.nextRef + 1,
          ({ s with nextRef := s.nextRef + 1,
                    monitors := s.monitors.insert (s.nextRef + 1) ⟨observer, observed⟩ } : System).update
            observer fun a => { a with monitors := insertAscending (s.nextRef + 1) a.monitors })
      else (s.nextRef + 1, ({ s with nextRef := s.nextRef + 1 } : System).deliver observer
          (ExitReason.noproc.downMessage (s.nextRef + 1) observed)) := by
  unfold System.monitor System.makeRef
  rfl

@[simp] theorem alive_monitor : (s.monitor observer observed).2.alive q = s.alive q := by
  rw [monitor_eq]
  split
  · exact alive_update fun _ h => h
  · exact alive_deliver _

@[simp] theorem registry_monitor : (s.monitor observer observed).2.registry = s.registry := by
  rw [monitor_eq]
  split <;> rfl

@[simp] theorem exited_monitor : (s.monitor observer observed).2.exited = s.exited := by
  rw [monitor_eq]
  split <;> rfl

@[simp] theorem nextPid_monitor : (s.monitor observer observed).2.nextPid = s.nextPid := by
  rw [monitor_eq]
  split <;> rfl

@[simp] theorem nextRef_monitor : (s.monitor observer observed).2.nextRef = s.nextRef + 1 := by
  rw [monitor_eq]
  split <;> rfl

/-- Removing a monitor drops its table entry and the reference from its observer's set. -/
theorem demonitor_eq :
    s.demonitor ref =
      match s.monitors.get? ref with
      | some m => (true, ({ s with monitors := ⟨s.monitors.entries.filter (·.1 != ref)⟩ } : System).update
          m.observer fun a => { a with monitors := a.monitors.erase ref })
      | none => (false, s) := by
  unfold System.demonitor MonitorTable.remove
  cases s.monitors.get? ref <;> rfl

@[simp] theorem alive_demonitor : (s.demonitor ref).2.alive q = s.alive q := by
  rw [demonitor_eq]
  split
  · exact alive_update fun _ h => h
  · rfl

@[simp] theorem registry_demonitor : (s.demonitor ref).2.registry = s.registry := by
  rw [demonitor_eq]
  split <;> rfl

@[simp] theorem exited_demonitor : (s.demonitor ref).2.exited = s.exited := by
  rw [demonitor_eq]
  split <;> rfl

@[simp] theorem nextPid_demonitor : (s.demonitor ref).2.nextPid = s.nextPid := by
  rw [demonitor_eq]
  split <;> rfl

@[simp] theorem nextRef_demonitor : (s.demonitor ref).2.nextRef = s.nextRef := by
  rw [demonitor_eq]
  split <;> rfl

/-- A registration succeeds for a live process that the registry accepts, and changes the
registry only. -/
theorem register_eq_ok {name : String} :
    s.register name pid = .ok s' ↔
      s.alive pid = true ∧ ∃ r, s.registry.register name pid = .ok r ∧ s' = { s with registry := r } := by
  unfold System.register
  split
  · rename_i ha
    cases hr : s.registry.register name pid with
    | error e => simp [Except.map, ha]
    | ok r =>
      simp only [Except.map, Except.ok.injEq, ha, true_and]
      exact ⟨fun h => ⟨r, rfl, h.symm⟩, fun ⟨r', hr', h⟩ => by cases hr'; exact h.symm⟩
  · rename_i ha
    simp [ha]

end Frame

/-! ## Properties of every live process -/

section EveryActor

variable {Q : Actor → Prop} {f : Actor → Actor}

/-- A property of processes that every change the scheduler makes to one keeps is kept by a
run of deliveries. -/
theorem foldl_deliver_of (hchange : ∀ a b, b.pid = a.pid → a.Changes b → Q a → Q b)
    (msg : Nat → Term) :
    ∀ (refs : List Nat) (o : Actor), Q o → Q (refs.foldl (fun o r => o.deliver (msg r)) o)
  | [], _, h => h
  | r :: refs, o, h =>
    foldl_deliver_of hchange msg refs _ (hchange o (o.deliver (msg r)) rfl (o.changes_deliver _) h)

/-- The end of a process changes another only by dropping monitors and a link and by
delivering `:DOWN` messages. -/
theorem afterExit_of (hchange : ∀ a b, b.pid = a.pid → a.Changes b → Q a → Q b) (a : Actor)
    (reason : ExitReason) (taken : List (Nat × Nat)) {o : Actor} (h : Q o) :
    Q (afterExit a reason taken o) := by
  let refs := (taken.filter (·.2 == o.pid)).map (·.1)
  let o₁ : Actor := { o with monitors := refs.foldl List.erase o.monitors }
  let o₂ := refs.foldl (fun o r => o.deliver (reason.downMessage r a.pid)) o₁
  have h₂ : Q o₂ := foldl_deliver_of hchange _ refs o₁ (hchange o o₁ rfl (.of_eq rfl rfl) h)
  show Q (if a.links.contains o₂.pid then { o₂ with links := o₂.links.erase a.pid } else o₂)
  split
  · exact hchange o₂ _ rfl (.of_eq rfl rfl) h₂
  · exact h₂

theorem forall_update (hchange : ∀ a b, b.pid = a.pid → a.Changes b → Q a → Q b)
    (hpid : ∀ a, (f a).pid = a.pid) (hf : ∀ a ∈ s.actors, a.pid = pid → a.Changes (f a))
    (h : ∀ a ∈ s.actors, Q a) : ∀ b ∈ (s.update pid f).actors, Q b := by
  intro b hb
  simp only [update, Actors.update, List.mem_map] at hb
  obtain ⟨a, ha, rfl⟩ := hb
  split
  · rename_i hp
    exact hchange _ _ (hpid a) (hf a ha hp) (h a ha)
  · exact h a ha

/-- A property of every live process, beside an invariant `R`, is kept by the primitive changes
when every change the scheduler makes to a process keeps it and a new process has it. -/
theorem Stable.forall_actors {R : System → Prop} (hR : Stable R)
    (hchange : ∀ a b, b.pid = a.pid → a.Changes b → Q a → Q b)
    (hspawn : ∀ s (body : Nat → Program), s.Wf → R s →
      Q { pid := s.nextPid + 1, queue := [.resume .start], cont := fun _ => body (s.nextPid + 1) }) :
    Stable fun s => R s ∧ ∀ a ∈ s.actors, Q a where
  update s pid f hpid hmon hchg h :=
    ⟨hR.update s pid f hpid hmon hchg h.1, forall_update hchange hpid hchg h.2⟩
  quiet s s' hact hnext hrefs hreg hmon hexited h :=
    ⟨hR.quiet s s' hact hnext hrefs hreg hmon hexited h.1, hact ▸ h.2⟩
  spawn s body hw h := by
    refine ⟨hR.spawn s body hw h.1, ?_⟩
    simp only [System.spawn]
    split
    · intro a ha
      rcases List.mem_append.1 ha with ha | ha
      · exact h.2 a ha
      · rw [List.mem_singleton.1 ha]
        exact hspawn s body hw h.1
    · exact h.2
  release s pid r hw h := by
    refine ⟨hR.release s pid r hw h.1, ?_⟩
    cases hf : s.find? pid with
    | none =>
      rw [release_of_find?_none hf]
      exact h.2
    | some a =>
      rw [release_of_find? hf]
      intro b hb
      obtain ⟨o, ho, rfl⟩ := List.mem_map.1 hb
      exact afterExit_of hchange a r _ (h.2 o (List.mem_filter.1 ho).1)
  demonitor s ref hw h := by
    refine ⟨hR.demonitor s ref hw h.1, ?_⟩
    rw [demonitor_eq]
    split
    · exact forall_update hchange (fun _ => rfl) (fun _ _ _ => .of_eq rfl rfl) h.2
    · exact h.2
  register s s' name pid hw hs h := by
    refine ⟨hR.register s s' name pid hw hs h.1, ?_⟩
    obtain ⟨-, reg, -, rfl⟩ := register_eq_ok.1 hs
    exact h.2
  unregister s name hw h := ⟨hR.unregister s name hw h.1, h.2⟩
  makeRef s hw h := ⟨hR.makeRef s hw h.1, h.2⟩
  monitor s observer observed hw h := by
    refine ⟨hR.monitor s observer observed hw h.1, ?_⟩
    rw [monitor_eq]
    split
    · exact forall_update hchange (fun _ => rfl) (fun _ _ _ => .of_eq rfl rfl) h.2
    · exact forall_update hchange (fun _ => rfl) (fun a _ _ => a.changes_deliver _) h.2

/-- The invariant that always holds, to pair with a property of every live process. -/
theorem stable_true : Stable fun _ => True where
  update _ _ _ _ _ _ _ := trivial
  quiet _ _ _ _ _ _ _ _ _ := trivial
  spawn _ _ _ _ := trivial
  release _ _ _ _ _ := trivial
  demonitor _ _ _ _ := trivial
  register _ _ _ _ _ _ _ := trivial
  unregister _ _ _ _ := trivial
  makeRef _ _ _ := trivial
  monitor _ _ _ _ _ := trivial

end EveryActor

end System

end ActorCore
