import Mathlib.Logic.Function.Iterate
import ActorCore.Proofs.WakeUp

/-!
# The scheduler's loops end

Two loops of the scheduler carry no bound of their own.

* The worklist of exit signals (`System.propagate`) runs until its queue is empty, and ending a
  process queues one signal per link it had, over a link graph that may have cycles.
  `System.exitStep` is one pass of that loop: the first signal is dropped when its target has
  ended, becomes one `{:EXIT, from, reason}` message, or ends its target, which leaves the table
  and queues its own signals (`exitStep_cases`). Each pass lowers the number of live processes,
  or keeps it and shortens the queue (`exitStep_lex_lt`), so from any state and any queue the
  loop reaches an empty queue, in the state `propagate` returns (`exitStep_reaches_propagate`).
* A tick repeats rounds over the processes with queued work, for as long as some remain.
  `System.tickStep` is one pass of that loop as the scheduler runs it, with no way out but an
  empty run queue or a spent budget. What one pass keeps — the settings, well-formed processes,
  a budget never exceeded — every run keeps (`TickInv`). The first process of each round has a
  task, and both settings are at least 1 and never change (`Reachable.config_clamped`), so every
  round that does not run out of budget uses a reduction; hence the loop returns, with what
  `tick` returns (`tickStep_reaches_tickFrom`).

Principal results: `exit_signals_terminate` and `tick_bounded`.
-/

namespace ActorCore

namespace System

variable {s s' : System} {pid : Nat}

/-! ## The settings never change -/

@[simp] theorem config_update (f : Actor → Actor) : (s.update pid f).config = s.config := rfl

@[simp] theorem config_deliver (m : Term) : (s.deliver pid m).config = s.config := rfl

@[simp] theorem config_enqueue (t : Task) : (s.enqueue pid t).config = s.config := rfl

@[simp] theorem config_release (r : ExitReason) : (s.release pid r).1.config = s.config := by
  unfold release
  split <;> rfl

@[simp] theorem config_propagate (signals : List Signal) :
    (s.propagate signals).config = s.config := by
  induction s, signals using propagate.induct with
  | case1 s => rw [propagate]
  | case2 s sg rest hf ih =>
    rw [propagate, hf]
    exact ih
  | case3 s sg rest a hf hact ih =>
    rw [propagate, hf]
    simp only [hact]
    exact ih
  | case4 s sg rest a hf r hact ih =>
    rw [propagate, hf]
    simp only [hact]
    rw [ih, config_release]

@[simp] theorem config_terminate (r : ExitReason) : (s.terminate pid r).config = s.config := by
  simp [terminate]

@[simp] theorem config_signalExit (sender : Option Nat) (target : Nat) (r : ExitReason) :
    (s.signalExit sender target r).config = s.config := by
  simp [signalExit]

@[simp] theorem config_spawn (body : Nat → Program) : (s.spawn body).2.config = s.config := by
  simp only [spawn]
  split <;> rfl

@[simp] theorem config_link (a b : Nat) : (s.link a b).config = s.config := by
  unfold link
  split <;> simp

@[simp] theorem config_monitor (observer observed : Nat) :
    (s.monitor observer observed).2.config = s.config := by
  unfold monitor makeRef
  dsimp only
  split <;> rfl

@[simp] theorem config_demonitor (ref : Nat) : (s.demonitor ref).2.config = s.config := by
  unfold demonitor
  split <;> rfl

@[simp] theorem config_processFlag (p : Nat) (flag : String) (v : Term) :
    (s.processFlag p flag v).2.config = s.config := by
  unfold processFlag
  split <;> rfl

@[simp] theorem config_withDictionary {α : Type} (p : Nat) (f : TermMap → α × TermMap) :
    (s.withDictionary p f).2.config = s.config := by
  unfold withDictionary
  split <;> rfl

theorem config_of_send {dest : Dest} {m : Term} (h : s.send dest m = .ok s') :
    s'.config = s.config := by
  simp only [send, bind, Except.bind] at h
  split at h
  · cases h
  · cases h
    rfl

theorem config_of_register {name : String} {p : Nat} (h : s.register name p = .ok s') :
    s'.config = s.config := by
  unfold register at h
  split at h
  · cases hr : s.registry.register name p with
    | error e => simp [hr, Except.map] at h
    | ok r =>
      simp only [hr, Except.map, Except.ok.injEq] at h
      rw [← h]
  · cases h

/-- Every operation of the interface keeps the settings. -/
theorem keeps_config (c : Config) : Keeps fun s => s.config = c where
  spawn _ body h := (config_spawn body).trans h
  link _ a b h := (config_link a b).trans h
  unlink _ _ _ h := h
  monitor _ a b h := (config_monitor a b).trans h
  demonitor _ ref h := (config_demonitor ref).trans h
  send _ _ _ _ h hs := (config_of_send hs).trans h
  sendAfter _ _ _ _ h := h
  signalExit _ sender target r h := (config_signalExit sender target r).trans h
  register _ _ _ _ h hs := (config_of_register hs).trans h
  unregister _ _ h := h
  processFlag _ p flag v h := (config_processFlag p flag v).trans h
  withDictionary _ p f h := (config_withDictionary p f).trans h
  makeRef _ h := h

@[simp] theorem config_beginReceive (clauses : List Clause) (deadline : Option Nat) :
    (s.beginReceive pid clauses deadline).2.config = s.config := by
  unfold beginReceive
  split
  · rfl
  · split
    · simp
    · rfl
    · split
      · rfl
      · split <;> rfl

@[simp] theorem config_handle (req : Request) : (s.handle pid req).2.config = s.config := by
  rcases req.isPrompt_or with hreq | ⟨clauses, after, rfl⟩ | ⟨ms, rfl⟩
  · exact (keeps_config s.config).handle rfl pid hreq
  · simp [handle]
  · simp [handle]

@[simp] theorem config_resume (r : Reply) : (s.resume pid r).2.config = s.config := by
  simp only [resume]
  split
  · rfl
  · split <;> simp

@[simp] theorem config_retryReceive : (s.retryReceive pid).2.config = s.config := by
  simp only [retryReceive]
  split
  · rfl
  · split
    · rfl
    · split
      · rfl
      · split <;> rfl
      · simp

theorem config_of_popTask {t : Task} (h : s.popTask pid = some (t, s')) : s'.config = s.config := by
  unfold popTask at h
  split at h
  · split at h
    · cases h
      rfl
    · cases h
  · cases h

theorem config_runTasks (n used : Nat) : (runTasks pid n used s).2.config = s.config := by
  refine runTasks_keeps_served (fun s' _ => s'.config = s.config) pid
    (fun _ _ _ h hpop => (config_of_popTask hpop).trans h)
    (fun _ _ h hpop => (config_retryReceive).trans ((config_of_popTask hpop).trans h))
    (fun s₁ _ r h hres => by
      rw [← h, ← (config_resume r : (s₁.resume pid r).2.config = s₁.config), hres])
    (fun s₁ _ r _ h hres => by
      rw [← h, ← (config_resume r : (s₁.resume pid r).2.config = s₁.config), hres])
    (fun s₁ req h => ?_) n used s rfl
  -- the answer, if any, is queued as the next task
  split <;> simpa using h

@[simp] theorem config_runSlice (limit : Nat) : (s.runSlice pid limit).2.config = s.config := by
  simp [runSlice, config_runTasks]

@[simp] theorem config_fire (e : TimerEvent) : (s.fire e).config = s.config := by
  cases e with
  | wake p =>
    simp only [fire]
    split <;> rfl
  | receiveTimeout p token =>
    simp only [fire]
    split <;> rfl
  | deliver p m => rfl

theorem config_perform (call : Call) : (s.perform call).config = s.config := by
  let P : System → Prop := fun s' => s'.config = s.config
  have htick : ∀ s₁, P s₁ → P s₁.tick.2 := fun s₁ h =>
    tick_keeps P (fun s₂ p n h₂ => (config_runSlice n).trans h₂) s₁ h
  have hidle : ∀ s₁, P s₁ → P s₁.runUntilIdle := fun s₁ h =>
    runUntilIdle_keeps P (fireTimers_keeps P fun _ e _ h₂ _ => (config_fire e).trans h₂) htick s₁ h
  exact (keeps_config s.config).perform htick hidle
    (fun s₁ h => run_keeps P hidle (pruneStaleTimers_keeps P fun _ _ _ h₂ _ _ => h₂)
      (fun _ _ h₂ => h₂) s₁ h) (fun _ _ h₁ => h₁) rfl call

/-- The settings of a reachable state are the settings it was created with, clamped: both
counts are at least 1. -/
theorem Reachable.config_clamped (hs : s.Reachable) : ∃ c : Config, s.config = c.clamped := by
  induction hs with
  | create c _ => exact ⟨c, rfl⟩
  | perform call _ ih =>
    obtain ⟨c, hc⟩ := ih
    exact ⟨c, (config_perform call).trans hc⟩

/-! ## The worklist of exit signals -/

/-- One pass of the loop that delivers exit signals, first in first out: a signal to an ended
target is dropped; otherwise, by `ExitReason.action`, it becomes an `{:EXIT, from, reason}`
message or ends its target, whose own signals join the end of the queue. An empty queue stays. -/
def exitStep : System × List Signal → System × List Signal
  | (s, []) => (s, [])
  | (s, sg :: rest) =>
    match s.find? sg.target with
    | none => (s, rest)
    | some a =>
      match sg.reason.action a.trapExit with
      | .deliver => (s.deliver sg.target (sg.reason.exitMessage sg.sender), rest)
      | .terminate r => ((s.release sg.target r).1, rest ++ (s.release sg.target r).2)

/-- What one pass does: it drops a signal to an ended target; or it delivers one `:EXIT`
message to the target; or it ends the target, which is then no longer live, and queues one
signal from it to each process it was linked to. -/
theorem exitStep_cases (s : System) (sg : Signal) (rest : List Signal) :
    (s.find? sg.target = none ∧ exitStep (s, sg :: rest) = (s, rest)) ∨
    (∃ a, s.find? sg.target = some a ∧ sg.reason.action a.trapExit = .deliver ∧
      exitStep (s, sg :: rest) = (s.deliver sg.target (sg.reason.exitMessage sg.sender), rest)) ∨
    (∃ a r, s.find? sg.target = some a ∧ sg.reason.action a.trapExit = .terminate r ∧
      (s.release sg.target r).1.alive sg.target = false ∧
      exitStep (s, sg :: rest) =
        ((s.release sg.target r).1, rest ++ a.links.map fun other => ⟨some sg.target, other, r⟩)) := by
  cases hf : s.find? sg.target with
  | none => exact .inl ⟨rfl, by simp [exitStep, hf]⟩
  | some a =>
    cases hact : sg.reason.action a.trapExit with
    | deliver => exact .inr (.inl ⟨a, rfl, hact, by simp [exitStep, hf, hact]⟩)
    | terminate r =>
      refine .inr (.inr ⟨a, r, rfl, hact, by simp [alive_release hf], ?_⟩)
      simp [exitStep, hf, hact, release_signals hf]

/-- **Each pass lowers the measure** (live processes, queued signals) lexicographically: a
dropped or delivered signal keeps the processes and shortens the queue; an ended target leaves
the table, however many signals it queues. -/
theorem exitStep_lex_lt (s : System) (sg : Signal) (rest : List Signal) :
    Prod.Lex (· < ·) (· < ·)
      ((exitStep (s, sg :: rest)).1.actors.length, (exitStep (s, sg :: rest)).2.length)
      (s.actors.length, (sg :: rest).length) := by
  rcases exitStep_cases s sg rest with ⟨-, hstep⟩ | ⟨a, -, -, hstep⟩ | ⟨a, r, hf, -, -, hstep⟩
  · rw [hstep]
    exact .right _ (by simp)
  · rw [hstep, length_deliver]
    exact .right _ (by simp)
  · rw [hstep]
    exact .left _ _ (length_release_lt s sg.target r a hf)

/-- The loop reaches an empty queue, in the state `propagate` returns. -/
theorem exitStep_reaches_propagate (s : System) (signals : List Signal) :
    ∃ n, exitStep^[n] (s, signals) = (s.propagate signals, []) := by
  induction s, signals using propagate.induct with
  | case1 s => exact ⟨0, by rw [propagate]; rfl⟩
  | case2 s sg rest hf ih =>
    obtain ⟨n, hn⟩ := ih
    refine ⟨n + 1, ?_⟩
    rw [Function.iterate_succ_apply, propagate, hf]
    simpa [exitStep, hf] using hn
  | case3 s sg rest a hf hact ih =>
    obtain ⟨n, hn⟩ := ih
    refine ⟨n + 1, ?_⟩
    rw [Function.iterate_succ_apply, propagate, hf]
    simpa [exitStep, hf, hact] using hn
  | case4 s sg rest a hf r hact ih =>
    obtain ⟨n, hn⟩ := ih
    refine ⟨n + 1, ?_⟩
    rw [Function.iterate_succ_apply, propagate, hf]
    simpa [exitStep, hf, hact] using hn

/-- **The worklist of exit signals terminates.** Each pass drops a signal to an ended target,
delivers one `:EXIT` message, or ends a live process, which leaves the table and queues one
signal per link it had; so each pass lowers the number of live processes, or keeps it and
shortens the queue, and from every state and every queue the loop reaches an empty queue, in
the state `propagate` returns. -/
theorem exit_signals_terminate :
    (∀ s sg rest, (s.find? sg.target = none ∧ exitStep (s, sg :: rest) = (s, rest)) ∨
      (∃ a, s.find? sg.target = some a ∧ sg.reason.action a.trapExit = .deliver ∧
        exitStep (s, sg :: rest) = (s.deliver sg.target (sg.reason.exitMessage sg.sender), rest)) ∨
      (∃ a r, s.find? sg.target = some a ∧ sg.reason.action a.trapExit = .terminate r ∧
        (s.release sg.target r).1.alive sg.target = false ∧
        exitStep (s, sg :: rest) =
          ((s.release sg.target r).1, rest ++ a.links.map fun other => ⟨some sg.target, other, r⟩))) ∧
    (∀ s sg rest, Prod.Lex (· < ·) (· < ·)
      ((exitStep (s, sg :: rest)).1.actors.length, (exitStep (s, sg :: rest)).2.length)
      (s.actors.length, (sg :: rest).length)) ∧
    ∀ s signals, ∃ n, exitStep^[n] (s, signals) = (s.propagate signals, []) :=
  ⟨exitStep_cases, exitStep_lex_lt, exitStep_reaches_propagate⟩

/-! ## A tick -/

/-- Where the loop of a tick stands: looping, with the reductions used so far, the state, and
the pids still to serve in the current round (none between rounds); or returned, with the
reductions used. -/
inductive TickLoop where
  | looping (spent : Nat) (s : System) (pending : List Nat)
  | returned (spent : Nat) (s : System)

namespace TickLoop

/-- The reductions used so far. -/
def spent : TickLoop → Nat
  | .looping spent _ _ | .returned spent _ => spent

/-- The state of the system. -/
def system : TickLoop → System
  | .looping _ s _ | .returned _ s => s

end TickLoop

/-- One pass of the loop of a tick, as the scheduler runs it. Between rounds it looks for
processes with queued work: with none the tick returns, otherwise a round starts over their pids,
ascending. Within a round the next pid gets a slice of at most `reductions` tasks and of no more
than what is left of the budget, unless the budget is spent, which returns at once. -/
def tickStep (budget : Nat) : TickLoop → TickLoop
  | .looping spent s [] =>
    if s.runnable.isEmpty then .returned spent s else .looping spent s s.runnable
  | .looping spent s (pid :: rest) =>
    if budget ≤ spent then .returned spent s
    else
      let slice := s.runSlice pid (min s.config.reductions (budget - spent))
      .looping (spent + slice.1) slice.2 rest
  | .returned spent s => .returned spent s

/-- Where a round leaves the loop: returned when the budget ran out, between rounds otherwise. -/
def afterRound : Bool × Nat × System → TickLoop
  | (true, spent, s) => .returned spent s
  | (false, spent, s) => .looping spent s []

/-! ### Slices -/

/-- One task of a turn: with no task queued the turn ends; otherwise the task is taken, costs
one reduction, and the turn either ends or goes on with one allowance less. -/
theorem runTasks_succ (pid n used : Nat) (s : System) :
    (s.popTask pid = none ∧ runTasks pid (n + 1) used s = (used, s)) ∨
    ∃ t s₁, s.popTask pid = some (t, s₁) ∧
      ((∃ s₂, runTasks pid (n + 1) used s = runTasks pid n (used + 1) s₂) ∨
        ∃ s₂, runTasks pid (n + 1) used s = (used + 1, s₂)) := by
  rw [runTasks]
  split
  · exact .inl ⟨‹_›, rfl⟩
  · rename_i task s₁ hpop
    refine .inr ⟨task, s₁, hpop, ?_⟩
    split
    split
    · exact .inl ⟨_, rfl⟩
    · split
      · exact .inr ⟨_, rfl⟩
      · split
        exact .inl ⟨_, rfl⟩

/-- A turn runs at most its allowance of tasks, each costing one reduction. -/
theorem runTasks_used (pid : Nat) :
    ∀ (n used : Nat) (s : System),
      used ≤ (runTasks pid n used s).1 ∧ (runTasks pid n used s).1 ≤ used + n
  | 0, used, s => by simp [runTasks]
  | n + 1, used, s => by
    rcases runTasks_succ pid n used s with ⟨-, h⟩ | ⟨t, s₁, -, ⟨s₂, h⟩ | ⟨s₂, h⟩⟩
    · rw [h]
      omega
    · have := runTasks_used pid n (used + 1) s₂
      rw [h]
      omega
    · rw [h]
      omega

/-- A turn of a process with a queued task runs at least that task. -/
theorem lt_runTasks_of_popTask {t : Task} (hpop : s.popTask pid = some (t, s')) (n used : Nat) :
    used < (runTasks pid (n + 1) used s).1 := by
  rcases runTasks_succ pid n used s with ⟨h, -⟩ | ⟨t, s₁, -, ⟨s₂, h⟩ | ⟨s₂, h⟩⟩
  · rw [hpop] at h
    cases h
  · have := runTasks_used pid n (used + 1) s₂
    rw [h]
    omega
  · rw [h]
    omega

theorem runSlice_le (s : System) (pid limit : Nat) : (s.runSlice pid limit).1 ≤ limit := by
  simpa [runSlice] using (runTasks_used pid limit 0 s).2

/-- In a well-formed state, a runnable pid names a live process with a queued task. -/
theorem popTask_of_mem_runnable (hw : s.Wf) (h : pid ∈ s.runnable) :
    ∃ t s', s.popTask pid = some (t, s') := by
  simp only [runnable, List.mem_map, List.mem_filter] at h
  obtain ⟨a, ⟨ha, hq⟩, rfl⟩ := h
  have hf : s.find? a.pid = some a := (Actors.find?_eq_some_iff hw.nodup).2 ⟨ha, rfl⟩
  obtain ⟨t, rest, hqueue⟩ := List.exists_cons_of_ne_nil (by simpa using hq)
  exact ⟨t, s.update a.pid fun a => { a with queue := rest }, by simp [popTask, hf, hqueue]⟩

/-! ### Rounds -/

theorem le_tickRound (budget : Nat) :
    ∀ (pids : List Nat) (spent : Nat) (s : System), spent ≤ (tickRound budget pids spent s).2.1
  | [], _, _ => Nat.le_refl _
  | pid :: rest, spent, s => by
    simp only [tickRound]
    split
    · exact Nat.le_refl _
    · exact Nat.le_trans (Nat.le_add_right _ _) (le_tickRound budget rest _ _)

/-- **A round makes progress**: with budget left, the first runnable process runs a task, since
the settings allow a slice of at least one. -/
theorem lt_tickRound (hw : s.Wf) (hr : 1 ≤ s.config.reductions) {spent budget : Nat}
    (hb : spent < budget) {rest : List Nat} (hrun : s.runnable = pid :: rest) :
    spent < (tickRound budget (pid :: rest) spent s).2.1 := by
  obtain ⟨t, s₁, hpop⟩ := popTask_of_mem_runnable hw (hrun ▸ List.mem_cons_self)
  obtain ⟨k, hk⟩ : ∃ k, min s.config.reductions (budget - spent) = k + 1 :=
    ⟨min s.config.reductions (budget - spent) - 1, by omega⟩
  have hslice : spent < spent + (s.runSlice pid (k + 1)).1 := by
    have := lt_runTasks_of_popTask hpop k 0
    simp only [runSlice]
    omega
  simp only [tickRound, if_neg (Nat.not_le.2 hb), hk]
  exact Nat.lt_of_lt_of_le hslice (le_tickRound budget rest _ _)

/-- A round that finds the budget spent returns at once. -/
theorem tickRound_of_le {budget spent : Nat} (hb : budget ≤ spent) (pid : Nat) (rest : List Nat) :
    tickRound budget (pid :: rest) spent s = (true, spent, s) := by
  simp [tickRound, hb]

/-- A round is a run of passes of the loop. -/
theorem tickStep_round (budget : Nat) :
    ∀ (pids : List Nat) (spent : Nat) (s : System),
      ∃ n, (tickStep budget)^[n] (.looping spent s pids) = afterRound (tickRound budget pids spent s)
  | [], _, _ => ⟨0, rfl⟩
  | pid :: rest, spent, s => by
    by_cases hb : budget ≤ spent
    · exact ⟨1, by simp [tickStep, tickRound, hb, afterRound]⟩
    · obtain ⟨n, hn⟩ := tickStep_round budget rest
        (spent + (s.runSlice pid (min s.config.reductions (budget - spent))).1)
        (s.runSlice pid (min s.config.reductions (budget - spent))).2
      refine ⟨n + 1, ?_⟩
      rw [Function.iterate_succ_apply]
      simpa [tickStep, tickRound, hb] using hn

/-! ### The loop of a tick -/

/-- What the loop of a tick keeps, for a budget and settings `c`: the settings, well-formed
processes and a budget never exceeded; and once the loop has returned, no process has queued work
or the budget is spent. -/
structure TickInv (budget : Nat) (c : Config) (x : TickLoop) : Prop where
  config : x.system.config = c
  wf : x.system.Wf
  within : x.spent ≤ budget
  ended : ∀ spent s, x = .returned spent s → s.runnable = [] ∨ budget ≤ spent

theorem TickInv.start (hw : s.Wf) {budget spent : Nat} (h : spent ≤ budget) :
    TickInv budget s.config (.looping spent s []) :=
  ⟨rfl, hw, h, fun _ _ hx => nomatch hx⟩

/-- One pass keeps the invariant: a slice keeps the settings and the processes well formed, and
is given no more than what is left of the budget; the loop returns only on an empty run queue or
a spent budget. -/
theorem TickInv.step {budget : Nat} {c : Config} {x : TickLoop} (h : TickInv budget c x) :
    TickInv budget c (tickStep budget x) := by
  match x, h with
  | .looping spent s [], h =>
    by_cases he : s.runnable.isEmpty
    · simp only [tickStep, he, if_true]
      exact ⟨h.config, h.wf, h.within, fun _ _ hx => by
        cases hx
        exact .inl (List.isEmpty_iff.1 he)⟩
    · simp only [tickStep, he]
      exact ⟨h.config, h.wf, h.within, fun _ _ hx => nomatch hx⟩
  | .looping spent s (pid :: rest), h =>
    by_cases hb : budget ≤ spent
    · simp only [tickStep, hb, if_true]
      exact ⟨h.config, h.wf, h.within, fun _ _ hx => by
        cases hx
        exact .inr hb⟩
    · simp only [tickStep, hb, if_false]
      have hle := runSlice_le s pid (min s.config.reductions (budget - spent))
      refine ⟨(config_runSlice _).trans h.config, h.wf.runSlice _ _, ?_, fun _ _ hx => nomatch hx⟩
      have hmin := Nat.min_le_right s.config.reductions (budget - spent)
      simp only [TickLoop.spent]
      omega
  | .returned spent s, h => exact h

/-- Every run of the loop keeps the invariant. -/
theorem TickInv.iterate {budget : Nat} {c : Config} {x : TickLoop} (h : TickInv budget c x)
    (n : Nat) : TickInv budget c ((tickStep budget)^[n] x) :=
  Function.Iterate.rec (TickInv budget c) h (fun _ hy => hy.step) n

/-- A pass uses at most one slice, of at most `reductions` reductions. -/
theorem tickStep_spent_le (budget : Nat) (x : TickLoop) :
    (tickStep budget x).spent ≤ x.spent + x.system.config.reductions := by
  match x with
  | .looping spent s [] =>
    by_cases he : s.runnable.isEmpty <;> simp [tickStep, he, TickLoop.spent]
  | .looping spent s (pid :: rest) =>
    by_cases hb : budget ≤ spent
    · simp [tickStep, hb, TickLoop.spent]
    · have hle := runSlice_le s pid (min s.config.reductions (budget - spent))
      have hmin := Nat.min_le_left s.config.reductions (budget - spent)
      simp only [tickStep, hb, if_false, TickLoop.spent, TickLoop.system]
      omega
  | .returned spent s => simp [tickStep, TickLoop.spent]

/-- A round that ends the loop of a tick has run out of budget: a round that does not run out
of it makes progress (`lt_tickRound`). -/
theorem exhausted_of_stalled (hw : s.Wf) (hr : 1 ≤ s.config.reductions)
    {budget spent spent' : Nat} {exhausted : Bool} {s' : System} (hne : s.runnable ≠ [])
    (hround : tickRound budget s.runnable spent s = (exhausted, spent', s'))
    (hstop : ¬(!exhausted ∧ spent < spent' ∧ spent < budget)) : exhausted = true := by
  obtain ⟨pid, rest, hrun⟩ := List.exists_cons_of_ne_nil hne
  rw [hrun] at hround
  by_cases hb : budget ≤ spent
  · rw [tickRound_of_le hb] at hround
    exact (Prod.mk.inj hround).1.symm
  · have hlt := lt_tickRound hw hr (Nat.lt_of_not_le hb) hrun
    rw [hround] at hlt
    cases exhausted
    · exact absurd ⟨rfl, hlt, Nat.lt_of_not_le hb⟩ hstop
    · rfl

/-- **The loop of a tick returns, with what `tick` returns.** A round that fails the progress
check of `tickFrom` has run out of budget (`exhausted_of_stalled`), so the check never cuts a run
short. -/
theorem tickStep_reaches_tickFrom (budget spent : Nat) (s : System) (hw : s.Wf)
    (hr : 1 ≤ s.config.reductions) :
    ∃ n, (tickStep budget)^[n] (.looping spent s []) =
      .returned (tickFrom budget spent s).1 (tickFrom budget spent s).2 := by
  induction spent, s using tickFrom.induct budget with
  | case1 spent s pids hempty =>
    simp only [pids] at hempty
    refine ⟨1, ?_⟩
    rw [tickFrom.eq_1 budget spent s]
    simp [tickStep, hempty]
  | case2 spent s pids hne exhausted spent' s' hround hgo ih =>
    simp only [pids] at hne hround
    have heq : tickFrom budget spent s = tickFrom budget spent' s' := by
      rw [tickFrom.eq_1 budget spent s]
      simp only [hne, hround, hgo]
      rfl
    -- the round keeps the processes well formed and the settings
    have hkeep : s'.Wf ∧ s'.config = s.config := by
      simpa [hround] using tickRound_keeps (fun s₁ => s₁.Wf ∧ s₁.config = s.config)
        (fun s₁ p k h => ⟨h.1.runSlice p k, (config_runSlice k).trans h.2⟩) budget s.runnable
        spent s ⟨hw, rfl⟩
    obtain ⟨n₂, hn₂⟩ := ih hkeep.1 (hkeep.2 ▸ hr)
    obtain ⟨n₁, hn₁⟩ := tickStep_round budget s.runnable spent s
    have hex : exhausted = false := by simpa using hgo.1
    refine ⟨n₂ + (n₁ + 1), ?_⟩
    rw [Function.iterate_add_apply, Function.iterate_succ_apply, heq]
    simp only [tickStep, hne, Bool.false_eq_true, if_false]
    rw [hn₁, hround, hex]
    exact hn₂
  | case3 spent s pids hne exhausted spent' s' hround hstop =>
    simp only [pids] at hne hround
    have heq : tickFrom budget spent s = (spent', s') := by
      rw [tickFrom.eq_1 budget spent s]
      simp only [hne, hround, hstop]
      rfl
    have hex := exhausted_of_stalled hw hr (by simpa using hne) hround hstop
    obtain ⟨n₁, hn₁⟩ := tickStep_round budget s.runnable spent s
    refine ⟨n₁ + 1, ?_⟩
    rw [Function.iterate_succ_apply, heq]
    simp only [tickStep, hne, Bool.false_eq_true, if_false]
    rw [hn₁, hround, hex]
    rfl

theorem hasRunnable_eq_false (h : s.runnable = []) : s.hasRunnable = false := by
  simp only [runnable, List.map_eq_nil_iff, List.filter_eq_nil_iff] at h
  simpa [hasRunnable, List.any_eq_false] using h

/-- **A tick is bounded and drains the queues.** From every reachable state both settings are
at least 1; the loop of the tick, as the scheduler runs it, returns after finitely many passes,
with what `tick` returns; each pass runs at most one slice of at most `reductions` tasks; the
tick uses no more than its budget; and a tick that stops short of its budget leaves no process
with queued work. -/
theorem tick_bounded (hs : s.Reachable) :
    1 ≤ s.config.reductions ∧ 1 ≤ s.config.tickBudget ∧
    (∃ n, (tickStep s.config.tickBudget)^[n] (.looping 0 s []) = .returned s.tick.1 s.tick.2) ∧
    (∀ n, ((tickStep s.config.tickBudget)^[n + 1] (.looping 0 s [])).spent ≤
      ((tickStep s.config.tickBudget)^[n] (.looping 0 s [])).spent + s.config.reductions) ∧
    s.tick.1 ≤ s.config.tickBudget ∧
    (s.tick.1 < s.config.tickBudget → s.tick.2.hasRunnable = false) := by
  obtain ⟨c, hc⟩ := hs.config_clamped
  have hr : 1 ≤ s.config.reductions := by
    rw [hc]
    exact Nat.le_max_right _ _
  have hb : 1 ≤ s.config.tickBudget := by
    rw [hc]
    exact Nat.le_max_right _ _
  have hinv : TickInv s.config.tickBudget s.config (.looping 0 s []) :=
    TickInv.start hs.wf (Nat.zero_le _)
  obtain ⟨n, hn⟩ : ∃ n, (tickStep s.config.tickBudget)^[n] (.looping 0 s []) =
      .returned s.tick.1 s.tick.2 := tickStep_reaches_tickFrom _ 0 s hs.wf hr
  have hend := hinv.iterate n
  rw [hn] at hend
  refine ⟨hr, hb, ⟨n, hn⟩, fun k => ?_, hend.within, fun hlt => ?_⟩
  · have hk := tickStep_spent_le s.config.tickBudget ((tickStep s.config.tickBudget)^[k] (.looping 0 s []))
    rw [(hinv.iterate k).config] at hk
    rwa [Function.iterate_succ_apply']
  · rcases hend.ended _ _ rfl with hnil | hle
    · exact hasRunnable_eq_false hnil
    · exact absurd hle (Nat.not_le_of_lt hlt)

theorem tick_bounded_linkedPair :
    linkedPair.Reachable ∧
      (1 ≤ linkedPair.config.reductions ∧ 1 ≤ linkedPair.config.tickBudget ∧
        (∃ n, (tickStep linkedPair.config.tickBudget)^[n] (.looping 0 linkedPair []) =
          .returned linkedPair.tick.1 linkedPair.tick.2) ∧
        (∀ n, ((tickStep linkedPair.config.tickBudget)^[n + 1] (.looping 0 linkedPair [])).spent ≤
          ((tickStep linkedPair.config.tickBudget)^[n] (.looping 0 linkedPair [])).spent +
            linkedPair.config.reductions) ∧
        linkedPair.tick.1 ≤ linkedPair.config.tickBudget ∧
        (linkedPair.tick.1 < linkedPair.config.tickBudget → linkedPair.tick.2.hasRunnable = false)) := by
  have hs : linkedPair.Reachable := .perform _ (.perform _ (.perform _ (.create _ _)))
  exact ⟨hs, tick_bounded hs⟩

end System

end ActorCore
