import ActorCore.Proofs.Cascade

/-!
# Kill requests are recorded as `killed`

An exit signal with the reason `kill` is a kill request: it ends its target whether or not the
target traps exits, and ends it as `killed`. Every other reason ends a process with itself, and a
process that traps exits only gets it as an `{:EXIT, from, reason}` message. So exit signals
never record `kill`, and a process that traps exits outlives every cascade of signals that holds
no kill request (`System.TrapsExits.propagate`).

The end of a process with a reason of its own goes through `System.release` without that
translation. A body that finishes with `exit(:kill)` or `raise(:kill)` is ended with `kill`
itself: `kill` is recorded, and its link signals are kill requests that end the processes
linked to it, trapping or not (`System.kill_by_its_body`). That is the only way `kill` is
recorded: the end of a process with any other reason records no `kill` and spares every other
process that traps exits.

Principal result: `System.kill_recorded_only_by_its_process`.
-/

namespace ActorCore

namespace ExitReason

/-- A signal never ends its target with `kill`. -/
theorem action_ne_terminate_kill (r : ExitReason) (trapping : Bool) :
    r.action trapping ≠ .terminate .kill := by
  cases r <;> cases trapping <;> simp [action]

/-- A process that traps exits gets every signal but a kill request as a message. -/
theorem action_trapping {r : ExitReason} (hr : r ≠ .kill) : r.action true = .deliver := by
  cases r <;> simp_all [action]

end ExitReason

namespace System

variable {s : System} {pid p : Nat} {r : ExitReason}

/-- Whether `p` is live and traps exits. -/
def TrapsExits (s : System) (p : Nat) : Prop :=
  ∃ a, s.find? p = some a ∧ a.trapExit = true

theorem exited_release {a : Actor} (ha : s.find? pid = some a) :
    (s.release pid r).1.exited = s.exited ++ [(pid, r)] := by
  rw [release_of_find? ha]

theorem TrapsExits.deliver (h : s.TrapsExits p) (q : Nat) (m : Term) : (s.deliver q m).TrapsExits p := by
  obtain ⟨a, ha, ht⟩ := h
  rw [TrapsExits, find?_deliver]
  split
  · exact ⟨a.deliver m, by rw [ha, Option.map_some], ht⟩
  · exact ⟨a, ha, ht⟩

/-- The end of another process leaves a process that traps exits live and trapping. -/
theorem TrapsExits.release (h : s.TrapsExits p) (hne : p ≠ pid) : (s.release pid r).1.TrapsExits p := by
  obtain ⟨a, ha, ht⟩ := h
  cases hb : s.find? pid with
  | none => exact ⟨a, by rwa [release_of_find?_none hb], ht⟩
  | some b =>
    obtain ⟨taken, hfind⟩ := find?_release hb r
    refine ⟨afterExit b r taken a, by rw [hfind, if_neg hne, ha, Option.map_some], ?_⟩
    rw [afterExit_eq]
    split <;> exact ht

/-- Exit signals record reasons other than `kill` only: a kill request is recorded as `killed`. -/
theorem exited_propagate (s : System) (signals : List Signal) :
    ∃ new, (s.propagate signals).exited = s.exited ++ new ∧ ∀ e ∈ new, e.2 ≠ .kill := by
  induction s, signals using System.propagate.induct with
  | case1 s => exact ⟨[], by rw [System.propagate, List.append_nil], by simp⟩
  | case2 s sg rest hf ih =>
    rw [System.propagate, hf]
    exact ih
  | case3 s sg rest a hf hact ih =>
    rw [System.propagate, hf]
    simp only [hact]
    exact ih
  | case4 s sg rest a hf r hact ih =>
    rw [System.propagate, hf]
    simp only [hact]
    obtain ⟨new, hnew, hkill⟩ := ih
    refine ⟨(sg.target, r) :: new, by rw [hnew, exited_release hf, List.append_assoc]; rfl, ?_⟩
    rintro e (_ | ⟨_, he⟩)
    · -- the signal ended its target with the reason its action gives, never `kill`
      rintro rfl
      exact ExitReason.action_ne_terminate_kill _ _ hact
    · exact hkill e he

/-- A process that traps exits outlives a cascade of exit signals that holds no kill request:
every signal to it becomes a message, and the processes the cascade ends send their own reasons
on, none of them `kill`. -/
theorem TrapsExits.propagate {signals : List Signal} (hq : ∀ sg ∈ signals, sg.reason ≠ .kill)
    (h : s.TrapsExits p) : (s.propagate signals).TrapsExits p := by
  induction s, signals using System.propagate.induct with
  | case1 s => rwa [System.propagate]
  | case2 s sg rest hf ih =>
    rw [System.propagate, hf]
    exact ih (fun sg' hsg' => hq sg' (List.mem_cons_of_mem _ hsg')) h
  | case3 s sg rest a hf hact ih =>
    rw [System.propagate, hf]
    simp only [hact]
    exact ih (fun sg' hsg' => hq sg' (List.mem_cons_of_mem _ hsg')) (h.deliver _ _)
  | case4 s sg rest a hf r hact ih =>
    rw [System.propagate, hf]
    simp only [hact]
    have hk : sg.reason ≠ .kill := hq sg List.mem_cons_self
    -- the signal ends its target with its own reason, so the target does not trap exits
    have hr : r = sg.reason := by
      rcases ExitReason.action_of_ne_kill hk a.trapExit with hd | ht
      · rw [hd] at hact
        cases hact
      · rw [ht] at hact
        cases hact
        rfl
    have hne : p ≠ sg.target := by
      rintro rfl
      obtain ⟨a', ha', ht⟩ := h
      rw [hf] at ha'
      cases ha'
      rw [ht, ExitReason.action_trapping hk] at hact
      cases hact
    refine ih (fun sg' hsg' => ?_) (h.release hne)
    rcases List.mem_append.1 hsg' with hsg' | hsg'
    · exact hq sg' (List.mem_cons_of_mem _ hsg')
    · rw [release_signals hf] at hsg'
      obtain ⟨z, -, rfl⟩ := List.mem_map.1 hsg'
      rw [hr]
      exact hk

/-- The end of a process with a reason other than `kill` records no `kill` and spares every other
process that traps exits. -/
theorem terminate_of_ne_kill (hr : r ≠ .kill) (s : System) (pid : Nat) :
    (∃ new, (s.terminate pid r).exited = s.exited ++ new ∧ ∀ e ∈ new, e.2 ≠ .kill) ∧
      ∀ p, p ≠ pid → s.TrapsExits p → (s.terminate pid r).TrapsExits p := by
  rw [terminate_eq]
  cases hb : s.find? pid with
  | none =>
    rw [release_of_find?_none hb]
    exact ⟨exited_propagate s [], fun p _ h => h.propagate (by simp)⟩
  | some b =>
    obtain ⟨new, hnew, hkill⟩ := exited_propagate (s.release pid r).1 (s.release pid r).2
    refine ⟨⟨(pid, r) :: new, ?_, ?_⟩, fun p hne h => (h.release hne).propagate ?_⟩
    · rw [hnew, exited_release hb, List.append_assoc]
      rfl
    · rintro e (_ | ⟨_, he⟩)
      · exact hr
      · exact hkill e he
    · intro sg hsg
      rw [release_signals hb] at hsg
      obtain ⟨z, -, rfl⟩ := List.mem_map.1 hsg
      exact hr

/-- Only a process ended with `kill` itself gets `kill` recorded. Exit signals record a kill
request as `killed`, and spare a process that traps exits unless one of them is a kill request;
the end of a process with any other reason records no `kill` and spares every other process that
traps exits. -/
theorem kill_recorded_only_by_its_process (s : System) :
    (∀ signals : List Signal,
      (∃ new, (s.propagate signals).exited = s.exited ++ new ∧ ∀ e ∈ new, e.2 ≠ .kill) ∧
      ((∀ sg ∈ signals, sg.reason ≠ .kill) → ∀ p, s.TrapsExits p →
        (s.propagate signals).TrapsExits p)) ∧
    (∀ (pid : Nat) (r : ExitReason), r ≠ .kill →
      (∃ new, (s.terminate pid r).exited = s.exited ++ new ∧ ∀ e ∈ new, e.2 ≠ .kill) ∧
      ∀ p, p ≠ pid → s.TrapsExits p → (s.terminate pid r).TrapsExits p) :=
  ⟨fun signals => ⟨exited_propagate s signals, fun hq _ h => h.propagate hq⟩,
    fun pid _ hr => terminate_of_ne_kill hr s pid⟩

/-- Two processes spawned by the host and linked, the first trapping exits. -/
def trapPair : System :=
  ((((create .default).perform (.spawn fun _ => .finish (.ok ()))).perform
    (.spawn fun _ => .finish (.ok ()))).perform (.processFlag 1 "trap_exit" (.bool true))).perform
    (.link 1 2)

/-- A body that finishes with `exit(:kill)` ends its process with `kill` itself: `kill` is
recorded, and its link signal ends the process that traps exits. -/
theorem kill_by_its_body :
    Program.exitReason (.error (.exit .kill)) = .kill ∧ trapPair.Reachable ∧ trapPair.TrapsExits 1 ∧
      (trapPair.terminate 2 .kill).exitReason? 2 = some .kill ∧
      (trapPair.terminate 2 .kill).alive 1 = false := by
  -- process 2 is linked to process 1 alone
  obtain ⟨b, hb⟩ : ∃ b, trapPair.find? 2 = some b := Option.isSome_iff_exists.1 (by decide)
  have hlinks : (trapPair.find? 2).map (·.links) = some [1] := by decide
  rw [hb, Option.map_some, Option.some.injEq] at hlinks
  -- after its end, process 1 is live and linked to none
  obtain ⟨c, hc⟩ : ∃ c, (trapPair.release 2 .kill).1.find? 1 = some c :=
    Option.isSome_iff_exists.1 (by decide +kernel)
  have hlinks' : ((trapPair.release 2 .kill).1.find? 1).map (·.links) = some [] := by decide +kernel
  rw [hc, Option.map_some, Option.some.injEq] at hlinks'
  -- the kill request reaches process 1, which ends as `killed` whether it traps exits or not
  have hterm : trapPair.terminate 2 .kill = ((trapPair.release 2 .kill).1.release 1 .killed).1 := by
    rw [terminate_eq, release_signals hb, hlinks]
    change (trapPair.release 2 .kill).1.signalExit (some 2) 1 .kill = _
    have hkill : ExitReason.kill.isKill = true := rfl
    rw [signalExit_of_find? hc, if_pos hkill, terminate_eq, release_signals hc, hlinks', List.map_nil,
      System.propagate]
  have hexited : ((trapPair.release 2 .kill).1.release 1 .killed).1.exited =
      trapPair.exited ++ [(2, .kill), (1, .killed)] := by
    rw [exited_release hc, exited_release hb, List.append_assoc]
    rfl
  have hnone : trapPair.exitReason? 2 = none := by decide
  rw [hterm]
  refine ⟨rfl, .perform _ (.perform _ (.perform _ (.perform _ (.create _ _)))), ⟨_, rfl, rfl⟩, ?_,
    by decide +kernel⟩
  simp only [exitReason?] at hnone ⊢
  simp [hexited, List.lookup_append, hnone]

end System

end ActorCore
