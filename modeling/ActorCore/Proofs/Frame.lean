import ActorCore.System.Run

/-!
# What the scheduler's operations leave alone

The scheduler changes a live process in two ways only: `System.update` rewrites the process of one
pid, and `System.release` removes a process and tells the others it has ended. This module says
once what each does to a lookup by pid, so that later proofs cite these lemmas and never unfold
the operations.

* `Actors.find?_update`, `System.find?_update` — an update that keeps pids changes the lookup of
  its own pid and no other.
* `Actor.foldl_deliver`, `System.afterExit_eq` — delivering a list of messages appends them, and
  queues one retry for each when the process waits in a receive; the end of a process leaves
  another with its `:DOWN` messages appended and its link to the ended process removed.
* `System.release_of_find?`, `System.find?_release` — the state a release leaves, in one
  equation, and its lookups.
* `System.alive_of_alive_propagate` — exit signals never bring a process back.
-/

namespace ActorCore

namespace Actors

variable {ps : Actors} {pid q : Nat} {f : Actor → Actor}

theorem find?_update (hf : ∀ a, a.pid = pid → (f a).pid = pid) :
    (ps.update pid f).find? q = if q = pid then (ps.find? q).map f else ps.find? q := by
  have hkeep : ((·.pid == q) ∘ fun a : Actor => if a.pid = pid then f a else a) = (·.pid == q) := by
    funext a
    by_cases h : a.pid = pid <;> simp [h, hf a]
  simp only [update, find?, List.find?_map, hkeep]
  cases h : List.find? (·.pid == q) ps with
  | none => simp
  | some a =>
    have ha : a.pid = q := by simpa using List.find?_some h
    by_cases hq : q = pid <;> simp [hq, ha]

theorem alive_iff : ps.alive q = true ↔ ∃ a, ps.find? q = some a := by
  rw [← Option.isSome_iff_exists]
  simp [alive, find?, List.find?_isSome]

theorem pid_of_find? {a : Actor} (h : ps.find? q = some a) : a.pid = q := by
  simpa using List.find?_some h

theorem mem_of_find? {a : Actor} (h : ps.find? q = some a) : a ∈ ps :=
  List.mem_of_find?_eq_some h

/-- With distinct pids, the lookup of a pid finds the one live process that has it. -/
theorem find?_eq_some_iff (hnd : (ps.map Actor.pid).Nodup) {a : Actor} :
    ps.find? q = some a ↔ a ∈ ps ∧ a.pid = q := by
  refine ⟨fun h => ⟨mem_of_find? h, pid_of_find? h⟩, ?_⟩
  rintro ⟨ha, rfl⟩
  induction ps with
  | nil => cases ha
  | cons b rest ih =>
    simp only [List.map_cons, List.nodup_cons, List.mem_map] at hnd
    rcases List.mem_cons.1 ha with rfl | ha'
    · simp [find?]
    · have hb : b.pid ≠ a.pid := fun hb => hnd.1 ⟨a, ha', hb.symm⟩
      simpa [find?, List.find?_cons, hb] using ih hnd.2 ha'

end Actors

namespace Actor

/-- Delivering messages one after another appends them, and queues a retry for each when the
process waits in a receive. -/
theorem foldl_deliver (msgs : List Term) (o : Actor) :
    msgs.foldl Actor.deliver o =
      { o with mailbox := ⟨o.mailbox.messages ++ msgs⟩,
               queue := o.queue ++ if o.status = .suspended then List.replicate msgs.length .retry
                 else [] } := by
  induction msgs generalizing o with
  | nil => simp
  | cons m rest ih =>
    rw [List.foldl_cons, ih]
    by_cases hs : o.status = .suspended <;>
      simp [deliver, Mailbox.deliver, hs, List.replicate_succ]

end Actor

namespace System

variable {s : System} {pid q : Nat} {f : Actor → Actor}

theorem find?_update (hf : ∀ a, a.pid = pid → (f a).pid = pid) :
    (s.update pid f).find? q = if q = pid then (s.find? q).map f else s.find? q :=
  Actors.find?_update hf

theorem alive_iff : s.alive q = true ↔ ∃ a, s.find? q = some a :=
  Actors.alive_iff

theorem alive_update (hf : ∀ a, a.pid = pid → (f a).pid = pid) :
    (s.update pid f).alive q = s.alive q := by
  apply Bool.eq_iff_iff.2
  rw [alive_iff, alive_iff, find?_update hf]
  split <;> cases s.find? q <;> simp

theorem find?_deliver (m : Term) :
    (s.deliver pid m).find? q = if q = pid then (s.find? q).map (·.deliver m) else s.find? q :=
  find?_update fun _ h => h

theorem find?_enqueue (t : Task) :
    (s.enqueue pid t).find? q = if q = pid then (s.find? q).map (·.enqueue t) else s.find? q :=
  find?_update fun _ h => h

@[simp] theorem alive_deliver (m : Term) : (s.deliver pid m).alive q = s.alive q :=
  alive_update fun _ h => h

@[simp] theorem alive_enqueue (t : Task) : (s.enqueue pid t).alive q = s.alive q :=
  alive_update fun _ h => h

/-- What the end of `a` leaves of another process `o`: the monitors `o` held on `a` dropped, their
`:DOWN` messages appended (each with a retry when `o` waits in a receive), and its link to `a`
removed when `a` was linked to it. -/
theorem afterExit_eq (a : Actor) (reason : ExitReason) (taken : List (Nat × Nat)) (o : Actor) :
    afterExit a reason taken o =
      let refs := (taken.filter (·.2 == o.pid)).map (·.1)
      { o with monitors := refs.foldl List.erase o.monitors,
               mailbox := ⟨o.mailbox.messages ++ refs.map (reason.downMessage · a.pid)⟩,
               queue := o.queue ++ if o.status = .suspended then List.replicate refs.length .retry
                 else [],
               links := if a.links.contains o.pid then o.links.erase a.pid else o.links } := by
  have hfold := Actor.foldl_deliver
    (((taken.filter (·.2 == o.pid)).map (·.1)).map (reason.downMessage · a.pid))
    { o with monitors := ((taken.filter (·.2 == o.pid)).map (·.1)).foldl List.erase o.monitors }
  rw [List.foldl_map] at hfold
  simp only [afterExit, hfold]
  split <;> simp

@[simp] theorem afterExit_pid (a : Actor) (r : ExitReason) (taken : List (Nat × Nat)) (o : Actor) :
    (afterExit a r taken o).pid = o.pid := by
  rw [afterExit_eq]

/-- A release, in one equation: the process leaves the table and the others learn of its end,
its timer is cancelled, its monitors and name go, its exit is recorded, and its links get exit
signals. -/
theorem release_of_find? {a : Actor} (h : s.find? pid = some a) (r : ExitReason) :
    s.release pid r =
      let held := a.monitors.foldl (fun t r => (t.remove r).2) s.monitors
      ({ s with actors := (s.actors.filter (·.pid != pid)).map (afterExit a r (held.takeObserving pid).1),
                timers := match a.pending.bind (·.timeout) with
                  | some id => s.timers.cancel id
                  | none => s.timers,
                monitors := (held.takeObserving pid).2,
                registry := s.registry.cleanup pid,
                exited := s.exited ++ [(pid, r)] },
       a.links.map fun other => ⟨some pid, other, r⟩) := by
  unfold release
  exact h ▸ rfl

theorem release_of_find?_none (h : s.find? pid = none) (r : ExitReason) : s.release pid r = (s, []) := by
  rw [release, h]

theorem find?_release {a : Actor} (h : s.find? pid = some a) (r : ExitReason) :
    ∃ taken, ∀ q, (s.release pid r).1.find? q =
      if q = pid then none else (s.find? q).map (afterExit a r taken) := by
  refine ⟨((a.monitors.foldl (fun t r => (t.remove r).2) s.monitors).takeObserving pid).1,
    fun q => ?_⟩
  rw [release_of_find? h]
  have hkeep : ((·.pid == q) ∘ afterExit a r
      ((a.monitors.foldl (fun t r => (t.remove r).2) s.monitors).takeObserving pid).1) =
      (·.pid == q) := by
    funext o
    simp
  simp only [find?, Actors.find?, List.find?_map, hkeep, List.find?_filter]
  by_cases hq : q = pid
  · subst hq
    simp
  · have hp : (fun x : Actor => !decide (x.pid = pid) && decide (x.pid = q)) = (·.pid == q) := by
      funext x
      by_cases hx : x.pid = q <;> simp [hx, hq]
    simp [hq, hp]

theorem alive_release {a : Actor} (h : s.find? pid = some a) (r : ExitReason) :
    (s.release pid r).1.alive q = (q != pid && s.alive q) := by
  obtain ⟨taken, hfind⟩ := find?_release h r
  apply Bool.eq_iff_iff.2
  rw [alive_iff, hfind, Bool.and_eq_true, alive_iff]
  by_cases hq : q = pid <;> cases s.find? q <;> simp [hq]

/-- A release never makes a process live. -/
theorem alive_of_alive_release {r : ExitReason} (h : (s.release pid r).1.alive q = true) :
    s.alive q = true := by
  cases hf : s.find? pid with
  | none => rwa [release_of_find?_none hf] at h
  | some a =>
    rw [alive_release hf] at h
    simp at h
    exact h.2

/-- Exit signals never bring a process back. -/
theorem alive_of_alive_propagate {signals : List Signal} (h : (s.propagate signals).alive q = true) :
    s.alive q = true := by
  induction s, signals using propagate.induct with
  | case1 s => simpa [propagate] using h
  | case2 s sg rest hf ih =>
    rw [propagate, hf] at h
    exact ih h
  | case3 s sg rest a hf hact ih =>
    rw [propagate, hf] at h
    simp only [hact] at h
    simpa using ih h
  | case4 s sg rest a hf r hact ih =>
    rw [propagate, hf] at h
    simp only [hact] at h
    exact alive_of_alive_release (ih h)

end System

end ActorCore
