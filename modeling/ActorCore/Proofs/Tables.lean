import Mathlib
import ActorCore.Proofs.TableRefinement

/-!
# The process tables stay in step

The runtime keeps a process in four tables keyed by pid (control blocks, coroutines, task
queues, pending receives), beside the registry's two maps and the exit reasons of ended
processes. A host drives the tables through the same calls as a `System` (`Tables.perform`), and
a state of the tables is reachable when some sequence of calls leads to it from fresh tables.

Every call does to the tables of a system what it does to the system (`System.tables_perform`),
so every reachable state of the tables is the tables of a reachable system
(`Tables.Reachable.exists_system`), and every later state the tables of a later system
(`Tables.Leads.exists_system`). What the lifecycle of a process guarantees for systems then
holds of the tables the runtime keeps.

## Results

* `Tables.Gone` — a pid gone from the tables: no table has an entry for it, no control block
  links to it, no name names it, and a task or a timer event for it does nothing.
* `Tables.lifecycle_consistent` — in every reachable state the control blocks, coroutines and
  queues have the same pids, every pending receive is of a live pid, no live pid has an exit
  reason while every pid handed out that is not live has one, no status is `exiting`; and from
  then on a recorded exit reason stays, and a pid handed out that is not live is gone for good.
-/

namespace ActorCore

namespace Tables

/-- The state after a call of the host; a call that fails leaves the state as it was. -/
def perform (t : Tables) : Call → Tables
  | .spawn body => (t.spawn body).2
  | .spawnLink parent body =>
    let (p, t) := t.spawn body
    t.link parent p
  | .spawnMonitor observer body =>
    let (p, t) := t.spawn body
    (t.monitor observer p).2
  | .send dest msg =>
    match t.send dest msg with
    | .ok t' => t'
    | .error _ => t
  | .sendAfter pid msg after => t.sendAfter pid msg after
  | .link a b => t.link a b
  | .unlink a b => t.unlink a b
  | .monitor observer observed => (t.monitor observer observed).2
  | .demonitor ref => (t.demonitor ref).2
  | .exit sender target reason => t.signalExit sender target reason
  | .register name pid =>
    match t.register name pid with
    | .ok t' => t'
    | .error _ => t
  | .unregister name => (t.unregister name).2
  | .processFlag pid flag value => (t.processFlag pid flag value).2
  | .makeRef => t.makeRef.2
  | .advance ms => { t with now := t.now + ms }
  | .tick => t.tick.2
  | .runUntilIdle => t.runUntilIdle
  | .run => t.run

/-- The states some sequence of calls leads to from fresh tables, on any machine. -/
inductive Reachable : Tables → Prop
  | create (c : Config) (allocate : StackAllocation) : Reachable (createOn c allocate)
  | perform {t : Tables} (call : Call) : Reachable t → Reachable (t.perform call)

/-- The states a sequence of calls leads to from `t`. -/
def Leads (t t' : Tables) : Prop :=
  Relation.ReflTransGen (fun t t' => ∃ call, t' = t.perform call) t t'

end Tables

namespace System

variable {s : System}

/-- The square of a call: a call does to the tables of a system what it does to the system. -/
theorem tables_perform (hw : s.Wf) (ho : s.Ordered) (call : Call) :
    (s.perform call).tables = s.tables.perform call := by
  cases call with
  | spawn body =>
    rw [System.perform, Tables.perform, ← tables_spawn hw body]
    rfl
  | spawnLink parent body =>
    have hw₁ := hw.spawn body
    have ho₁ := Ordered.guarded.spawn s body hw ho
    rw [System.perform, Tables.perform, ← tables_spawn hw body]
    generalize s.spawn body = m at hw₁ ho₁ ⊢
    obtain ⟨p, s₁⟩ := m
    exact tables_link hw₁ ho₁ parent p
  | spawnMonitor observer body =>
    have hw₁ := hw.spawn body
    rw [System.perform, Tables.perform, ← tables_spawn hw body]
    generalize s.spawn body = m at hw₁ ⊢
    obtain ⟨p, s₁⟩ := m
    show (s₁.monitor observer p).2.tables = (s₁.tables.monitor observer p).2
    rw [← tables_monitor hw₁]
    rfl
  | send dest msg =>
    rw [System.perform, Tables.perform, ← tables_send hw]
    cases s.send dest msg <;> rfl
  | register name pid =>
    rw [System.perform, Tables.perform, ← tables_register]
    cases s.register name pid <;> rfl
  | sendAfter pid msg after => exact tables_sendAfter pid msg after
  | link a b => exact tables_link hw ho a b
  | unlink a b => exact tables_unlink a b
  | monitor observer observed =>
    rw [System.perform, Tables.perform, ← tables_monitor hw]
    rfl
  | demonitor ref =>
    rw [System.perform, Tables.perform, ← tables_demonitor]
    rfl
  | exit sender target reason => exact tables_signalExit hw ho sender target reason
  | unregister name =>
    rw [System.perform, Tables.perform, ← tables_unregister ho.registry]
    rfl
  | processFlag pid flag value =>
    rw [System.perform, Tables.perform, ← tables_processFlag hw]
    rfl
  | makeRef =>
    rw [System.perform, Tables.perform, ← tables_makeRef]
    rfl
  | advance ms => rfl
  | tick =>
    rw [System.perform, Tables.perform, ← tables_tick hw ho]
    rfl
  | runUntilIdle => exact tables_runUntilIdle hw ho
  | run => exact tables_run hw ho

end System

namespace Tables

variable {t t' : Tables}

/-! ## Every reachable state of the tables is the tables of a reachable system -/

theorem Reachable.exists_system (ht : t.Reachable) : ∃ s : System, s.Reachable ∧ s.tables = t := by
  induction ht with
  | create c allocate =>
    exact ⟨System.createOn c allocate, .create c allocate, System.tables_createOn c allocate⟩
  | perform call _ ih =>
    obtain ⟨s, hs, rfl⟩ := ih
    exact ⟨s.perform call, .perform call hs, System.tables_perform hs.wf hs.ordered call⟩

/-- Calls that lead on from the tables of a reachable system lead on from the system. -/
theorem Leads.exists_system {s : System} (hs : s.Reachable) (hl : s.tables.Leads t') :
    ∃ s' : System, s.Leads s' ∧ s'.tables = t' := by
  induction hl with
  | refl => exact ⟨s, .refl, rfl⟩
  | tail _ hstep ih =>
    obtain ⟨s', hl', rfl⟩ := ih
    obtain ⟨call, rfl⟩ := hstep
    have hs' := hs.leads hl'
    exact ⟨s'.perform call, hl'.tail ⟨call, rfl⟩, System.tables_perform hs'.wf hs'.ordered call⟩

/-! ## Gone for good -/

/-- A pid gone from the tables: no table has an entry for it, no control block links to it, no
name names it, and a task or a timer event for it does nothing. -/
structure Gone (t : Tables) (p : Nat) : Prop where
  process : t.processes.get? p = none
  coroutine : t.coroutines.get? p = none
  queue : t.queues.get? p = none
  receive : t.receiving.get? p = none
  links : ∀ q o, t.processes.get? q = some o → p ∉ o.links
  name : t.registry.nameOf p = none
  named : ∀ n, t.registry.whereis n ≠ some p
  runSlice : ∀ n, t.runSlice p n = (0, t)
  fire : ∀ e : TimerEvent, e.target = p → t.fire e = t ∧ t.isLive e = false

/-- A pid gone from a well-formed system is gone from its tables. -/
theorem Gone.of_system {s : System} {p : Nat} (hw : s.Wf) (ho : s.Ordered) (hr : s.RegistryInv)
    (hg : s.Gone p) : s.tables.Gone p where
  process := by rw [System.get?_processes, hg.find]; rfl
  coroutine := by rw [System.get?_coroutines, hg.find]; rfl
  queue := by rw [System.get?_queues, hg.find]; rfl
  receive := by rw [System.get?_receiving hw, hg.find]; rfl
  links q o ho' := by
    rw [System.get?_processes] at ho'
    obtain ⟨a, ha, rfl⟩ := Option.map_eq_some_iff.1 ho'
    have := hg.links q
    rwa [System.links_of_find? ha] at this
  name := by
    show s.registry.maps.nameOf p = none
    rw [Registry.nameOf_maps]
    exact hg.name
  named n hn := by
    change s.registry.maps.whereis n = some p at hn
    rw [Registry.whereis_maps, Registry.whereis_iff_nameOf hr.wf, hg.name] at hn
    cases hn
  runSlice n := by rw [← System.tables_runSlice hw ho, hg.runSlice n]; rfl
  fire e he := by
    rw [← System.tables_fire hw, System.tables_isLive hw, (hg.fire e he).1, (hg.fire e he).2]
    exact ⟨rfl, rfl⟩

/-! ## The lifecycle, table by table -/

/-- In every reachable state the control blocks, coroutines and queues have the same pids, every
pending receive is of a live pid, no live pid has an exit reason while every pid handed out that
is not live has one, and no status is `exiting`; from then on, a recorded exit reason stays, and
a pid handed out that is not live is gone for good. -/
theorem lifecycle_consistent (ht : t.Reachable) :
    t.coroutines.keys = t.processes.keys ∧ t.queues.keys = t.processes.keys ∧
    (∀ p ∈ t.receiving.keys, t.isAlive p = true) ∧
    (∀ p, t.isAlive p = true → t.exitReason p = none) ∧
    (∀ p, 0 < p → p ≤ t.nextPid → t.isAlive p = false → (t.exitReason p).isSome) ∧
    (∀ p, t.status p ≠ some .exiting) ∧
    ∀ t', t.Leads t' →
      (∀ p r, t.exitReason p = some r → t'.exitReason p = some r) ∧
      ∀ p, p ≤ t.nextPid → t.isAlive p = false → t'.Gone p := by
  obtain ⟨s, hs, rfl⟩ := ht.exists_system
  have hw := hs.wf
  have hacc := hs.accounted
  refine ⟨?_, ?_, ?_, ?_, ?_, ?_, ?_⟩
  · -- each table of a live process has the live pids as its keys
    exact (Actors.keys_table _).trans (Actors.keys_table _).symm
  · exact (Actors.keys_table _).trans (Actors.keys_table _).symm
  · -- a receive is pending only in the record of a live process
    intro p hp
    rw [System.isAlive_tables, System.alive_iff_mem_pids]
    exact Actors.keys_pendingTable_sublist.subset hp
  · intro p hp
    rw [System.isAlive_tables] at hp
    refine System.exitReason?_eq_none_iff.2 fun hmem => ?_
    obtain ⟨e, he, rfl⟩ := List.mem_map.1 hmem
    rw [hw.exited_dead e he] at hp
    cases hp
  · intro p hpos hle hp
    rw [System.isAlive_tables] at hp
    rcases hacc.spawned p hpos hle with h | h
    · rw [hp] at h
      cases h
    · obtain ⟨e, he, rfl⟩ := List.mem_map.1 h
      exact Option.isSome_iff_exists.2 ⟨e.2, (System.exitReason?_eq_some_iff hacc.nodup).2 he⟩
  · intro p hp
    rw [System.status_tables] at hp
    obtain ⟨a, ha, hst⟩ := Option.map_eq_some_iff.1 hp
    exact hs.not_exiting a (Actors.mem_of_find? ha) hst
  · intro t' hl
    obtain ⟨s', hl', rfl⟩ := Leads.exists_system hs hl
    have hs' := hs.leads hl'
    have hgrow := (System.grows_stable s).leads hs ⟨List.prefix_refl _, Nat.le_refl _⟩ hl'
    refine ⟨fun p r hr => hgrow.exitReason? hs'.accounted.nodup hr, fun p hle hp => ?_⟩
    rw [System.isAlive_tables] at hp
    exact Gone.of_system hs'.wf hs'.ordered hs'.registryInv (System.gone_of_leads hs hl' hle hp)

/-- Fresh tables on a machine that cannot allocate a stack, after one spawn. -/
def unallocated : Tables :=
  (createOn {} fun _ _ => some "Cannot allocate memory (os error 12)").perform
    (.spawn fun _ => .finish (.ok ()))

theorem lifecycle_consistent_unallocated :
    unallocated.Reachable ∧
      (unallocated.coroutines.keys = unallocated.processes.keys ∧
        unallocated.queues.keys = unallocated.processes.keys ∧
        (∀ p ∈ unallocated.receiving.keys, unallocated.isAlive p = true) ∧
        (∀ p, unallocated.isAlive p = true → unallocated.exitReason p = none) ∧
        (∀ p, 0 < p → p ≤ unallocated.nextPid → unallocated.isAlive p = false →
          (unallocated.exitReason p).isSome) ∧
        (∀ p, unallocated.status p ≠ some .exiting) ∧
        ∀ t', unallocated.Leads t' →
          (∀ p r, unallocated.exitReason p = some r → t'.exitReason p = some r) ∧
          ∀ p, p ≤ unallocated.nextPid → unallocated.isAlive p = false → t'.Gone p) :=
  have h : unallocated.Reachable := .perform _ (.create _ _)
  ⟨h, lifecycle_consistent h⟩

end Tables

end ActorCore
