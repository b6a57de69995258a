import Mathlib
import ActorCore.Proofs.Lifecycle
import ActorCore.System.Tables

/-!
# The process tables refine the process records

`System` keeps one record per live process, with its control block, task queue, continuation and
pending receive together; `Tables` keeps them apart, as the runtime does, in four tables keyed by
pid, and the registry as two maps. `System.tables` reads a system as its tables: each live process
has an entry in the table of control blocks, of coroutines and of queues, and one in the table of
receives when it waits in a receive; the registry's bindings give both maps.

Every operation of `Tables` does to the tables of a system what the operation of `System` does to
the system (`System.tables_spawn`, `tables_release`, `tables_runSlice`, `tables_run`, ...): the
square commutes for every well-formed state whose processes are in ascending order of pid and whose
registry binds each name and pid once (`System.Ordered`), which every reachable state is. That is where each table is shown to be written
in step with the others: a spawn that inserted into only some of them, or a release that left an
entry behind, would break its square.
-/

namespace ActorCore

/-- The control block of a live process: its record without its queue, its continuation and its
pending receive. -/
def Actor.process (a : Actor) : Process :=
  { pid := a.pid, status := a.status, mailbox := a.mailbox, links := a.links, monitors := a.monitors,
    trapExit := a.trapExit, flags := a.flags, dictionary := a.dictionary, reductions := a.reductions }

namespace PidTable

variable {α : Type} {t : PidTable α} {pid : Nat} {v : α}

theorem insert_of_lt_keys (h : ∀ k ∈ t.keys, pid < k) : t.insert pid v = (pid, v) :: t := by
  cases t with
  | nil => rfl
  | cons e rest => simp [PidTable.insert, h e.1 (by simp [keys])]

theorem insert_cons_self (w : α) : PidTable.insert ((pid, w) :: t) pid v = (pid, v) :: t := by
  simp [PidTable.insert]

theorem insert_cons_of_lt {k : Nat} {w : α} (h : k < pid) :
    PidTable.insert ((k, w) :: t) pid v = (k, w) :: t.insert pid v := by
  simp [PidTable.insert, Nat.not_lt.2 h.le, Nat.ne_of_gt h]

@[simp] theorem modify_id : t.modify pid (fun v => v) = t := by
  simp [modify]

end PidTable

namespace Actors

variable {α : Type} (π : Actor → α) {ps : Actors} {pid : Nat} {f : Actor → Actor}

/-- The table that keeps one field of each live process. -/
def table (ps : Actors) : PidTable α :=
  ps.map fun a => (a.pid, π a)

/-- The table of the receives live processes wait in. -/
def pendingTable (ps : Actors) : PidTable PendingReceive :=
  ps.filterMap fun a => a.pending.map (a.pid, ·)

theorem find?_cons (a : Actor) : find? (a :: ps) pid = if a.pid = pid then some a else find? ps pid := by
  by_cases h : a.pid = pid <;> simp [find?, h]

@[simp] theorem table_append (ps qs : Actors) : table π (ps ++ qs) = table π ps ++ table π qs := by
  simp [table]

@[simp] theorem keys_table : (table π ps).keys = ps.map Actor.pid := by
  simp [table, PidTable.keys]

/-- A table finds the field of the first process of a pid. -/
theorem get?_table : (table π ps).get? pid = (ps.find? pid).map π := by
  induction ps with
  | nil => rfl
  | cons a ps ih =>
    by_cases h : a.pid = pid
    · simp [table, PidTable.get?, find?_cons, h]
    · have hne : (pid == a.pid) = false := beq_eq_false_iff_ne.2 (Ne.symm h)
      simpa [table, PidTable.get?, find?_cons, List.lookup, hne, h] using ih

theorem contains_table : (table π ps).contains pid = ps.alive pid := by
  simp [table, PidTable.contains, alive, Function.comp_def]

/-- An update that changes a field of the process of a pid by `g` changes its entry by `g`. -/
theorem table_update {g : α → α}
    (h : ∀ a ∈ ps, a.pid = pid → (f a).pid = a.pid ∧ π (f a) = g (π a)) :
    table π (ps.update pid f) = (table π ps).modify pid g := by
  simp only [table, update, PidTable.modify, List.map_map]
  apply List.map_congr_left
  intro a ha
  by_cases hp : a.pid = pid
  · simp [hp, (h a ha hp).1 ▸ hp, (h a ha hp).2]
  · simp [hp]

/-- An update that keeps a field leaves its table alone. -/
theorem table_update_of_eq (h : ∀ a ∈ ps, a.pid = pid → (f a).pid = a.pid ∧ π (f a) = π a) :
    table π (ps.update pid f) = table π ps := by
  rw [table_update π (g := id) (by simpa using h)]
  simp [PidTable.modify]

theorem table_filter : table π (ps.filter (·.pid != pid)) = (table π ps).erase pid := by
  simp [table, PidTable.erase, List.filter_map, Function.comp_def]

/-- A map that keeps pids and a field leaves its table alone. -/
theorem table_map_of_eq (h : ∀ a ∈ ps, (f a).pid = a.pid ∧ π (f a) = π a) :
    table π (ps.map f) = table π ps := by
  simp only [table, List.map_map]
  apply List.map_congr_left
  intro a ha
  simp [(h a ha).1, (h a ha).2]

/-- Inserting the entry of a pid above every pid of the table appends it. -/
theorem insert_table_of_lt {b : Actor} (h : ∀ a ∈ ps, a.pid < b.pid) :
    (table π ps).insert b.pid (π b) = table π (ps ++ [b]) := by
  induction ps with
  | nil => rfl
  | cons a ps ih =>
    have ha : a.pid < b.pid := h a List.mem_cons_self
    simp only [table, List.map_cons, List.cons_append, List.map_append, List.map_nil,
      PidTable.insert, Nat.not_lt.2 (Nat.le_of_lt ha), if_false, Nat.ne_of_gt ha] at ih ⊢
    rw [ih fun a' ha' => h a' (List.mem_cons_of_mem _ ha')]

/-! ## The table of pending receives -/

theorem pendingTable_cons (a : Actor) (ps : Actors) :
    pendingTable (a :: ps) = (a.pending.map (a.pid, ·)).toList ++ pendingTable ps := by
  cases h : a.pending <;> simp [pendingTable, h]

@[simp] theorem pendingTable_append (ps qs : Actors) :
    pendingTable (ps ++ qs) = pendingTable ps ++ pendingTable qs := by
  simp [pendingTable]

theorem keys_pendingTable_sublist : (pendingTable ps).keys.Sublist (ps.map Actor.pid) := by
  induction ps with
  | nil => exact List.Sublist.slnil
  | cons a ps ih =>
    cases hp : a.pending with
    | none => simpa [pendingTable, PidTable.keys, hp] using ih.cons a.pid
    | some pr => simpa [pendingTable, PidTable.keys, hp] using ih.cons_cons a.pid

/-- With distinct pids, the table finds the receive the process of a pid waits in. -/
theorem get?_pendingTable (hnd : (ps.map Actor.pid).Nodup) :
    (pendingTable ps).get? pid = (ps.find? pid).bind (·.pending) := by
  induction ps with
  | nil => rfl
  | cons a ps ih =>
    have hnd' := List.nodup_cons.1 hnd
    by_cases h : a.pid = pid
    · subst h
      -- no later process has the pid, so only this one's entry can be found
      have hrest : (pendingTable ps).get? a.pid = none := by
        rw [ih hnd'.2]
        cases hf : find? ps a.pid with
        | none => rfl
        | some b =>
          exact absurd (pid_of_find? hf ▸ List.mem_map_of_mem (mem_of_find? hf)) hnd'.1
      cases hp : a.pending with
      | none => simpa [pendingTable, find?_cons, hp] using hrest
      | some pr => simp [pendingTable, PidTable.get?, find?_cons, hp]
    · have hne : (pid == a.pid) = false := beq_eq_false_iff_ne.2 (Ne.symm h)
      have := ih hnd'.2
      cases hp : a.pending <;>
        simpa [pendingTable, PidTable.get?, find?_cons, List.lookup, hne, h, hp] using this

/-- An update that keeps the pending receive leaves the table alone. -/
theorem pendingTable_update_of_eq
    (h : ∀ a ∈ ps, a.pid = pid → (f a).pid = a.pid ∧ (f a).pending = a.pending) :
    pendingTable (ps.update pid f) = pendingTable ps := by
  simp only [pendingTable, update, List.filterMap_map]
  apply List.filterMap_congr
  intro a ha
  by_cases hp : a.pid = pid
  · simp [hp, (h a ha hp).1 ▸ hp, (h a ha hp).2]
  · simp [hp]

/-- An update that ends the wait of the process of a pid removes its entry. -/
theorem pendingTable_update_of_none
    (h : ∀ a ∈ ps, a.pid = pid → (f a).pid = a.pid ∧ (f a).pending = none) :
    pendingTable (ps.update pid f) = (pendingTable ps).erase pid := by
  simp only [pendingTable, update, PidTable.erase]
  rw [List.filter_filterMap, List.filterMap_map]
  apply List.filterMap_congr
  intro a ha
  by_cases hp : a.pid = pid
  · cases a.pending <;> simp [hp, (h a ha hp).2, Option.filter_some]
  · cases hpa : a.pending <;> simp [hp, hpa, Option.filter_some]

theorem pendingTable_filter : pendingTable (ps.filter (·.pid != pid)) = (pendingTable ps).erase pid := by
  simp only [pendingTable, PidTable.erase]
  rw [List.filter_filterMap, List.filterMap_filter]
  apply List.filterMap_congr
  intro a _
  cases a.pending <;> by_cases hp : a.pid = pid <;> simp [hp, Option.filter_some]

theorem pendingTable_map_of_eq (h : ∀ a ∈ ps, (f a).pid = a.pid ∧ (f a).pending = a.pending) :
    pendingTable (ps.map f) = pendingTable ps := by
  simp only [pendingTable, List.filterMap_map]
  apply List.filterMap_congr
  intro a ha
  simp [(h a ha).1, (h a ha).2]

/-- In ascending order of pid, an update that makes the process of a live pid wait in a receive
inserts its entry. -/
theorem pendingTable_update_of_some {pr : PendingReceive}
    (hasc : (ps.map Actor.pid).Pairwise (· < ·)) (hlive : pid ∈ ps.map Actor.pid)
    (h : ∀ a ∈ ps, a.pid = pid → (f a).pid = a.pid ∧ (f a).pending = some pr) :
    pendingTable (ps.update pid f) = (pendingTable ps).insert pid pr := by
  induction ps with
  | nil => cases hlive
  | cons a ps ih =>
    have hasc' := List.pairwise_cons.1 hasc
    by_cases hp : a.pid = pid
    · subst hp
      -- every later pid is above, so the rest is left alone and the entry goes first
      have hrest : update ps a.pid f = ps := by
        simp only [update]
        conv_rhs => rw [← List.map_id ps]
        apply List.map_congr_left
        intro b hb
        simp [Nat.ne_of_gt (hasc'.1 b.pid (List.mem_map_of_mem hb))]
      have hlt : ∀ k ∈ (pendingTable ps).keys, a.pid < k := fun k hk =>
        hasc'.1 k (keys_pendingTable_sublist.subset hk)
      have hfa := h a List.mem_cons_self rfl
      have hcons : update (a :: ps) a.pid f = f a :: ps := by
        simp only [update, List.map_cons, if_pos]
        exact congrArg _ hrest
      rw [hcons, pendingTable_cons, pendingTable_cons, hfa.1, hfa.2]
      cases a.pending with
      | none => simp [PidTable.insert_of_lt_keys hlt]
      | some _ => simp [PidTable.insert_cons_self]
    · have hlive' : pid ∈ ps.map Actor.pid := by
        simp only [List.map_cons, List.mem_cons] at hlive
        exact hlive.resolve_left (Ne.symm hp)
      have hlt : a.pid < pid := hasc'.1 pid hlive'
      have hcons : update (a :: ps) pid f = a :: update ps pid f := by
        simp [update, hp]
      have h' : ∀ b ∈ ps, b.pid = pid → (f b).pid = b.pid ∧ (f b).pending = some pr :=
        fun b hb => h b (List.mem_cons_of_mem _ hb)
      rw [hcons, pendingTable_cons, pendingTable_cons, ih hasc'.2 hlive' h']
      cases a.pending with
      | none => rfl
      | some _ => simp [PidTable.insert_cons_of_lt hlt]

end Actors

/-- The registry's bindings as the two maps of the runtime. -/
def Registry.maps (r : Registry) : NameMaps :=
  { names := r.entries, pidNames := r.entries.map fun e => (e.2, e.1) }

namespace Registry

variable {r : Registry} {n : String} {p : Nat} {e : String × Nat}

theorem whereis_maps (r : Registry) (n : String) : r.maps.whereis n = r.whereis n := rfl

theorem nameOf_maps (r : Registry) (p : Nat) : r.maps.nameOf p = r.nameOf p := by
  unfold NameMaps.nameOf nameOf maps
  induction r.entries with
  | nil => rfl
  | cons e rest ih =>
    by_cases h : e.2 = p
    · simp [h]
    · have hne : (p == e.2) = false := beq_eq_false_iff_ne.2 (Ne.symm h)
      simpa [List.lookup, hne, h] using ih

theorem registered_maps (r : Registry) : r.maps.registered = r.registered := rfl

/-- In a well-formed registry, a binding shares its name with another exactly when it shares
its pid: each is bound at most once. -/
theorem Wf.fst_eq_iff (h : r.Wf) (hnp : (n, p) ∈ r.entries) (he : e ∈ r.entries) :
    e.1 = n ↔ e.2 = p := by
  obtain ⟨m, q⟩ := e
  constructor
  · rintro rfl
    have h₁ := (whereis_eq_some_iff h).2 he
    rw [(whereis_eq_some_iff h).2 hnp] at h₁
    exact (Option.some.inj h₁).symm
  · rintro rfl
    have h₁ := (nameOf_eq_some_iff h).2 he
    rw [(nameOf_eq_some_iff h).2 hnp] at h₁
    exact (Option.some.inj h₁).symm

theorem register_maps (r : Registry) (n : String) (p : Nat) :
    (r.register n p).map maps = r.maps.register n p := by
  unfold register NameMaps.register
  rw [whereis_maps, nameOf_maps]
  cases r.whereis n <;> cases r.nameOf p <;> simp [Except.map, maps]

/-- Removing a name from the list removes the name from the first map and its pid from the
second, as the runtime does, when each name and pid is bound once. -/
theorem unregister_maps (h : r.Wf) (n : String) :
    Prod.map id maps (r.unregister n) = r.maps.unregister n := by
  unfold unregister NameMaps.unregister
  rw [whereis_maps]
  cases hw : r.whereis n with
  | none => rfl
  | some p =>
    have hnp := (whereis_eq_some_iff h).1 hw
    simp only [Prod.map, id, maps, List.filter_map, Prod.mk.injEq, NameMaps.mk.injEq, true_and]
    congr 1
    apply List.filter_congr
    intro e he
    rw [Bool.eq_iff_iff]
    simp only [bne_iff_ne, ne_eq, Function.comp_apply]
    exact not_congr (h.fst_eq_iff hnp he)

/-- Removing the name of a pid from the list is what the runtime does through its reverse map,
when each name and pid is bound once. -/
theorem cleanup_maps (h : r.Wf) (p : Nat) : (r.cleanup p).maps = r.maps.cleanup p := by
  unfold cleanup NameMaps.cleanup
  rw [nameOf_maps]
  cases hn : r.nameOf p with
  | none =>
    have hno := nameOf_eq_none_iff.1 hn
    have hkeep : r.entries.filter (·.2 != p) = r.entries :=
      List.filter_eq_self.2 fun e he => by
        simp only [bne_iff_ne, ne_eq]
        intro hp
        exact hno (hp ▸ List.mem_map_of_mem (f := Prod.snd) he)
    simp [maps, hkeep]
  | some n =>
    have hnp := (nameOf_eq_some_iff h).1 hn
    simp only [Registry.maps, List.filter_map, NameMaps.mk.injEq]
    refine ⟨List.filter_congr fun e he => ?_, rfl⟩
    rw [Bool.eq_iff_iff]
    simp only [bne_iff_ne, ne_eq]
    exact not_congr (h.fst_eq_iff hnp he).symm

end Registry

namespace Tables

/-- A release of a live process, with the state before its observers are told named `t₁`: the
process has left every table, with its timer, the monitors it held or that were on it, and its
name. -/
theorem release_of_get? {t : Tables} {pid : Nat} {p : Process} (h : t.processes.get? pid = some p)
    (r : ExitReason) (t₁ : Tables)
    (h₁ : t₁ = { t with processes := t.processes.erase pid, queues := t.queues.erase pid,
                        timers := match (t.receiving.get? pid).bind (·.timeout) with
                          | some id => t.timers.cancel id
                          | none => t.timers,
                        receiving := t.receiving.erase pid, coroutines := t.coroutines.erase pid,
                        registry := t.registry.cleanup pid,
                        monitors := ((p.monitors.foldl (fun m r => (m.remove r).2) t.monitors).takeObserving pid).2 }) :
    t.release pid r =
      (let t₂ := ((p.monitors.foldl (fun m r => (m.remove r).2) t.monitors).takeObserving pid).1.foldl
          (sendDown pid r) t₁
       ({ t₂ with processes := p.links.foldl (fun ps other =>
            ps.modify other fun o => { o with links := o.links.erase pid }) t₂.processes,
                  exited := t₂.exited ++ [(pid, r)] },
        p.links.map fun other => ⟨some pid, other, r⟩)) := by
  subst h₁
  cases hb : (t.receiving.get? pid).bind (·.timeout) <;> simp [release, h, hb]

end Tables

namespace System

variable {s : System} {pid : Nat} {a : Actor} {f : Actor → Actor}

/-- The tables of a system: each live process has an entry in the tables of control blocks, of
coroutines and of queues, and one in the table of receives when it waits in a receive. -/
def tables (s : System) : Tables where
  config := s.config
  allocateStack := s.allocateStack
  now := s.now
  nextPid := s.nextPid
  nextRef := s.nextRef
  nextToken := s.nextToken
  processes := s.actors.table Actor.process
  coroutines := s.actors.table Actor.cont
  queues := s.actors.table Actor.queue
  receiving := s.actors.pendingTable
  registry := s.registry.maps
  monitors := s.monitors
  timers := s.timers
  exited := s.exited
  trace := s.trace

/-- The live processes are in ascending order of pid, and the registry binds each name and each
pid at most once: what the tables need of a state to follow it. -/
structure Ordered (s : System) : Prop where
  ascending : (s.actors.map Actor.pid).Pairwise (· < ·)
  registry : s.registry.Wf

/-- An operation that keeps the live pids and the registry, or drops some of each, keeps the
order. -/
theorem Ordered.of_sublist {s' : System} (h : s.Ordered)
    (hp : (s'.actors.map Actor.pid).Sublist (s.actors.map Actor.pid))
    (hr : s'.registry.entries.Sublist s.registry.entries) : s'.Ordered :=
  ⟨h.ascending.sublist hp, h.registry.sublist hr⟩

theorem Ordered.update (h : s.Ordered) (hpid : ∀ a, (f a).pid = a.pid) : (s.update pid f).Ordered :=
  h.of_sublist (by rw [pids_update fun a ha => (hpid a).trans ha]) (List.Sublist.refl _)

theorem Ordered.stable : Stable Ordered where
  update _ _ _ hpid _ _ h := h.update hpid
  quiet _ _ hact _ _ hreg _ _ h := h.of_sublist (by rw [hact]) (by rw [hreg])
  spawn s body hw h := by
    simp only [System.spawn]
    split
    · -- the new pid is above every live one
      refine ⟨?_, h.registry⟩
      rw [List.map_append, List.pairwise_append]
      refine ⟨h.ascending, List.pairwise_singleton _ _, ?_⟩
      intro x hx y hy
      obtain ⟨b, hb, rfl⟩ := List.mem_map.1 hx
      rw [List.map_singleton, List.mem_singleton] at hy
      rw [hy]
      exact Nat.lt_succ_of_le (hw.pid_le b hb)
    · exact ⟨h.ascending, h.registry⟩
  release s pid r _ h := by
    cases hf : s.find? pid with
    | none => rwa [release_of_find?_none hf]
    | some a =>
      refine h.of_sublist ?_ ?_
      · rw [pids_release hf]
        exact List.filter_sublist
      · rw [registry_release hf]
        exact List.filter_sublist
  demonitor s ref _ h := by
    rw [demonitor_eq]
    split
    · exact Ordered.update ⟨h.ascending, h.registry⟩ fun _ => rfl
    · exact h
  register s s' name pid _ hs h := by
    obtain ⟨-, reg, hr, rfl⟩ := register_eq_ok.1 hs
    exact ⟨h.ascending, h.registry.register hr⟩
  unregister s name _ h := ⟨h.ascending, h.registry.sublist (Registry.unregister_sublist name)⟩
  makeRef _ _ h := ⟨h.ascending, h.registry⟩
  monitor s observer observed _ h := by
    rw [monitor_eq]
    split
    · exact Ordered.update ⟨h.ascending, h.registry⟩ fun _ => rfl
    · exact Ordered.update ⟨h.ascending, h.registry⟩ fun _ => rfl

theorem Reachable.ordered (hs : s.Reachable) : s.Ordered :=
  Ordered.stable.reachable (fun _ _ => ⟨by simp [createOn], Registry.Wf.empty⟩) hs

/-! ## Reading the tables -/

theorem get?_processes : s.tables.processes.get? pid = (s.find? pid).map Actor.process :=
  Actors.get?_table _

theorem get?_coroutines : s.tables.coroutines.get? pid = (s.find? pid).map Actor.cont :=
  Actors.get?_table _

theorem get?_queues : s.tables.queues.get? pid = (s.find? pid).map Actor.queue :=
  Actors.get?_table _

theorem get?_receiving (hw : s.Wf) : s.tables.receiving.get? pid = (s.find? pid).bind (·.pending) :=
  Actors.get?_pendingTable hw.nodup

theorem isAlive_tables : s.tables.isAlive pid = s.alive pid :=
  Actors.contains_table _

theorem status_tables : s.tables.status pid = (s.find? pid).map (·.status) := by
  simp [Tables.status, get?_processes, Option.map_map, Function.comp_def, Actor.process]

theorem tables_setTimers (v : System) (q : TimerQueue) :
    ({ v with timers := q } : System).tables = { v.tables with timers := q } := rfl

theorem tables_createOn (c : Config) (allocate : StackAllocation) :
    (System.createOn c allocate).tables = Tables.createOn c allocate := rfl

/-! ## One operation at a time -/

/-- An update that changes only the control block of its process, by `g`, changes only its
entry in the table of control blocks. -/
theorem tables_update_process (g : Process → Process)
    (hf : ∀ b ∈ s.actors, b.pid = pid → (f b).pid = b.pid ∧ (f b).process = g b.process ∧
      (f b).cont = b.cont ∧ (f b).queue = b.queue ∧ (f b).pending = b.pending) :
    (s.update pid f).tables = { s.tables with processes := s.tables.processes.modify pid g } := by
  simp only [tables, System.update]
  congr 1
  · exact Actors.table_update _ fun b hb hbp => ⟨(hf b hb hbp).1, (hf b hb hbp).2.1⟩
  · exact Actors.table_update_of_eq _ fun b hb hbp => ⟨(hf b hb hbp).1, (hf b hb hbp).2.2.1⟩
  · exact Actors.table_update_of_eq _ fun b hb hbp => ⟨(hf b hb hbp).1, (hf b hb hbp).2.2.2.1⟩
  · exact Actors.pendingTable_update_of_eq fun b hb hbp => ⟨(hf b hb hbp).1, (hf b hb hbp).2.2.2.2⟩

/-- An update that changes only the queue of its process, by `g`, changes only its entry in the
table of queues. -/
theorem tables_update_queue (g : List Task → List Task)
    (hf : ∀ b ∈ s.actors, b.pid = pid → (f b).pid = b.pid ∧ (f b).process = b.process ∧
      (f b).cont = b.cont ∧ (f b).queue = g b.queue ∧ (f b).pending = b.pending) :
    (s.update pid f).tables = { s.tables with queues := s.tables.queues.modify pid g } := by
  simp only [tables, System.update]
  congr 1
  · exact Actors.table_update_of_eq _ fun b hb hbp => ⟨(hf b hb hbp).1, (hf b hb hbp).2.1⟩
  · exact Actors.table_update_of_eq _ fun b hb hbp => ⟨(hf b hb hbp).1, (hf b hb hbp).2.2.1⟩
  · exact Actors.table_update _ fun b hb hbp => ⟨(hf b hb hbp).1, (hf b hb hbp).2.2.2.1⟩
  · exact Actors.pendingTable_update_of_eq fun b hb hbp => ⟨(hf b hb hbp).1, (hf b hb hbp).2.2.2.2⟩

/-- An update that changes only the continuation of its process, by `g`, changes only its entry
in the table of coroutines. -/
theorem tables_update_cont (g : (Reply → Program) → Reply → Program)
    (hf : ∀ b ∈ s.actors, b.pid = pid → (f b).pid = b.pid ∧ (f b).process = b.process ∧
      (f b).cont = g b.cont ∧ (f b).queue = b.queue ∧ (f b).pending = b.pending) :
    (s.update pid f).tables = { s.tables with coroutines := s.tables.coroutines.modify pid g } := by
  simp only [tables, System.update]
  congr 1
  · exact Actors.table_update_of_eq _ fun b hb hbp => ⟨(hf b hb hbp).1, (hf b hb hbp).2.1⟩
  · exact Actors.table_update _ fun b hb hbp => ⟨(hf b hb hbp).1, (hf b hb hbp).2.2.1⟩
  · exact Actors.table_update_of_eq _ fun b hb hbp => ⟨(hf b hb hbp).1, (hf b hb hbp).2.2.2.1⟩
  · exact Actors.pendingTable_update_of_eq fun b hb hbp => ⟨(hf b hb hbp).1, (hf b hb hbp).2.2.2.2⟩

/-- An update that makes a live process wait in a receive, changing its control block by `g`,
inserts its entry in the table of receives. -/
theorem tables_update_wait (ho : s.Ordered) (hlive : s.alive pid = true) (g : Process → Process)
    (pr : PendingReceive)
    (hf : ∀ b ∈ s.actors, b.pid = pid → (f b).pid = b.pid ∧ (f b).process = g b.process ∧
      (f b).cont = b.cont ∧ (f b).queue = b.queue ∧ (f b).pending = some pr) :
    (s.update pid f).tables =
      { s.tables with processes := s.tables.processes.modify pid g,
                      receiving := s.tables.receiving.insert pid pr } := by
  simp only [tables, System.update]
  congr 1
  · exact Actors.table_update _ fun b hb hbp => ⟨(hf b hb hbp).1, (hf b hb hbp).2.1⟩
  · exact Actors.table_update_of_eq _ fun b hb hbp => ⟨(hf b hb hbp).1, (hf b hb hbp).2.2.1⟩
  · exact Actors.table_update_of_eq _ fun b hb hbp => ⟨(hf b hb hbp).1, (hf b hb hbp).2.2.2.1⟩
  · exact Actors.pendingTable_update_of_some ho.ascending (alive_iff_mem_pids.1 hlive)
      fun b hb hbp => ⟨(hf b hb hbp).1, (hf b hb hbp).2.2.2.2⟩

/-- An update that ends the wait of a process, changing its control block by `g`, removes its
entry from the table of receives. -/
theorem tables_update_settle (g : Process → Process)
    (hf : ∀ b ∈ s.actors, b.pid = pid → (f b).pid = b.pid ∧ (f b).process = g b.process ∧
      (f b).cont = b.cont ∧ (f b).queue = b.queue ∧ (f b).pending = none) :
    (s.update pid f).tables =
      { s.tables with processes := s.tables.processes.modify pid g,
                      receiving := s.tables.receiving.erase pid } := by
  simp only [tables, System.update]
  congr 1
  · exact Actors.table_update _ fun b hb hbp => ⟨(hf b hb hbp).1, (hf b hb hbp).2.1⟩
  · exact Actors.table_update_of_eq _ fun b hb hbp => ⟨(hf b hb hbp).1, (hf b hb hbp).2.2.1⟩
  · exact Actors.table_update_of_eq _ fun b hb hbp => ⟨(hf b hb hbp).1, (hf b hb hbp).2.2.2.1⟩
  · exact Actors.pendingTable_update_of_none fun b hb hbp => ⟨(hf b hb hbp).1, (hf b hb hbp).2.2.2.2⟩

theorem tables_enqueue (pid : Nat) (t : Task) : (s.enqueue pid t).tables = s.tables.enqueue pid t :=
  tables_update_queue _ fun _ _ _ => ⟨rfl, rfl, rfl, rfl, rfl⟩

theorem tables_deliver (hnd : (s.actors.map Actor.pid).Nodup) (pid : Nat) (m : Term) :
    (s.deliver pid m).tables = s.tables.deliver pid m := by
  unfold Tables.deliver
  rw [get?_processes]
  cases hf : s.find? pid with
  | none =>
    rw [deliver, update_of_find?_none hf]
    rfl
  | some a =>
    -- the process found is the only one of its pid, so its status decides the retry
    have hsame : ∀ b ∈ s.actors, b.pid = pid → b = a := fun b hb hbp =>
      Option.some.inj (((Actors.find?_eq_some_iff hnd).2 ⟨hb, hbp⟩).symm.trans hf)
    simp only [Option.map_some]
    split
    · rename_i hs
      have hs' : a.status = .suspended := hs
      simp only [tables, deliver, System.update, Tables.enqueue]
      congr 1
      · exact Actors.table_update _ fun _ _ _ => ⟨rfl, rfl⟩
      · exact Actors.table_update_of_eq _ fun _ _ _ => ⟨rfl, rfl⟩
      · exact Actors.table_update _ fun b hb hbp => ⟨rfl, by simp [hsame b hb hbp, Actor.deliver, hs']⟩
      · exact Actors.pendingTable_update_of_eq fun _ _ _ => ⟨rfl, rfl⟩
    · rename_i hs
      have hs' : a.status ≠ .suspended := hs
      exact tables_update_process _ fun b hb hbp =>
        ⟨rfl, rfl, rfl, by simp [hsame b hb hbp, Actor.deliver, hs'], rfl⟩

theorem tables_resolve (d : Dest) : s.tables.resolve d = s.resolve d := by
  cases d <;> rfl

theorem tables_send (hw : s.Wf) (d : Dest) (m : Term) :
    (s.send d m).map tables = s.tables.send d m := by
  unfold send Tables.send
  rw [tables_resolve]
  cases s.resolve d with
  | error e => rfl
  | ok p => exact congrArg Except.ok (tables_deliver hw.nodup p m)

theorem tables_sendAfter (pid : Nat) (m : Term) (after : Nat) :
    (s.sendAfter pid m after).tables = s.tables.sendAfter pid m after := rfl

theorem tables_makeRef : Prod.map id tables s.makeRef = s.tables.makeRef := rfl

theorem tables_unlink (a b : Nat) : (s.unlink a b).tables = s.tables.unlink a b := by
  rw [unlink_eq, tables_update_process (fun p => { p with links := p.links.erase a }) ?_,
    tables_update_process (fun p => { p with links := p.links.erase b }) ?_]
  · rfl
  all_goals exact fun _ _ _ => ⟨rfl, rfl, rfl, rfl, rfl⟩

theorem tables_monitor (hw : s.Wf) (observer observed : Nat) :
    Prod.map id tables (s.monitor observer observed) = s.tables.monitor observer observed := by
  have hal : s.tables.processes.contains observed = s.alive observed := isAlive_tables
  rw [monitor_eq]
  simp only [Tables.monitor, Tables.makeRef, Tables.isAlive, hal]
  by_cases h : s.alive observed
  · simp only [h, ↓reduceIte, Prod.map, id]
    rw [tables_update_process (fun p => { p with monitors := insertAscending (s.nextRef + 1) p.monitors }) ?_]
    · rfl
    · exact fun _ _ _ => ⟨rfl, rfl, rfl, rfl, rfl⟩
  · simp only [h, Bool.false_eq_true, ↓reduceIte, Prod.map, id]
    rw [tables_deliver (s := { s with nextRef := s.nextRef + 1 }) hw.nodup]
    rfl

theorem tables_demonitor (ref : Nat) :
    Prod.map id tables (s.demonitor ref) = s.tables.demonitor ref := by
  rw [demonitor_eq]
  unfold Tables.demonitor MonitorTable.remove
  rw [show s.tables.monitors = s.monitors from rfl]
  cases s.monitors.get? ref with
  | none => rfl
  | some m =>
    simp only [Prod.map, id]
    rw [tables_update_process (fun p => { p with monitors := p.monitors.erase ref }) ?_]
    · rfl
    · exact fun _ _ _ => ⟨rfl, rfl, rfl, rfl, rfl⟩

theorem tables_spawn (hw : s.Wf) (body : Nat → Program) :
    Prod.map id tables (s.spawn body) = s.tables.spawn body := by
  -- the new pid is above every live one, so inserting it appends it
  let b : Actor := { pid := s.nextPid + 1, queue := [.resume .start], cont := fun _ => body (s.nextPid + 1) }
  have hlt : ∀ a ∈ s.actors, a.pid < b.pid := fun a ha => Nat.lt_succ_of_le (hw.pid_le a ha)
  unfold System.spawn Tables.spawn
  dsimp only
  rw [show s.tables.allocateStack = s.allocateStack from rfl, show s.tables.config = s.config from rfl,
    show s.tables.nextPid = s.nextPid from rfl]
  cases h : s.allocateStack (s.nextPid + 1) s.config.stackSize with
  | none =>
    simp only [Prod.map, id, tables]
    congr 2
    · exact (Actors.insert_table_of_lt _ hlt).symm
    · exact (Actors.insert_table_of_lt _ hlt).symm
    · exact (Actors.insert_table_of_lt _ hlt).symm
    · simp [Actors.pendingTable]
  | some text => rfl

theorem tables_register (n : String) (pid : Nat) :
    (s.register n pid).map tables = s.tables.register n pid := by
  unfold System.register Tables.register
  rw [isAlive_tables]
  by_cases h : s.alive pid
  · simp only [h, ↓reduceIte]
    rw [show s.tables.registry = s.registry.maps from rfl, ← Registry.register_maps]
    cases s.registry.register n pid <;> rfl
  · simp only [h, Bool.false_eq_true, ↓reduceIte]
    rfl

theorem tables_unregister (hr : s.registry.Wf) (n : String) :
    Prod.map id tables (s.unregister n) = s.tables.unregister n := by
  unfold System.unregister Tables.unregister
  rw [show s.tables.registry = s.registry.maps from rfl, ← Registry.unregister_maps hr]
  rfl

theorem tables_processFlag (hw : s.Wf) (pid : Nat) (flag : String) (v : Term) :
    Prod.map id tables (s.processFlag pid flag v) = s.tables.processFlag pid flag v := by
  unfold System.processFlag Tables.processFlag
  rw [get?_processes]
  cases hf : s.find? pid with
  | none => rfl
  | some a =>
    -- the process found is the only one of its pid, so its new record may replace it whole
    have hsame : ∀ b ∈ s.actors, b.pid = pid → b = a := fun b hb hbp => hw.eq_of_find? hf hb hbp
    simp only [Option.map_some, Actor.setFlag, Process.setFlag]
    split
    · simp only [Prod.map, id]
      rw [tables_update_process (fun _ => { a.process with trapExit := v.truthy }) ?_]
      · rfl
      · intro b hb hbp
        rw [hsame b hb hbp]
        exact ⟨rfl, rfl, rfl, rfl, rfl⟩
    · simp only [Prod.map, id]
      rw [tables_update_process (fun _ => { a.process with flags := a.flags.insert (.atom flag) v }) ?_]
      · rfl
      · intro b hb hbp
        rw [hsame b hb hbp]
        exact ⟨rfl, rfl, rfl, rfl, rfl⟩

theorem tables_withDictionary {α : Type} (pid : Nat) (g : TermMap → α × TermMap) :
    Prod.map id tables (s.withDictionary pid g) = s.tables.withDictionary pid g := by
  unfold System.withDictionary Tables.withDictionary
  rw [get?_processes]
  cases hf : s.find? pid with
  | none => rfl
  | some a =>
    dsimp only [Option.map_some]
    rw [show a.process.dictionary = a.dictionary from rfl]
    cases g a.dictionary with
    | mk out d =>
    simp only [Prod.map, id]
    rw [tables_update_process (fun p => { p with dictionary := d }) ?_]
    exact fun _ _ _ => ⟨rfl, rfl, rfl, rfl, rfl⟩

theorem tables_popTask (pid : Nat) : (s.popTask pid).map (Prod.map id tables) = s.tables.popTask pid := by
  unfold System.popTask Tables.popTask
  rw [get?_queues]
  cases hf : s.find? pid with
  | none => rfl
  | some a =>
    dsimp only [Option.map_some]
    cases hq : a.queue with
    | nil => rfl
    | cons t rest =>
      simp only [Option.map_some, Prod.map, id]
      rw [tables_update_queue (fun _ => rest) ?_]
      exact fun _ _ _ => ⟨rfl, rfl, rfl, rfl, rfl⟩

/-! ## The end of a process -/

section Release

variable {u : System} {reason : ExitReason}

theorem nodup_update (hnd : (u.actors.map Actor.pid).Nodup) (hpid : ∀ a, (f a).pid = a.pid) :
    ((u.update pid f).actors.map Actor.pid).Nodup := by
  rwa [pids_update fun a ha => (hpid a).trans ha]

/-- The `:DOWN` message of one monitor on an ended process, told to its observer: the reference
leaves the observer's set, and the observer gets the message. -/
def sendDown (pid : Nat) (reason : ExitReason) (u : System) (taken : Nat × Nat) : System :=
  (u.update taken.2 fun o => { o with monitors := o.monitors.erase taken.1 }).deliver taken.2
    (reason.downMessage taken.1 pid)

/-- A process linked to an ended one loses its link. -/
def dropLink (pid : Nat) (u : System) (other : Nat) : System :=
  u.update other fun o => { o with links := o.links.erase pid }

/-- One more taken monitor is one more step of what the end of a process does to its observer. -/
theorem afterExit_cons (a : Actor) (x : Nat × Nat) (rest : List (Nat × Nat)) (o : Actor) :
    afterExit a reason (x :: rest) o =
      if x.2 = o.pid then
        afterExit a reason rest ({ o with monitors := o.monitors.erase x.1 }.deliver (reason.downMessage x.1 a.pid))
      else afterExit a reason rest o := by
  by_cases h : x.2 = o.pid
  · simp only [h, ↓reduceIte]
    simp [afterExit, h, Actor.deliver]
  · simp [afterExit, h]

/-- Telling the observers, one taken monitor after another, is what the end of a process without
links does to every other process. -/
theorem foldl_sendDown (a : Actor) :
    ∀ (taken : List (Nat × Nat)) (u : System),
      taken.foldl (sendDown a.pid reason) u =
        { u with actors := u.actors.map (afterExit { a with links := [] } reason taken) }
  | [], u => by
    have hnone : afterExit { a with links := [] } reason [] = id := by
      funext o
      simp [afterExit]
    simp [hnone]
  | x :: rest, u => by
    rw [List.foldl_cons, foldl_sendDown a rest]
    simp only [sendDown, deliver, System.update, Actors.update, List.map_map]
    congr 2
    funext o
    rw [Function.comp_apply, afterExit_cons]
    by_cases h : o.pid = x.2
    · simp [h]
    · simp [h, Ne.symm h]

/-- Dropping the links to an ended process, one linked process after another. -/
theorem foldl_dropLink (pid : Nat) :
    ∀ (links : List Nat) (u : System), links.Nodup →
      links.foldl (dropLink pid) u =
        { u with actors := u.actors.map fun o =>
          if o.pid ∈ links then { o with links := o.links.erase pid } else o }
  | [], u, _ => by simp
  | x :: rest, u, hnd => by
    rw [List.foldl_cons, foldl_dropLink pid rest _ (List.nodup_cons.1 hnd).2]
    simp only [dropLink, System.update, Actors.update, List.map_map]
    congr 2
    funext o
    by_cases h : o.pid = x
    · -- a pid occurs once among the links, so the link is dropped once
      have hx : x ∉ rest := (List.nodup_cons.1 hnd).1
      simp [h, hx]
    · simp [h]

/-- A release in steps: the process leaves with its timer, the monitors it held or that were on
it, and its name; the observers are told one taken monitor after another; the linked processes
lose their links one after another; the exit is recorded. -/
theorem release_eq_steps {pid : Nat} {a : Actor} (hf : s.find? pid = some a) (hl : a.links.Nodup)
    (r : ExitReason) (u : System)
    (hu : u = { s with actors := s.actors.filter (·.pid != pid),
                       timers := match a.pending.bind (·.timeout) with
                         | some id => s.timers.cancel id
                         | none => s.timers,
                       monitors := ((a.monitors.foldl (fun t r => (t.remove r).2) s.monitors).takeObserving pid).2,
                       registry := s.registry.cleanup pid }) :
    s.release pid r =
      (let v := a.links.foldl (dropLink pid)
          (((a.monitors.foldl (fun t r => (t.remove r).2) s.monitors).takeObserving pid).1.foldl
            (sendDown pid r) u)
       ({ v with exited := v.exited ++ [(pid, r)] }, a.links.map fun other => ⟨some pid, other, r⟩)) := by
  have hp : a.pid = pid := Actors.pid_of_find? hf
  subst hu
  rw [release_of_find? hf, ← hp, foldl_sendDown a, foldl_dropLink a.pid _ _ hl]
  simp only [List.map_map, Prod.mk.injEq, and_true]
  congr 2
  funext o
  simp [afterExit]

theorem tables_sendDown (hnd : (u.actors.map Actor.pid).Nodup) (pid : Nat) (x : Nat × Nat) :
    (u.sendDown pid reason x).tables = u.tables.sendDown pid reason x := by
  obtain ⟨ref, observer⟩ := x
  have hnd' : ((u.update observer fun o => { o with monitors := o.monitors.erase ref }).actors.map
      Actor.pid).Nodup := nodup_update hnd fun _ => rfl
  unfold sendDown Tables.sendDown
  dsimp only
  rw [tables_deliver hnd', tables_update_process (fun o => { o with monitors := o.monitors.erase ref }) ?_]
  exact fun _ _ _ => ⟨rfl, rfl, rfl, rfl, rfl⟩

theorem tables_foldl_sendDown (pid : Nat) :
    ∀ (taken : List (Nat × Nat)) (u : System), (u.actors.map Actor.pid).Nodup →
      (taken.foldl (sendDown pid reason) u).tables = taken.foldl (Tables.sendDown pid reason) u.tables
  | [], _, _ => rfl
  | x :: rest, u, hnd => by
    have hnd' : ((u.sendDown pid reason x).actors.map Actor.pid).Nodup :=
      nodup_update (nodup_update hnd fun _ => rfl) fun _ => rfl
    rw [List.foldl_cons, List.foldl_cons, ← tables_sendDown hnd pid x]
    exact tables_foldl_sendDown pid rest _ hnd'

theorem tables_foldl_dropLink (pid : Nat) :
    ∀ (links : List Nat) (u : System), (links.foldl (dropLink pid) u).tables =
      { u.tables with processes := links.foldl (fun ps other =>
          ps.modify other fun o => { o with links := o.links.erase pid }) u.tables.processes }
  | [], _ => rfl
  | x :: rest, u => by
    rw [List.foldl_cons, List.foldl_cons, tables_foldl_dropLink pid rest, dropLink,
      tables_update_process (fun o => { o with links := o.links.erase pid }) ?_]
    exact fun _ _ _ => ⟨rfl, rfl, rfl, rfl, rfl⟩

/-- The release square: ending a process ends it in every table. -/
theorem tables_release (hw : s.Wf) (ho : s.Ordered) (pid : Nat) (r : ExitReason) :
    Prod.map tables id (s.release pid r) = s.tables.release pid r := by
  cases hf : s.find? pid with
  | none =>
    rw [release_of_find?_none hf]
    unfold Tables.release
    rw [get?_processes, hf]
    rfl
  | some a =>
    have hl : a.links.Nodup := links_of_find? hf ▸ hw.nodup_links pid
    let held := a.monitors.foldl (fun t r => (t.remove r).2) s.monitors
    let u : System := { s with actors := s.actors.filter (·.pid != pid),
                               timers := match a.pending.bind (·.timeout) with
                                 | some id => s.timers.cancel id
                                 | none => s.timers,
                               monitors := (held.takeObserving pid).2,
                               registry := s.registry.cleanup pid }
    have hnd : (u.actors.map Actor.pid).Nodup := hw.nodup.sublist (List.filter_sublist.map _)
    rw [release_eq_steps hf hl r u rfl,
      Tables.release_of_get? (p := a.process) (by rw [get?_processes, hf]; rfl) r u.tables ?_]
    · have hexit : ∀ (v : System) (e : List (Nat × ExitReason)),
          ({ v with exited := v.exited ++ e } : System).tables =
            { v.tables with exited := v.tables.exited ++ e } := fun _ _ => rfl
      simp only [Prod.map, id]
      rw [hexit, tables_foldl_dropLink, tables_foldl_sendDown pid _ u hnd]
      rfl
    · -- the state before the observers are told, table by table
      have hrecv : s.actors.pendingTable.get? pid = a.pending := by
        rw [Actors.get?_pendingTable hw.nodup]
        exact congrArg (Option.bind · Actor.pending) hf
      simp only [tables, u, hrecv]
      congr 1
      · exact Actors.table_filter _
      · exact Actors.table_filter _
      · exact Actors.table_filter _
      · exact Actors.pendingTable_filter
      · exact Registry.cleanup_maps ho.registry pid

end Release

/-! ## Exit signals and links -/

theorem Ordered.guarded : Guarded Ordered :=
  Ordered.stable.toGuarded

theorem tables_propagate : ∀ (s : System) (signals : List Signal), s.Wf → s.Ordered →
    (s.propagate signals).tables = s.tables.propagate signals := by
  intro s signals
  induction s, signals using System.propagate.induct with
  | case1 s =>
    intro _ _
    rw [System.propagate, Tables.propagate]
  | case2 s sg rest hf ih =>
    intro hw ho
    rw [System.propagate, hf, Tables.propagate, get?_processes, hf]
    exact ih hw ho
  | case3 s sg rest a hf hact ih =>
    intro hw ho
    rw [System.propagate, hf, Tables.propagate, get?_processes, hf]
    simp only [Option.map_some, show a.process.trapExit = a.trapExit from rfl, hact]
    rw [← tables_deliver hw.nodup]
    exact ih (hw.deliver _ _) (Ordered.guarded.deliver ho _ _)
  | case4 s sg rest a hf r hact ih =>
    intro hw ho
    rw [System.propagate, hf, Tables.propagate, get?_processes, hf]
    simp only [Option.map_some, show a.process.trapExit = a.trapExit from rfl, hact]
    rw [← tables_release hw ho]
    exact ih (hw.release _ _) (Ordered.guarded.release _ _ _ hw ho)

theorem tables_terminate (hw : s.Wf) (ho : s.Ordered) (pid : Nat) (r : ExitReason) :
    (s.terminate pid r).tables = s.tables.terminate pid r := by
  unfold terminate Tables.terminate
  rw [← tables_release hw ho]
  exact tables_propagate _ _ (hw.release _ _) (Ordered.guarded.release _ _ _ hw ho)

theorem tables_signalExit (hw : s.Wf) (ho : s.Ordered) (sender : Option Nat) (target : Nat)
    (r : ExitReason) : (s.signalExit sender target r).tables = s.tables.signalExit sender target r :=
  tables_propagate _ _ hw ho

theorem tables_link (hw : s.Wf) (ho : s.Ordered) (a b : Nat) : (s.link a b).tables = s.tables.link a b := by
  unfold System.link Tables.link
  rw [isAlive_tables, isAlive_tables]
  cases s.alive a <;> cases s.alive b
  · rfl
  · exact tables_signalExit hw ho _ _ _
  · exact tables_signalExit hw ho _ _ _
  · dsimp only
    by_cases hab : a = b
    · subst hab
      simp [Actors.link, linkProcesses]
    · rw [linkActors_eq hab, tables_update_process (fun p => { p with links := insertAscending a p.links }) ?_,
        tables_update_process (fun p => { p with links := insertAscending b p.links }) ?_]
      · simp [linkProcesses, hab]
      all_goals exact fun _ _ _ => ⟨rfl, rfl, rfl, rfl, rfl⟩

/-! ## Requests, receives and resumes -/

theorem tables_beginReceive (hw : s.Wf) (ho : s.Ordered) (pid : Nat) (clauses : List Clause)
    (deadline : Option Nat) :
    Prod.map id tables (s.beginReceive pid clauses deadline) = s.tables.beginReceive pid clauses deadline := by
  unfold System.beginReceive Tables.beginReceive
  rw [get?_processes]
  cases hf : s.find? pid with
  | none => rfl
  | some a =>
    have hlive : s.alive pid = true := alive_iff.2 ⟨a, hf⟩
    dsimp only [Option.map_some]
    rw [show a.process.mailbox = a.mailbox from rfl]
    cases selectMessage a.mailbox clauses with
    | error e =>
      simp only [Prod.map, id]
      rw [tables_terminate hw ho]
    | ok o =>
      cases o with
      | some rm =>
        obtain ⟨r, mb⟩ := rm
        simp only [Prod.map, id]
        rw [tables_update_process (fun p => { p with mailbox := mb }) ?_]
        exact fun _ _ _ => ⟨rfl, rfl, rfl, rfl, rfl⟩
      | none =>
        dsimp only
        rw [show s.tables.now = s.now from rfl]
        split
        · rfl
        · -- the process waits, with a fresh token and perhaps a timer
          simp only [Prod.map, id]
          rw [tables_update_wait ?ho ?hlive (fun p => { p with status := .suspended }) _ ?hf]
          case ho => exact ⟨ho.1, ho.2⟩
          case hlive => exact hlive
          case hf => exact fun _ _ _ => ⟨rfl, rfl, rfl, rfl, rfl⟩
          rfl

theorem tables_pids : s.tables.pids = s.pids :=
  Actors.keys_table _

theorem tables_handle (hw : s.Wf) (ho : s.Ordered) (pid : Nat) (req : Request) :
    Prod.map id tables (s.handle pid req) = s.tables.handle pid req := by
  cases req with
  | spawn body link monitor =>
    have hw₁ := hw.spawn body
    have ho₁ := Ordered.guarded.spawn s body hw ho
    rw [System.handle, Tables.handle, ← tables_spawn hw body]
    generalize s.spawn body = m at hw₁ ho₁ ⊢
    obtain ⟨child, s₁⟩ := m
    dsimp only [Prod.map, id] at hw₁ ho₁ ⊢
    -- a link on request, then perhaps a monitor of the child
    have h₂ : (if link = true then s₁.link pid child else s₁).tables =
        if link = true then s₁.tables.link pid child else s₁.tables := by
      split
      · exact tables_link hw₁ ho₁ _ _
      · rfl
    have hw₂ : (if link = true then s₁.link pid child else s₁).Wf := by
      split
      · exact hw₁.link _ _
      · exact hw₁
    rw [← h₂]
    generalize (if link = true then s₁.link pid child else s₁) = s₂ at hw₂ ⊢
    split
    · rw [← tables_monitor hw₂]
      rfl
    · rfl
  | send dest msg =>
    rw [System.handle, Tables.handle, ← tables_send hw]
    cases s.send dest msg <;> rfl
  | receive clauses after =>
    rw [System.handle, Tables.handle, ← tables_beginReceive hw ho]
    rfl
  | sleep ms =>
    have h₁ := tables_update_process (s := s) (f := fun a => { a with status := .sleeping })
      (fun p => { p with status := .sleeping }) fun _ _ (_ : _ = pid) => ⟨rfl, rfl, rfl, rfl, rfl⟩
    rw [System.handle, Tables.handle]
    simp only [Prod.map, id]
    rw [tables_setTimers, h₁]
    rfl
  | link other =>
    rw [System.handle, Tables.handle, ← tables_link hw ho]
    rfl
  | unlink other =>
    rw [System.handle, Tables.handle, ← tables_unlink]
    rfl
  | monitor other =>
    rw [System.handle, Tables.handle, ← tables_monitor hw]
    rfl
  | demonitor ref =>
    rw [System.handle, Tables.handle, ← tables_demonitor]
    rfl
  | exit target reason =>
    rw [System.handle, Tables.handle, ← tables_signalExit hw ho]
    rfl
  | register name =>
    rw [System.handle, Tables.handle, ← tables_register]
    cases s.register name pid <;> rfl
  | unregister name =>
    rw [System.handle, Tables.handle, ← tables_unregister ho.registry]
    rfl
  | processFlag flag value =>
    rw [System.handle, Tables.handle, ← tables_processFlag hw]
    rfl
  | put _ _ | get _ | erase _ | getKeys =>
    rw [System.handle, Tables.handle, ← tables_withDictionary]
    rfl
  | isAlive other =>
    rw [System.handle, Tables.handle, isAlive_tables]
    rfl
  | list =>
    rw [System.handle, Tables.handle, tables_pids]
    rfl
  | makeRef =>
    rw [System.handle, Tables.handle, ← tables_makeRef]
    rfl
  | yield | sendAfter _ _ _ | whereis _ | registered => rfl

theorem tables_resume (hw : s.Wf) (ho : s.Ordered) (pid : Nat) (r : Reply) :
    Prod.map id tables (s.resume pid r) = s.tables.resume pid r := by
  unfold System.resume Tables.resume
  rw [get?_coroutines]
  cases hf : s.find? pid with
  | none => rfl
  | some a =>
    dsimp only [Option.map_some]
    cases (a.cont r).advance with
    | mk notes stop =>
      -- the process is marked running and its notes are kept, in either order
      have hw₁ : (({ s with trace := s.trace ++ notes.map fun n => ({ pid, note := n } : Entry) } :
          System).update pid fun a => { a with status := .running }).Wf :=
        Wf.update (hw.of_actors rfl rfl rfl) (fun _ h => h) (fun _ _ => rfl)
      have ho₁ : (({ s with trace := s.trace ++ notes.map fun n => ({ pid, note := n } : Entry) } :
          System).update pid fun a => { a with status := .running }).Ordered := by
        refine Ordered.update ?_ ?_
        · exact ⟨ho.1, ho.2⟩
        · exact fun _ => rfl
      have h₁ : (({ s with trace := s.trace ++ notes.map fun n => ({ pid, note := n } : Entry) } :
          System).update pid fun a => { a with status := .running }).tables =
          { { s.tables with processes := s.tables.processes.modify pid fun p => { p with status := .running } } with
            trace := s.tables.trace ++ notes.map fun n => ({ pid, note := n } : Entry) } := by
        rw [tables_update_process (fun p => { p with status := .running }) ?_]
        · rfl
        · exact fun _ _ _ => ⟨rfl, rfl, rfl, rfl, rfl⟩
      cases stop with
      | call req k =>
        simp only [Prod.map, id]
        rw [tables_update_cont (f := fun a => { a with cont := k }) (fun _ => k)
          (fun _ _ _ => ⟨rfl, rfl, rfl, rfl, rfl⟩), h₁]
      | finish _ | crash _ =>
        simp only [Prod.map, id]
        rw [tables_terminate hw₁ ho₁, h₁]
      | note n next =>
        simp only [Prod.map, id]
        rw [h₁]

theorem tables_retryReceive (hw : s.Wf) (ho : s.Ordered) (pid : Nat) :
    Prod.map id tables (s.retryReceive pid) = s.tables.retryReceive pid := by
  unfold System.retryReceive Tables.retryReceive
  rw [get?_receiving hw]
  cases hf : s.find? pid with
  | none => rfl
  | some a =>
    dsimp only [Option.bind_some]
    cases hp : a.pending with
    | none => rfl
    | some pr =>
      rw [get?_processes, hf]
      dsimp only [Option.map_some]
      rw [show a.process.mailbox = a.mailbox from rfl]
      cases selectMessage a.mailbox pr.clauses with
      | error e =>
        simp only [Prod.map, id]
        rw [tables_terminate hw ho]
      | ok o =>
        cases o with
        | none => rfl
        | some rm =>
          obtain ⟨r, mb⟩ := rm
          -- the message is taken, the wait ends, and its timer is cancelled
          have h₁ := tables_update_settle (s := s) (f := fun a => { a with mailbox := mb, pending := none })
            (fun p => { p with mailbox := mb }) fun _ _ (_ : _ = pid) => ⟨rfl, rfl, rfl, rfl, rfl⟩
          cases pr.timeout with
          | none =>
            simp only [Prod.map, id]
            rw [h₁]
          | some tid =>
            simp only [Prod.map, id]
            rw [tables_setTimers, h₁]
            rfl

/-! ## The scheduler's loops -/

/-- Resuming a program with a reply, answering the request it stops at, and going on with the
next task, as one square, given the square for the tasks that follow. -/
theorem tables_resume_answer (pid n used : Nat) (r : Reply) (s : System) (hw : s.Wf) (ho : s.Ordered)
    (ih : ∀ s : System, s.Wf → s.Ordered →
      Prod.map id tables (runTasks pid n used s) = Tables.runTasks pid n used s.tables) :
    Prod.map id tables (match s.resume pid r with
      | (none, s) => (used, s)
      | (some req, s) =>
        runTasks pid n used (match (s.handle pid req).1 with
          | .reply r => (s.handle pid req).2.enqueue pid (.resume r)
          | .park => (s.handle pid req).2)) =
      match s.tables.resume pid r with
      | (none, t) => (used, t)
      | (some req, t) =>
        Tables.runTasks pid n used (match (t.handle pid req).1 with
          | .reply r => (t.handle pid req).2.enqueue pid (.resume r)
          | .park => (t.handle pid req).2) := by
  rw [← tables_resume hw ho]
  have hw₃ := hw.resume pid r
  have ho₃ := Ordered.guarded.resume hw ho pid r
  cases hres : s.resume pid r with
  | mk oreq s₃ =>
    rw [hres] at hw₃ ho₃
    cases oreq with
    | none => rfl
    | some req =>
      have hpid : pid ≤ s₃.nextPid := hw₃.le_of_alive (alive_of_resume hres)
      have hw₄ := hw₃.handle pid req
      have ho₄ := Ordered.guarded.handle hw₃ ho₃ hpid req
      simp only [Prod.map, id]
      rw [← tables_handle hw₃ ho₃]
      cases hh : s₃.handle pid req with
      | mk flow s₄ =>
        rw [hh] at hw₄ ho₄
        -- an answer is queued as the next task
        cases flow with
        | reply r' =>
          simp only [Prod.map, id]
          rw [← tables_enqueue]
          exact ih _ (hw₄.enqueue _ _) (Ordered.guarded.enqueue ho₄ _ _)
        | park => exact ih s₄ hw₄ ho₄

theorem tables_runTasks (pid : Nat) :
    ∀ (n used : Nat) (s : System), s.Wf → s.Ordered →
      Prod.map id tables (runTasks pid n used s) = Tables.runTasks pid n used s.tables
  | 0, _, _, _, _ => rfl
  | n + 1, used, s, hw, ho => by
    have ih := tables_runTasks pid n (used + 1)
    unfold System.runTasks Tables.runTasks
    rw [← tables_popTask]
    cases hpop : s.popTask pid with
    | none => rfl
    | some ts =>
      obtain ⟨task, s₁⟩ := ts
      have hw₁ : s₁.Wf := hw.popTask hpop
      have ho₁ : s₁.Ordered := Ordered.guarded.popTask ho hpop
      simp only [Option.map_some, Prod.map_fst, Prod.map_snd, id]
      -- a resume task brings its reply; a retry looks at the mailbox, and may find nothing
      cases task with
      | resume r => exact tables_resume_answer pid n (used + 1) r s₁ hw₁ ho₁ ih
      | retry =>
        simp only
        rw [← tables_retryReceive hw₁ ho₁]
        have hw₂ := hw₁.retryReceive pid
        have ho₂ := Ordered.guarded.retryReceive hw₁ ho₁ pid
        cases hrr : s₁.retryReceive pid with
        | mk reply s₂ =>
          rw [hrr] at hw₂ ho₂
          cases reply with
          | none => exact ih s₂ hw₂ ho₂
          | some r => exact tables_resume_answer pid n (used + 1) r s₂ hw₂ ho₂ ih

theorem tables_runSlice (hw : s.Wf) (ho : s.Ordered) (pid limit : Nat) :
    Prod.map id tables (s.runSlice pid limit) = s.tables.runSlice pid limit := by
  unfold System.runSlice Tables.runSlice
  rw [← tables_runTasks pid limit 0 s hw ho]
  cases runTasks pid limit 0 s with
  | mk used s' =>
    simp only [Prod.map, id]
    rw [tables_update_process (fun p => { p with reductions := p.reductions + used }) ?_]
    exact fun _ _ _ => ⟨rfl, rfl, rfl, rfl, rfl⟩

theorem tables_runnable : s.tables.runnable = s.runnable := by
  simp [Tables.runnable, System.runnable, tables, Actors.table, List.filter_map, Function.comp_def]

theorem tables_tickRound (budget : Nat) :
    ∀ (pids : List Nat) (spent : Nat) (s : System), s.Wf → s.Ordered →
      Prod.map id (Prod.map id tables) (tickRound budget pids spent s) =
        Tables.tickRound budget pids spent s.tables
  | [], _, _, _, _ => rfl
  | pid :: rest, spent, s, hw, ho => by
    simp only [System.tickRound, Tables.tickRound]
    split
    · rfl
    · rw [show s.tables.config = s.config from rfl, ← tables_runSlice hw ho]
      have hw' := hw.runSlice pid (min s.config.reductions (budget - spent))
      have ho' := Ordered.guarded.runSlice hw ho pid (min s.config.reductions (budget - spent))
      cases hslice : s.runSlice pid (min s.config.reductions (budget - spent)) with
      | mk used s' =>
        rw [hslice] at hw' ho'
        exact tables_tickRound budget rest _ s' hw' ho'

theorem tables_tickFrom (budget spent : Nat) (s : System) (hw : s.Wf) (ho : s.Ordered) :
    Prod.map id tables (tickFrom budget spent s) = Tables.tickFrom budget spent s.tables := by
  induction spent, s using tickFrom.induct budget with
  | case1 spent s pids hempty =>
    simp only [pids] at hempty
    rw [tickFrom, Tables.tickFrom, tables_runnable]
    simp only [hempty, ↓reduceIte]
    rfl
  | case2 spent s pids hne exhausted spent' s' hround hgo ih =>
    simp only [pids] at hne hround
    have hround' := tables_tickRound budget s.runnable spent s hw ho
    rw [hround] at hround'
    have hinv : s'.Wf ∧ s'.Ordered := by
      simpa [hround] using tickRound_keeps (fun s => s.Wf ∧ s.Ordered)
        (fun _ pid n h => ⟨h.1.runSlice pid n, Ordered.guarded.runSlice h.1 h.2 pid n⟩) budget s.runnable
        spent s ⟨hw, ho⟩
    rw [tickFrom, Tables.tickFrom, tables_runnable, ← hround']
    simp only [hne, hround, hgo, Prod.map, id, Bool.false_eq_true, ↓reduceIte]
    exact ih hinv.1 hinv.2
  | case3 spent s pids hne exhausted spent' s' hround hstop =>
    simp only [pids] at hne hround
    have hround' := tables_tickRound budget s.runnable spent s hw ho
    rw [hround] at hround'
    rw [tickFrom, Tables.tickFrom, tables_runnable, ← hround']
    simp only [hne, hround, hstop, Prod.map, id, Bool.false_eq_true, ↓reduceIte]

theorem tables_tick (hw : s.Wf) (ho : s.Ordered) : Prod.map id tables s.tick = s.tables.tick :=
  tables_tickFrom _ 0 s hw ho

theorem tables_fire (hw : s.Wf) (e : TimerEvent) : (s.fire e).tables = s.tables.fire e := by
  cases e with
  | wake pid =>
    simp only [System.fire, Tables.fire, status_tables]
    cases s.find? pid with
    | none => rfl
    | some a =>
      by_cases h : a.status = .sleeping
      · simp [h, tables_enqueue]
      · simp [h]
  | receiveTimeout pid token =>
    simp only [System.fire, Tables.fire, get?_receiving hw]
    cases s.find? pid with
    | none => rfl
    | some a =>
      by_cases h : a.pending.any (·.token = token)
      · -- the wait ends as its timer fires, and the process is told
        have h₁ := tables_update_settle (s := s) (f := fun a => { a with pending := none }) (fun p => p)
          fun _ _ (_ : _ = pid) => ⟨rfl, rfl, rfl, rfl, rfl⟩
        simp only [Option.any_some, Option.bind_some, h, ↓reduceIte]
        rw [tables_enqueue, h₁, PidTable.modify_id]
      · simp [h]
  | deliver pid msg => exact tables_deliver hw.nodup _ _

theorem tables_fireDue : ∀ (n : Nat) (s : System), s.Wf → (fireDue n s).tables = Tables.fireDue n s.tables
  | 0, _, _ => rfl
  | n + 1, s, hw => by
    simp only [System.fireDue, Tables.fireDue]
    rw [show s.tables.timers = s.timers from rfl, show s.tables.now = s.now from rfl]
    cases s.timers.popDue s.now with
    | none => rfl
    | some eq =>
      obtain ⟨e, q⟩ := eq
      have hw₁ : ({ s with timers := q } : System).Wf := hw.of_actors rfl rfl rfl
      dsimp only
      rw [tables_fireDue n _ (hw₁.fire e), tables_fire hw₁]
      rfl

theorem tables_fireTimers (hw : s.Wf) : s.fireTimers.tables = s.tables.fireTimers :=
  tables_fireDue _ s hw

theorem tables_isLive (hw : s.Wf) (e : TimerEvent) : s.tables.isLive e = s.isLive e := by
  cases e with
  | wake pid =>
    simp only [Tables.isLive, System.isLive, status_tables]
    cases s.find? pid <;> simp
  | receiveTimeout pid token =>
    simp only [Tables.isLive, System.isLive, get?_receiving hw]
    cases s.find? pid <;> simp
  | deliver pid msg => exact isAlive_tables

theorem tables_pruneFrom : ∀ (n : Nat) (s : System), s.Wf →
    (pruneFrom n s).tables = Tables.pruneFrom n s.tables
  | 0, _, _ => rfl
  | n + 1, s, hw => by
    simp only [System.pruneFrom, Tables.pruneFrom]
    rw [show s.tables.timers = s.timers from rfl]
    cases s.timers.peek with
    | none => rfl
    | some e =>
      dsimp only
      rw [tables_isLive hw]
      split
      · rfl
      · cases s.timers.pop with
        | none => rfl
        | some eq =>
          exact tables_pruneFrom n _ (hw.of_actors rfl rfl rfl)

theorem tables_pruneStaleTimers (hw : s.Wf) : s.pruneStaleTimers.tables = s.tables.pruneStaleTimers :=
  tables_pruneFrom _ s hw

theorem tables_hasRunnable : s.tables.hasRunnable = s.hasRunnable := by
  simp [Tables.hasRunnable, System.hasRunnable, tables, Actors.table, Function.comp_def]

theorem Ordered.fireTimers (hw : s.Wf) (ho : s.Ordered) : s.fireTimers.Ordered :=
  (fireTimers_keeps (fun s => s.Wf ∧ s.Ordered) (fun _ e _ h _ => by
    refine ⟨Wf.fire ?_ e, Ordered.guarded.fire ?_ e⟩
    · exact h.1.of_actors rfl rfl rfl
    · exact ⟨h.2.1, h.2.2⟩) s ⟨hw, ho⟩).2

theorem tables_idleFrom : ∀ (n : Nat) (s : System), s.Wf → s.Ordered →
    (idleFrom n s).tables = Tables.idleFrom n s.tables
  | 0, _, _, _ => rfl
  | n + 1, s, hw, ho => by
    simp only [System.idleFrom, Tables.idleFrom]
    rw [← tables_fireTimers hw, tables_hasRunnable]
    have hw₁ := hw.fireTimers
    have ho₁ := Ordered.fireTimers hw ho
    split
    · rw [← tables_tick hw₁ ho₁]
      exact tables_idleFrom n _ hw₁.tick (Ordered.guarded.tick _ ⟨hw₁, ho₁⟩).2
    · rfl

theorem tables_runUntilIdle (hw : s.Wf) (ho : s.Ordered) : s.runUntilIdle.tables = s.tables.runUntilIdle :=
  tables_idleFrom _ s hw ho

theorem tables_runFrom : ∀ (n : Nat) (s : System), s.Wf → s.Ordered →
    (runFrom n s).tables = Tables.runFrom n s.tables
  | 0, _, _, _ => rfl
  | n + 1, s, hw, ho => by
    simp only [System.runFrom, Tables.runFrom]
    have hinv := Ordered.guarded.runUntilIdle s ⟨hw, ho⟩
    have hprune : s.runUntilIdle.pruneStaleTimers.Wf ∧ s.runUntilIdle.pruneStaleTimers.Ordered :=
      pruneStaleTimers_keeps (fun s => s.Wf ∧ s.Ordered)
        (fun _ _ _ h _ _ => ⟨h.1.of_actors rfl rfl rfl, ⟨h.2.1, h.2.2⟩⟩) _ hinv
    rw [← tables_runUntilIdle hw ho, ← tables_pruneStaleTimers hinv.1]
    rw [show s.runUntilIdle.pruneStaleTimers.tables.timers = s.runUntilIdle.pruneStaleTimers.timers from rfl]
    cases s.runUntilIdle.pruneStaleTimers.timers.nextDeadline with
    | none => rfl
    | some d =>
      exact tables_runFrom n _ (hprune.1.of_actors rfl rfl rfl) ⟨hprune.2.1, hprune.2.2⟩

theorem tables_run (hw : s.Wf) (ho : s.Ordered) : s.run.tables = s.tables.run :=
  tables_runFrom _ s hw ho

end System

end ActorCore
