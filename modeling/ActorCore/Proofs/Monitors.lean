import ActorCore.Proofs.Lifecycle
import Mathlib.Data.List.Nodup

/-!
# Monitors: the table and the observers' sets

A monitor lives in two places: the system's table maps its reference to its observer and its
observed process, and the observer keeps the reference in its own ascending set. Installing a
monitor, removing one and the end of either process update the two separately.

* `MonitorTable` — what removing, taking the monitors of an observed process and installing a
  fresh reference do to the entries.
* `System.MonitorInv` — references are distinct and handed out, every entry observes a live
  process, and every reference a live process holds is an entry naming it as the observer. The
  primitive changes keep it whatever the host names (`System.MonitorInv.stable`).
* `System.MonitorsExact` — besides, every entry whose observer is live is held by it. The host
  may ask for a monitor on behalf of any pid, one not spawned yet included; the process later
  spawned under that pid does not hold it (`System.monitor_before_observer_spawn`). When every
  observer the host names has been handed out, as every observer a process names has, the two
  views agree exactly (`System.ReachableKnown.monitorsExact`).
* `System.RefsFixed` — a reference that has left the table never comes back, and an entry never
  changes: monitors only take fresh references.

From these, the end of a process sends each live observer one `:DOWN` for each entry that
observes it, with the reason it records, and takes those entries out; a monitor of a process that
is not live sends `:DOWN` with `noproc` under a fresh reference it never installs; and `demonitor`
answers whether the reference is installed and takes it out. So every reference gets at most one
`:DOWN` from the system, none after a `demonitor` that answered `true`, which answers `true` once.

Principal result: `System.monitors_consistent`.
-/

namespace ActorCore

/-- Erasing the members of `refs` one by one from a list without repeats keeps exactly what
`refs` does not name. -/
theorem mem_foldl_erase {l refs : List Nat} (hl : l.Nodup) {x : Nat} :
    x ∈ refs.foldl List.erase l ↔ x ∈ l ∧ x ∉ refs := by
  rw [← List.diff_eq_foldl]
  exact hl.mem_sdiff_iff

theorem foldl_erase_sublist (l refs : List Nat) : (refs.foldl List.erase l).Sublist l := by
  rw [← List.diff_eq_foldl]
  exact List.diff_sublist l refs

namespace MonitorTable

variable {t : MonitorTable} {r pid : Nat} {m : Monitor} {e : Nat × Monitor}

/-- With distinct references, the monitor found under a reference is its one entry. -/
theorem get?_eq_some_iff (hnd : (t.entries.map Prod.fst).Nodup) :
    t.get? r = some m ↔ (r, m) ∈ t.entries :=
  lookup_eq_some_iff_mem hnd

theorem get?_eq_none_iff : t.get? r = none ↔ ∀ e ∈ t.entries, e.1 ≠ r := by
  simp only [get?, List.lookup_eq_none_iff, bne_iff_ne, ne_eq]
  exact forall₂_congr fun _ _ => ⟨fun h h' => h h'.symm, fun h h' => h h'.symm⟩

/-- Two entries under one reference of a table without repeated references are one entry. -/
theorem eq_of_mem (hnd : (t.entries.map Prod.fst).Nodup) {m' : Monitor} (h : (r, m) ∈ t.entries)
    (h' : (r, m') ∈ t.entries) : m = m' := by
  have := ((get?_eq_some_iff hnd).2 h).symm.trans ((get?_eq_some_iff hnd).2 h')
  exact Option.some.inj this

/-- A reference above all of the table's is installed at its end. -/
theorem insert_of_fresh (h : ∀ e ∈ t.entries, e.1 < r) : t.insert r m = ⟨t.entries ++ [(r, m)]⟩ := by
  have hnone : t.get? r = none := get?_eq_none_iff.2 fun e he => Nat.ne_of_lt (h e he)
  simp only [insert, hnone]

theorem mem_insert (h : e ∈ (t.insert r m).entries) : e ∈ t.entries ∨ e = (r, m) := by
  unfold insert at h
  split at h
  · obtain ⟨e', he', rfl⟩ := List.mem_map.1 h
    by_cases hr : e'.1 = r
    · exact .inr (if_pos hr)
    · exact .inl (by rwa [if_neg hr])
  · simpa using h

/-- Removing the monitors of a list of references one by one keeps the other entries. -/
theorem foldl_remove (refs : List Nat) (t : MonitorTable) :
    (refs.foldl (fun t r => (t.remove r).2) t).entries = t.entries.filter fun e => e.1 ∉ refs := by
  induction refs generalizing t with
  | nil => simp
  | cons r rest ih =>
    rw [List.foldl_cons, ih]
    simp only [remove, List.filter_filter]
    congr 1
    funext e
    by_cases hr : e.1 = r <;> by_cases hrest : e.1 ∈ rest <;> simp [hr, hrest]

theorem takeObserving_snd (t : MonitorTable) (pid : Nat) :
    (t.takeObserving pid).2.entries = t.entries.filter (·.2.observed != pid) := rfl

/-- The monitors taken for an observed process are its entries, as pairs of a reference and an
observer. -/
theorem mem_takeObserving_fst {x : Nat × Nat} :
    x ∈ (t.takeObserving pid).1 ↔ ∃ m, (x.1, m) ∈ t.entries ∧ m.observed = pid ∧ m.observer = x.2 := by
  obtain ⟨r, o⟩ := x
  simp only [takeObserving, List.mem_mergeSort, List.mem_map, List.mem_filter, beq_iff_eq,
    Prod.mk.injEq]
  constructor
  · rintro ⟨⟨r', m⟩, ⟨hm, hobs⟩, rfl, rfl⟩
    exact ⟨m, hm, hobs, rfl⟩
  · rintro ⟨m, hm, hobs, rfl⟩
    exact ⟨(r, m), ⟨hm, hobs⟩, rfl, rfl⟩

theorem nodup_takeObserving_fst (hnd : (t.entries.map Prod.fst).Nodup) :
    ((t.takeObserving pid).1.map Prod.fst).Nodup := by
  simp only [takeObserving]
  rw [((List.mergeSort_perm _ _).map Prod.fst).nodup_iff, List.map_map]
  exact hnd.sublist (List.filter_sublist.map Prod.fst)

end MonitorTable

namespace System

variable {s s' : System} {pid q observer observed ref : Nat} {reason : ExitReason}

/-! ## The invariant -/

/-- What holds of the monitors whatever the host names: references are distinct and handed out,
every entry observes a live process, the set a live process holds is ascending, and each of its
references is an entry naming the process as the observer. -/
structure MonitorInv (s : System) : Prop where
  nodup : (s.monitors.entries.map Prod.fst).Nodup
  issued : ∀ e ∈ s.monitors.entries, e.1 ≤ s.nextRef
  observed : ∀ e ∈ s.monitors.entries, s.alive e.2.observed = true
  sorted : ∀ a ∈ s.actors, a.monitors.Pairwise (· < ·)
  held : ∀ a ∈ s.actors, ∀ r ∈ a.monitors, ∃ q, (r, ⟨a.pid, q⟩) ∈ s.monitors.entries

/-- What holds besides when the host names observers that have been handed out: every entry
names such an observer, and a live observer holds its entries. -/
structure MonitorsExact (s : System) : Prop extends s.MonitorInv where
  known : ∀ e ∈ s.monitors.entries, e.2.observer ≤ s.nextPid
  installed : ∀ e ∈ s.monitors.entries, ∀ a ∈ s.actors, a.pid = e.2.observer → e.1 ∈ a.monitors

theorem MonitorInv.nodup_monitors {a : Actor} (h : s.MonitorInv) (ha : a ∈ s.actors) :
    a.monitors.Nodup :=
  (h.sorted a ha).imp Nat.ne_of_lt

theorem MonitorInv.create (c : Config) (allocate : StackAllocation) :
    (System.createOn c allocate).MonitorInv where
  nodup := by simp [System.createOn]
  issued := by simp [System.createOn]
  observed := by simp [System.createOn]
  sorted := by simp [System.createOn]
  held := by simp [System.createOn]

theorem MonitorsExact.create (c : Config) (allocate : StackAllocation) :
    (System.createOn c allocate).MonitorsExact where
  toMonitorInv := .create c allocate
  known := by simp [System.createOn]
  installed := by simp [System.createOn]

/-! ## Changes that leave the table alone -/

/-- Each process after a change that keeps the table is a process from before, with its pid and
its monitors. -/
def SameMonitors (s s' : System) : Prop :=
  ∀ b ∈ s'.actors, ∃ a ∈ s.actors, b.pid = a.pid ∧ b.monitors = a.monitors

theorem SameMonitors.of_actors (h : s'.actors = s.actors) : SameMonitors s s' :=
  fun b hb => ⟨b, h ▸ hb, rfl, rfl⟩

theorem sameMonitors_update {f : Actor → Actor} (hpid : ∀ a, (f a).pid = a.pid)
    (hmon : ∀ a, (f a).monitors = a.monitors) : SameMonitors s (s.update pid f) := by
  intro b hb
  obtain ⟨a, ha, rfl⟩ := List.mem_map.1 hb
  refine ⟨a, ha, ?_⟩
  split
  · exact ⟨hpid a, hmon a⟩
  · exact ⟨rfl, rfl⟩

theorem MonitorInv.of_frame (h : s.MonitorInv) (htable : s'.monitors = s.monitors)
    (href : s.nextRef ≤ s'.nextRef) (halive : ∀ q, s.alive q = true → s'.alive q = true)
    (hact : SameMonitors s s') : s'.MonitorInv where
  nodup := htable ▸ h.nodup
  issued e he := Nat.le_trans (h.issued e (htable ▸ he)) href
  observed e he := halive _ (h.observed e (htable ▸ he))
  sorted b hb := by
    obtain ⟨a, ha, -, hmon⟩ := hact b hb
    exact hmon ▸ h.sorted a ha
  held b hb r hr := by
    obtain ⟨a, ha, hpid, hmon⟩ := hact b hb
    rw [htable, hpid]
    exact h.held a ha r (hmon ▸ hr)

theorem MonitorsExact.of_frame (h : s.MonitorsExact) (htable : s'.monitors = s.monitors)
    (href : s.nextRef ≤ s'.nextRef) (hpid : s.nextPid ≤ s'.nextPid)
    (halive : ∀ q, s.alive q = true → s'.alive q = true) (hact : SameMonitors s s') :
    s'.MonitorsExact where
  toMonitorInv := h.toMonitorInv.of_frame htable href halive hact
  known e he := Nat.le_trans (h.known e (htable ▸ he)) hpid
  installed e he b hb hobs := by
    obtain ⟨a, ha, hpid', hmon⟩ := hact b hb
    rw [hmon]
    exact h.installed e (htable ▸ he) a ha (hpid' ▸ hobs)

/-- A process after an update of `pid` is a process from before, changed when it has that pid. -/
theorem mem_update_actors {f : Actor → Actor} {b : Actor} (hb : b ∈ (s.update pid f).actors) :
    ∃ a ∈ s.actors, (a.pid = pid ∧ b = f a) ∨ (a.pid ≠ pid ∧ b = a) := by
  obtain ⟨a, ha, rfl⟩ := List.mem_map.1 hb
  refine ⟨a, ha, ?_⟩
  by_cases hp : a.pid = pid
  · exact .inl ⟨hp, if_pos hp⟩
  · exact .inr ⟨hp, if_neg hp⟩

/-! ## Spawning -/

/-- A spawned process holds no monitor, and its pid is new. -/
theorem mem_spawn_actors {body : Nat → Program} {b : Actor} (hb : b ∈ (s.spawn body).2.actors) :
    b ∈ s.actors ∨ (b.pid = s.nextPid + 1 ∧ b.monitors = []) := by
  simp only [System.spawn] at hb
  split at hb
  · rcases List.mem_append.1 hb with hb | hb
    · exact .inl hb
    · rw [List.mem_singleton.1 hb]
      exact .inr ⟨rfl, rfl⟩
  · exact .inl hb

theorem MonitorInv.spawn (h : s.MonitorInv) (body : Nat → Program) :
    (s.spawn body).2.MonitorInv where
  nodup := by
    rw [monitors_spawn]
    exact h.nodup
  issued e he := by
    rw [monitors_spawn] at he
    rw [nextRef_spawn]
    exact h.issued e he
  observed e he := by
    rw [monitors_spawn] at he
    rw [alive_spawn, h.observed e he, Bool.true_or]
  sorted b hb := by
    rcases mem_spawn_actors hb with hb | ⟨-, hmon⟩
    · exact h.sorted b hb
    · rw [hmon]
      exact List.Pairwise.nil
  held b hb r hr := by
    rw [monitors_spawn]
    rcases mem_spawn_actors hb with hb | ⟨-, hmon⟩
    · exact h.held b hb r hr
    · rw [hmon] at hr
      cases hr

theorem MonitorsExact.spawn (h : s.MonitorsExact) (body : Nat → Program) :
    (s.spawn body).2.MonitorsExact where
  toMonitorInv := h.toMonitorInv.spawn body
  known e he := by
    rw [monitors_spawn] at he
    rw [spawn_nextPid]
    exact Nat.le_succ_of_le (h.known e he)
  installed e he b hb hobs := by
    rw [monitors_spawn] at he
    rcases mem_spawn_actors hb with hb | ⟨hpid, -⟩
    · exact h.installed e he b hb hobs
    · -- the new pid is above every observer the table names
      have := h.known e he
      omega

/-! ## Installing and removing a monitor -/

/-- A monitor of a live process takes the next reference, installed at the end of the table and
in the observer's set. -/
theorem monitor_of_alive (h : s.MonitorInv) (hq : s.alive observed = true) :
    (s.monitor observer observed).2 =
      ({ s with nextRef := s.nextRef + 1,
                monitors := ⟨s.monitors.entries ++ [(s.nextRef + 1, ⟨observer, observed⟩)]⟩ } :
        System).update observer fun a => { a with monitors := insertAscending (s.nextRef + 1) a.monitors } := by
  rw [monitor_eq, if_pos hq,
    MonitorTable.insert_of_fresh fun e he => Nat.lt_succ_of_le (h.issued e he)]

/-- A monitor of a process that is not live takes the next reference and leaves the table as it
is. -/
theorem monitor_of_not_alive (hq : s.alive observed = false) :
    (s.monitor observer observed).2 = ({ s with nextRef := s.nextRef + 1 } : System).deliver observer
      (ExitReason.noproc.downMessage (s.nextRef + 1) observed) := by
  rw [monitor_eq, if_neg (by simp [hq])]

/-- Installing an entry under the next reference, for a live observed process, keeps the
invariant. -/
theorem MonitorInv.install (h : s.MonitorInv) (hq : s.alive observed = true) :
    (({ s with nextRef := s.nextRef + 1,
                monitors := ⟨s.monitors.entries ++ [(s.nextRef + 1, ⟨observer, observed⟩)]⟩ } :
        System).update observer fun a =>
          { a with monitors := insertAscending (s.nextRef + 1) a.monitors }).MonitorInv := by
  have hfresh : s.nextRef + 1 ∉ s.monitors.entries.map Prod.fst := fun hr => by
    obtain ⟨e, he, hr⟩ := List.mem_map.1 hr
    have := h.issued e he
    omega
  refine ⟨nodup_map_append_singleton h.nodup hfresh, ?_, ?_, ?_, ?_⟩
  · intro e he
    rcases List.mem_append.1 he with he | he
    · exact Nat.le_succ_of_le (h.issued e he)
    · obtain rfl := List.mem_singleton.1 he
      exact Nat.le_refl _
  · intro e he
    rw [alive_update]
    · rcases List.mem_append.1 he with he | he
      · exact h.observed e he
      · rw [List.mem_singleton.1 he]
        exact hq
    · exact fun _ h => h
  · intro b hb
    obtain ⟨a, ha, ⟨-, rfl⟩ | ⟨-, rfl⟩⟩ := mem_update_actors hb
    · exact pairwise_insertAscending (h.sorted a ha)
    · exact h.sorted _ ha
  · intro b hb r hr
    obtain ⟨a, ha, ⟨hpid, rfl⟩ | ⟨-, rfl⟩⟩ := mem_update_actors hb
    · rcases mem_insertAscending.1 hr with rfl | hr
      · exact ⟨observed, List.mem_append_right _ (by simp [hpid])⟩
      · obtain ⟨q, hq⟩ := h.held a ha r hr
        exact ⟨q, List.mem_append_left _ hq⟩
    · obtain ⟨q, hq⟩ := h.held _ ha r hr
      exact ⟨q, List.mem_append_left _ hq⟩

/-- A monitor keeps the invariant whatever its observer. -/
theorem MonitorInv.monitor (h : s.MonitorInv) (observer observed : Nat) :
    (s.monitor observer observed).2.MonitorInv := by
  cases hq : s.alive observed
  · rw [monitor_of_not_alive hq]
    exact h.of_frame rfl (Nat.le_succ _) (fun _ hq => by rwa [alive_deliver])
      (sameMonitors_update (fun _ => rfl) fun _ => rfl)
  · rw [monitor_of_alive h hq]
    exact h.install hq

/-- A monitor whose observer has been handed out keeps the two views in agreement. -/
theorem MonitorsExact.monitor (h : s.MonitorsExact) (hobs : observer ≤ s.nextPid) (observed : Nat) :
    (s.monitor observer observed).2.MonitorsExact := by
  cases hq : s.alive observed
  · rw [monitor_of_not_alive hq]
    exact h.of_frame rfl (Nat.le_succ _) (Nat.le_refl _) (fun _ hq => by rwa [alive_deliver])
      (sameMonitors_update (fun _ => rfl) fun _ => rfl)
  · rw [monitor_of_alive h.toMonitorInv hq]
    refine ⟨h.toMonitorInv.install hq, ?_, ?_⟩
    · intro e he
      rcases List.mem_append.1 he with he | he
      · exact h.known e he
      · rw [List.mem_singleton.1 he]
        exact hobs
    · intro e he b hb hpid
      obtain ⟨a, ha, ⟨ha', rfl⟩ | ⟨ha', rfl⟩⟩ := mem_update_actors hb
      · rcases List.mem_append.1 he with he | he
        · exact mem_insertAscending.2 (.inr (h.installed e he a ha hpid))
        · rw [List.mem_singleton.1 he]
          exact mem_insertAscending.2 (.inl rfl)
      · rcases List.mem_append.1 he with he | he
        · exact h.installed e he _ ha hpid
        · -- the new entry names the observer, which this process is not
          rw [List.mem_singleton.1 he] at hpid
          exact absurd hpid ha'

/-- Removing a monitor keeps the invariant. -/
theorem MonitorInv.demonitor (h : s.MonitorInv) (ref : Nat) : (s.demonitor ref).2.MonitorInv := by
  cases hm : s.monitors.get? ref with
  | none => simpa [demonitor_eq, hm] using h
  | some m =>
    have hmem : (ref, m) ∈ s.monitors.entries := (MonitorTable.get?_eq_some_iff h.nodup).1 hm
    simp only [demonitor_eq, hm]
    refine ⟨h.nodup.sublist (List.filter_sublist.map _), ?_, ?_, ?_, ?_⟩
    · intro e he
      exact h.issued e (List.mem_of_mem_filter he)
    · intro e he
      rw [alive_update]
      · exact h.observed e (List.mem_of_mem_filter he)
      · exact fun _ h => h
    · intro b hb
      obtain ⟨a, ha, ⟨-, rfl⟩ | ⟨-, rfl⟩⟩ := mem_update_actors hb
      · exact (h.sorted a ha).sublist List.erase_sublist
      · exact h.sorted _ ha
    · intro b hb r hr
      obtain ⟨a, ha, ⟨-, rfl⟩ | ⟨hpid, rfl⟩⟩ := mem_update_actors hb
      · -- the observer keeps its other references, whose entries stay
        obtain ⟨hne, hr⟩ := (List.Nodup.mem_erase_iff (h.nodup_monitors ha)).1 hr
        obtain ⟨q, hq⟩ := h.held a ha r hr
        exact ⟨q, List.mem_filter.2 ⟨hq, by simpa using hne⟩⟩
      · -- the removed reference is the observer's, so another process does not hold it
        obtain ⟨q, hq⟩ := h.held _ ha r hr
        have hne : r ≠ ref := by
          rintro rfl
          exact hpid (congrArg Monitor.observer (MonitorTable.eq_of_mem h.nodup hq hmem))
        exact ⟨q, List.mem_filter.2 ⟨hq, by simpa using hne⟩⟩

theorem MonitorsExact.demonitor (h : s.MonitorsExact) (ref : Nat) :
    (s.demonitor ref).2.MonitorsExact := by
  have hinv := h.toMonitorInv.demonitor ref
  cases hm : s.monitors.get? ref with
  | none => simpa [demonitor_eq, hm] using h
  | some m =>
    simp only [demonitor_eq, hm] at hinv ⊢
    refine ⟨hinv, fun e he => h.known e (List.mem_of_mem_filter he), ?_⟩
    intro e he b hb hobs
    have hne : e.1 ≠ ref := by simpa using (List.mem_filter.1 he).2
    obtain ⟨a, ha, ⟨-, rfl⟩ | ⟨-, rfl⟩⟩ := mem_update_actors hb
    · exact (List.mem_erase_of_ne hne).2 (h.installed e (List.mem_of_mem_filter he) a ha hobs)
    · exact h.installed e (List.mem_of_mem_filter he) _ ha hobs

/-! ## The end of a process -/

/-- The references of a process's monitors name it as the observer, so another process's entry is
not among them. -/
theorem MonitorInv.not_mem_monitors {a : Actor} (h : s.MonitorInv) (ha : a ∈ s.actors) {r : Nat}
    {m : Monitor} (hr : (r, m) ∈ s.monitors.entries) (hobs : m.observer ≠ a.pid) : r ∉ a.monitors := by
  intro hra
  obtain ⟨q', hq'⟩ := h.held a ha r hra
  exact hobs (congrArg Monitor.observer (MonitorTable.eq_of_mem h.nodup hr hq'))

/-- The table after the end of a live process: the entries it held as observer and the entries
observing it are gone. -/
theorem release_monitors {a : Actor} (ha : s.find? pid = some a) :
    (s.release pid reason).1.monitors.entries =
      (s.monitors.entries.filter fun e => e.1 ∉ a.monitors).filter (·.2.observed != pid) := by
  rw [release_of_find? ha]
  simp only [MonitorTable.takeObserving_snd, MonitorTable.foldl_remove]

/-- The other processes after the end of a live process: each is changed by `afterExit` with the
entries observing the ended process that it does not hold itself, each reference once. -/
theorem MonitorInv.exists_release_taken (h : s.MonitorInv) (reason : ExitReason) {a : Actor}
    (ha : s.find? pid = some a) :
    ∃ taken : List (Nat × Nat), (taken.map Prod.fst).Nodup ∧
      (∀ x, x ∈ taken ↔ (x.1, ⟨x.2, pid⟩) ∈ s.monitors.entries ∧ x.1 ∉ a.monitors) ∧
      (s.release pid reason).1.actors =
        (s.actors.filter (·.pid != pid)).map (afterExit a reason taken) := by
  refine ⟨((a.monitors.foldl (fun t r => (t.remove r).2) s.monitors).takeObserving pid).1, ?_, ?_,
    by rw [release_of_find? ha]⟩
  · apply MonitorTable.nodup_takeObserving_fst
    rw [MonitorTable.foldl_remove]
    exact h.nodup.sublist (List.filter_sublist.map _)
  · intro x
    rw [MonitorTable.mem_takeObserving_fst, MonitorTable.foldl_remove]
    constructor
    · rintro ⟨⟨o, q⟩, hm, rfl, rfl⟩
      obtain ⟨hm, hr⟩ := List.mem_filter.1 hm
      exact ⟨hm, by simpa using hr⟩
    · rintro ⟨hm, hr⟩
      exact ⟨⟨x.2, pid⟩, List.mem_filter.2 ⟨hm, by simpa using hr⟩, rfl, rfl⟩

theorem afterExit_monitors (a : Actor) (r : ExitReason) (taken : List (Nat × Nat)) (o : Actor) :
    (afterExit a r taken o).monitors =
      ((taken.filter (·.2 == o.pid)).map (·.1)).foldl List.erase o.monitors := by
  rw [afterExit_eq]

theorem afterExit_messages (a : Actor) (r : ExitReason) (taken : List (Nat × Nat)) (o : Actor) :
    (afterExit a r taken o).mailbox.messages =
      o.mailbox.messages ++ ((taken.filter (·.2 == o.pid)).map (·.1)).map (r.downMessage · a.pid) := by
  rw [afterExit_eq]

theorem mem_release_monitors {a : Actor} (ha : s.find? pid = some a) {e : Nat × Monitor} :
    e ∈ (s.release pid reason).1.monitors.entries ↔
      e ∈ s.monitors.entries ∧ e.1 ∉ a.monitors ∧ e.2.observed ≠ pid := by
  rw [release_monitors ha]
  simp only [List.mem_filter, decide_eq_true_eq, bne_iff_ne, ne_eq]
  tauto

/-- With the invariant, the references `afterExit` takes from another process `o` are those of the
entries that observe the ended process on behalf of `o`. -/
theorem MonitorInv.mem_observerRefs (h : s.MonitorInv) {a : Actor} (hpa : s.find? pid = some a)
    {taken : List (Nat × Nat)}
    (htaken : ∀ x, x ∈ taken ↔ (x.1, ⟨x.2, pid⟩) ∈ s.monitors.entries ∧ x.1 ∉ a.monitors)
    {o r : Nat} (ho : o ≠ pid) :
    r ∈ (taken.filter (·.2 == o)).map (·.1) ↔ (r, ⟨o, pid⟩) ∈ s.monitors.entries := by
  simp only [List.mem_map, List.mem_filter, beq_iff_eq]
  constructor
  · rintro ⟨x, ⟨hx, rfl⟩, rfl⟩
    exact ((htaken x).1 hx).1
  · intro hr
    have hobs : (⟨o, pid⟩ : Monitor).observer ≠ a.pid := by
      rw [Actors.pid_of_find? hpa]
      exact ho
    exact ⟨(r, o), ⟨(htaken _).2 ⟨hr, h.not_mem_monitors (Actors.mem_of_find? hpa) hr hobs⟩, rfl⟩, rfl⟩

/-- The end of a process keeps the invariant. -/
theorem MonitorInv.release (h : s.MonitorInv) (pid : Nat) (reason : ExitReason) :
    (s.release pid reason).1.MonitorInv := by
  cases hpa : s.find? pid with
  | none => rwa [release_of_find?_none hpa]
  | some a =>
    have ha : a ∈ s.actors := Actors.mem_of_find? hpa
    obtain ⟨taken, -, htaken, hact⟩ := h.exists_release_taken reason hpa
    refine ⟨?_, ?_, ?_, ?_, ?_⟩
    · rw [release_monitors hpa]
      exact h.nodup.sublist ((List.filter_sublist.trans List.filter_sublist).map _)
    · intro e he
      rw [nextRef_release]
      exact h.issued e ((mem_release_monitors hpa).1 he).1
    · intro e he
      obtain ⟨he, -, hobs⟩ := (mem_release_monitors hpa).1 he
      simp [alive_release hpa, hobs, h.observed e he]
    · intro b hb
      rw [hact] at hb
      obtain ⟨o, ho, rfl⟩ := List.mem_map.1 hb
      rw [afterExit_monitors]
      exact (h.sorted o (List.mem_of_mem_filter ho)).sublist (foldl_erase_sublist _ _)
    · intro b hb r hr
      rw [hact] at hb
      obtain ⟨o, ho, rfl⟩ := List.mem_map.1 hb
      obtain ⟨ho, hop⟩ := List.mem_filter.1 ho
      have hop : o.pid ≠ pid := by simpa using hop
      rw [afterExit_monitors, mem_foldl_erase (h.nodup_monitors ho),
        h.mem_observerRefs hpa htaken hop] at hr
      obtain ⟨q, hq⟩ := h.held o ho r hr.1
      -- the entry stays: the ended process did not hold it, and it does not observe that process
      have hra : r ∉ a.monitors := h.not_mem_monitors ha hq (by rwa [Actors.pid_of_find? hpa])
      have hqp : q ≠ pid := by
        rintro rfl
        exact hr.2 hq
      rw [afterExit_pid]
      exact ⟨q, (mem_release_monitors hpa).2 ⟨hq, hra, hqp⟩⟩

/-- The end of a process keeps the two views in agreement. -/
theorem MonitorsExact.release (h : s.MonitorsExact) (pid : Nat) (reason : ExitReason) :
    (s.release pid reason).1.MonitorsExact := by
  cases hpa : s.find? pid with
  | none => rwa [release_of_find?_none hpa]
  | some a =>
    obtain ⟨taken, -, htaken, hact⟩ := h.exists_release_taken reason hpa
    refine ⟨h.toMonitorInv.release pid reason, ?_, ?_⟩
    · intro e he
      rw [release_nextPid]
      exact h.known e ((mem_release_monitors hpa).1 he).1
    · intro e he b hb hobs
      obtain ⟨he, -, hep⟩ := (mem_release_monitors hpa).1 he
      rw [hact] at hb
      obtain ⟨o, ho, rfl⟩ := List.mem_map.1 hb
      obtain ⟨ho, hop⟩ := List.mem_filter.1 ho
      have hop : o.pid ≠ pid := by simpa using hop
      rw [afterExit_pid] at hobs
      rw [afterExit_monitors, mem_foldl_erase (h.nodup_monitors ho),
        h.mem_observerRefs hpa htaken hop]
      refine ⟨h.installed e he o ho hobs, fun hr => hep ?_⟩
      -- an entry of the same reference observing the ended process would be this entry
      have := MonitorTable.eq_of_mem h.nodup hr he
      rw [← this]

/-! ## Every reachable state -/

/-- The primitive changes of state keep the invariant, a monitor whatever its observer. -/
theorem MonitorInv.stable : Stable MonitorInv where
  update _ _ _ hpid hmon _ h := h.of_frame rfl (Nat.le_refl _)
    (fun _ hq => by rwa [alive_update fun a ha => (hpid a).trans ha]) (sameMonitors_update hpid hmon)
  quiet _ _ hact _ href _ htable _ h := h.of_frame htable (Nat.le_of_eq href.symm)
    (fun _ hq => by unfold System.alive; rwa [hact]) (.of_actors hact)
  spawn _ body _ h := h.spawn body
  release _ pid r _ h := h.release pid r
  monitor _ observer observed _ h := h.monitor observer observed
  demonitor _ ref _ h := h.demonitor ref
  register _ _ _ _ _ hs h := by
    obtain ⟨-, r, -, rfl⟩ := register_eq_ok.1 hs
    exact h.of_frame rfl (Nat.le_refl _) (fun _ hq => hq) (.of_actors rfl)
  unregister _ _ _ h := h.of_frame rfl (Nat.le_refl _) (fun _ hq => hq) (.of_actors rfl)
  makeRef _ _ h := h.of_frame rfl (Nat.le_succ _) (fun _ hq => hq) (.of_actors rfl)

/-- The primitive changes of state keep the two views in agreement, a monitor when its observer
has been handed out. -/
theorem MonitorsExact.guarded : Guarded MonitorsExact where
  update _ _ _ hpid hmon _ h := h.of_frame rfl (Nat.le_refl _) (Nat.le_refl _)
    (fun _ hq => by rwa [alive_update fun a ha => (hpid a).trans ha]) (sameMonitors_update hpid hmon)
  quiet _ _ hact hnext href _ htable _ h := h.of_frame htable (Nat.le_of_eq href.symm)
    (Nat.le_of_eq hnext.symm) (fun _ hq => by unfold System.alive; rwa [hact])
    (.of_actors hact)
  spawn _ body _ h := h.spawn body
  release _ pid r _ h := h.release pid r
  monitorKnown _ _ observed _ hobs h := h.monitor hobs observed
  demonitor _ ref _ h := h.demonitor ref
  register _ _ _ _ _ hs h := by
    obtain ⟨-, r, -, rfl⟩ := register_eq_ok.1 hs
    exact h.of_frame rfl (Nat.le_refl _) (Nat.le_refl _) (fun _ hq => hq) (.of_actors rfl)
  unregister _ _ _ h :=
    h.of_frame rfl (Nat.le_refl _) (Nat.le_refl _) (fun _ hq => hq) (.of_actors rfl)
  makeRef _ _ h :=
    h.of_frame rfl (Nat.le_succ _) (Nat.le_refl _) (fun _ hq => hq) (.of_actors rfl)

theorem Reachable.monitorInv (hs : s.Reachable) : s.MonitorInv :=
  MonitorInv.stable.reachable MonitorInv.create hs

theorem ReachableKnown.monitorsExact (hs : s.ReachableKnown) : s.MonitorsExact :=
  MonitorsExact.guarded.reachableKnown MonitorsExact.create hs

/-- The host may name an observer that has not been spawned yet: the entry is installed, and the
process later spawned under that pid does not hold it. -/
theorem monitor_before_observer_spawn :
    let s := (((create {}).perform (.spawn fun _ => .finish (.ok ()))).perform (.monitor 2 1)).perform
      (.spawn fun _ => .finish (.ok ()))
    s.Reachable ∧ s.alive 2 = true ∧ s.monitors.get? 1 = some ⟨2, 1⟩ ∧
      (s.find? 2).map (·.monitors) = some [] := by
  refine ⟨.perform _ (.perform _ (.perform _ (.create _ _))), ?_, ?_, ?_⟩ <;> decide

/-! ## References never come back -/

/-- The entries of `s` under references handed out by the time of `s₀` are entries of `s₀`. -/
structure RefsFixed (s₀ s : System) : Prop where
  nextRef : s₀.nextRef ≤ s.nextRef
  entries : ∀ e ∈ s.monitors.entries, e.1 ≤ s₀.nextRef → e ∈ s₀.monitors.entries

theorem RefsFixed.of_subset {s₀ : System} (h : RefsFixed s₀ s) (href : s.nextRef ≤ s'.nextRef)
    (hsub : ∀ e ∈ s'.monitors.entries, e ∈ s.monitors.entries) : RefsFixed s₀ s' :=
  ⟨Nat.le_trans h.nextRef href, fun e he hle => h.entries e (hsub e he) hle⟩

theorem mem_of_mem_release_monitors {e : Nat × Monitor}
    (he : e ∈ (s.release pid reason).1.monitors.entries) : e ∈ s.monitors.entries := by
  cases hpa : s.find? pid with
  | none => rwa [release_of_find?_none hpa] at he
  | some a => exact ((mem_release_monitors hpa).1 he).1

theorem mem_of_mem_demonitor_monitors {e : Nat × Monitor}
    (he : e ∈ (s.demonitor ref).2.monitors.entries) : e ∈ s.monitors.entries := by
  rw [demonitor_eq] at he
  split at he
  · exact List.mem_of_mem_filter he
  · exact he

/-- Monitors take fresh references only, so no reference comes back into the table and no entry
changes. -/
theorem refsFixed_stable (s₀ : System) : Stable (RefsFixed s₀) where
  update _ _ _ _ _ _ h := h.of_subset (Nat.le_refl _) fun _ he => he
  quiet _ _ _ _ href _ htable _ h := h.of_subset (Nat.le_of_eq href.symm) fun _ he => htable ▸ he
  spawn _ _ _ h := h.of_subset (Nat.le_of_eq nextRef_spawn.symm) fun _ he => by rwa [monitors_spawn] at he
  release _ _ _ _ h :=
    h.of_subset (Nat.le_of_eq nextRef_release.symm) fun _ he => mem_of_mem_release_monitors he
  monitor s observer observed _ h := by
    refine ⟨Nat.le_trans h.nextRef (by rw [nextRef_monitor]; exact Nat.le_succ _), fun e he hle => ?_⟩
    rw [monitor_eq] at he
    split at he
    · rcases MonitorTable.mem_insert he with he | rfl
      · exact h.entries e he hle
      · -- the fresh reference is above every reference handed out by the time of `s₀`
        have hle : s.nextRef + 1 ≤ s₀.nextRef := hle
        have := h.nextRef
        omega
    · exact h.entries e he hle
  demonitor _ _ _ h :=
    h.of_subset (Nat.le_of_eq nextRef_demonitor.symm) fun _ he => mem_of_mem_demonitor_monitors he
  register _ _ _ _ _ hs h := by
    obtain ⟨-, r, -, rfl⟩ := register_eq_ok.1 hs
    exact h.of_subset (Nat.le_refl _) fun _ he => he
  unregister _ _ _ h := h.of_subset (Nat.le_refl _) fun _ he => he
  makeRef _ _ h := h.of_subset (Nat.le_succ _) fun _ he => he

/-! ## What monitors tell -/

/-- `demonitor` answers whether the reference is installed, and leaves it uninstalled. -/
theorem demonitor_answers (ref : Nat) :
    (s.demonitor ref).1 = (s.monitors.get? ref).isSome ∧
      (s.demonitor ref).2.monitors.get? ref = none := by
  cases hm : s.monitors.get? ref with
  | none => simp [demonitor_eq, hm]
  | some m =>
    simp only [demonitor_eq, hm, Option.isSome_some, true_and]
    exact MonitorTable.get?_eq_none_iff.2 fun e he => by simpa using (List.mem_filter.1 he).2

/-- A monitor of a process that is not live installs nothing, and sends the observer `:DOWN` with
`noproc` at once under the reference it returns, which it hands out. -/
theorem monitor_noproc (hq : s.alive observed = false) :
    (s.monitor observer observed).2.monitors = s.monitors ∧
      (s.monitor observer observed).1 = (s.monitor observer observed).2.nextRef ∧
      ((s.monitor observer observed).2.find? observer).map (·.mailbox.messages) =
        (s.find? observer).map (·.mailbox.messages ++
          [ExitReason.noproc.downMessage (s.monitor observer observed).1 observed]) := by
  have href : (s.monitor observer observed).1 = s.nextRef + 1 := by
    rw [monitor_eq]
    split <;> rfl
  rw [href, monitor_of_not_alive hq]
  refine ⟨rfl, rfl, ?_⟩
  have hfind : ({ s with nextRef := s.nextRef + 1 } : System).find? observer = s.find? observer := rfl
  rw [find?_deliver, if_pos rfl, hfind]
  cases s.find? observer <;> simp [Actor.deliver, Mailbox.deliver]

/-- The end of a live process records the reason it ends with. -/
theorem exitReason?_release (hw : s.Wf) {a : Actor} (ha : s.find? pid = some a) :
    (s.release pid reason).1.exitReason? pid = some reason := by
  have hnone : s.exitReason? pid = none := by
    refine exitReason?_eq_none_iff.2 fun hp => ?_
    obtain ⟨e, he, hep⟩ := List.mem_map.1 hp
    have hdead := hw.exited_dead e he
    rw [hep, alive_iff.2 ⟨a, ha⟩] at hdead
    cases hdead
  rw [release_of_find? ha]
  simp only [exitReason?] at hnone ⊢
  simp [List.lookup_append, hnone]

/-- The end of a live process records its reason, and sends every other live process one
`:DOWN` with that reason for each monitor the process held on it, each reference once; those
entries leave the table. -/
theorem MonitorInv.release_down (h : s.MonitorInv) (hw : s.Wf) {a : Actor} (ha : a ∈ s.actors)
    (reason : ExitReason) :
    (s.release a.pid reason).1.exitReason? a.pid = some reason ∧
      ∀ o ∈ s.actors, o.pid ≠ a.pid → ∃ refs : List Nat, refs.Nodup ∧
        (∀ r, r ∈ refs ↔ s.monitors.get? r = some ⟨o.pid, a.pid⟩) ∧
        ((s.release a.pid reason).1.find? o.pid).map (·.mailbox.messages) =
          some (o.mailbox.messages ++ refs.map (reason.downMessage · a.pid)) ∧
        ∀ r ∈ refs, (s.release a.pid reason).1.monitors.get? r = none := by
  have hpa : s.find? a.pid = some a := (Actors.find?_eq_some_iff hw.nodup).2 ⟨ha, rfl⟩
  refine ⟨exitReason?_release hw hpa, fun o ho hop => ?_⟩
  obtain ⟨taken, hnd, htaken, hact⟩ := h.exists_release_taken reason hpa
  have hrefs : ∀ r, r ∈ (taken.filter (·.2 == o.pid)).map (·.1) ↔
      s.monitors.get? r = some ⟨o.pid, a.pid⟩ := fun r =>
    (h.mem_observerRefs hpa htaken hop).trans (MonitorTable.get?_eq_some_iff h.nodup).symm
  -- the other process is still live, changed by `afterExit`
  have hfind : (s.release a.pid reason).1.find? o.pid = some (afterExit a reason taken o) := by
    refine (Actors.find?_eq_some_iff (hw.release a.pid reason).nodup).2 ⟨?_, afterExit_pid _ _ _ _⟩
    rw [hact]
    exact List.mem_map.2 ⟨o, List.mem_filter.2 ⟨ho, by simpa using hop⟩, rfl⟩
  refine ⟨_, hnd.sublist (List.filter_sublist.map _), hrefs, ?_, fun r hr => ?_⟩
  · rw [hfind, Option.map_some, afterExit_messages]
  · -- an entry left under that reference would be the one observing the ended process
    refine MonitorTable.get?_eq_none_iff.2 fun e he her => ?_
    obtain ⟨he, -, hobs⟩ := (mem_release_monitors hpa).1 he
    have hr := (MonitorTable.get?_eq_some_iff h.nodup).1 ((hrefs r).1 hr)
    rw [← her] at hr
    exact hobs (congrArg Monitor.observed (MonitorTable.eq_of_mem h.nodup he hr))

/-! ## The principal result -/

/-- The monitors of a reachable state. The table observes live processes only, and every
reference a live process holds is an entry naming it as the observer; when every observer the
host named had been handed out, a live process holds exactly the entries naming it. No reference
comes back into the table and no entry changes. `demonitor` answers whether a reference is
installed and uninstalls it. The end of a live process records its reason and sends each other
live process, once for each monitor it held on the ended one, `:DOWN` with that reason, and those
entries leave the table. A monitor of a process that is not live installs nothing and sends
`:DOWN` with `noproc` under the reference it hands out. -/
theorem monitors_consistent (hs : s.Reachable) :
    (∀ r m, s.monitors.get? r = some m → s.alive m.observed = true) ∧
    (∀ a ∈ s.actors, ∀ r ∈ a.monitors, ∃ q, s.monitors.get? r = some ⟨a.pid, q⟩) ∧
    (s.ReachableKnown → ∀ a ∈ s.actors, ∀ r,
      r ∈ a.monitors ↔ ∃ q, s.monitors.get? r = some ⟨a.pid, q⟩) ∧
    (∀ s', Leads s s' → ∀ r m, r ≤ s.nextRef → s'.monitors.get? r = some m →
      s.monitors.get? r = some m) ∧
    (∀ ref, (s.demonitor ref).1 = (s.monitors.get? ref).isSome ∧
      (s.demonitor ref).2.monitors.get? ref = none) ∧
    (∀ a ∈ s.actors, ∀ reason, (s.release a.pid reason).1.exitReason? a.pid = some reason ∧
      ∀ o ∈ s.actors, o.pid ≠ a.pid → ∃ refs : List Nat, refs.Nodup ∧
        (∀ r, r ∈ refs ↔ s.monitors.get? r = some ⟨o.pid, a.pid⟩) ∧
        ((s.release a.pid reason).1.find? o.pid).map (·.mailbox.messages) =
          some (o.mailbox.messages ++ refs.map (reason.downMessage · a.pid)) ∧
        ∀ r ∈ refs, (s.release a.pid reason).1.monitors.get? r = none) ∧
    (∀ observer observed, s.alive observed = false →
      (s.monitor observer observed).2.monitors = s.monitors ∧
      (s.monitor observer observed).1 = (s.monitor observer observed).2.nextRef ∧
      ((s.monitor observer observed).2.find? observer).map (·.mailbox.messages) =
        (s.find? observer).map (·.mailbox.messages ++
          [ExitReason.noproc.downMessage (s.monitor observer observed).1 observed])) := by
  have h := hs.monitorInv
  have hget : ∀ {r m}, s.monitors.get? r = some m ↔ (r, m) ∈ s.monitors.entries :=
    MonitorTable.get?_eq_some_iff h.nodup
  have hheld : ∀ a ∈ s.actors, ∀ r ∈ a.monitors, ∃ q, s.monitors.get? r = some ⟨a.pid, q⟩ :=
    fun a ha r hr => (h.held a ha r hr).imp fun _ hq => hget.2 hq
  refine ⟨fun r m hm => h.observed _ (hget.1 hm), hheld, fun hk a ha r => ?_, fun s' hl r m hr hm => ?_,
    demonitor_answers, fun a ha reason => h.release_down hs.wf ha reason,
    fun _ _ hq => monitor_noproc hq⟩
  · refine ⟨hheld a ha r, fun ⟨q, hq⟩ => ?_⟩
    exact hk.monitorsExact.installed _ (hget.1 hq) a ha rfl
  · -- the entries of later states under references already handed out are entries of `s`
    have hfix := (refsFixed_stable s).leads hs ⟨Nat.le_refl _, fun e he _ => he⟩ hl
    have hm' := (MonitorTable.get?_eq_some_iff (hs.leads hl).monitorInv.nodup).1 hm
    exact hget.2 (hfix.entries _ hm' hr)

/-- Two processes spawned by the host, the second monitoring the first. -/
def monitoredPair : System :=
  (((create .default).perform (.spawn fun _ => .finish (.ok ()))).perform
    (.spawn fun _ => .finish (.ok ()))).perform (.monitor 2 1)

theorem monitors_consistent_monitoredPair :
    monitoredPair.Reachable ∧ monitoredPair.ReachableKnown ∧
    monitoredPair.monitors.get? 1 = some ⟨2, 1⟩ ∧
    ((∀ r m, monitoredPair.monitors.get? r = some m → monitoredPair.alive m.observed = true) ∧
    (∀ a ∈ monitoredPair.actors, ∀ r ∈ a.monitors, ∃ q,
      monitoredPair.monitors.get? r = some ⟨a.pid, q⟩) ∧
    (monitoredPair.ReachableKnown → ∀ a ∈ monitoredPair.actors, ∀ r,
      r ∈ a.monitors ↔ ∃ q, monitoredPair.monitors.get? r = some ⟨a.pid, q⟩) ∧
    (∀ s', Leads monitoredPair s' → ∀ r m, r ≤ monitoredPair.nextRef →
      s'.monitors.get? r = some m → monitoredPair.monitors.get? r = some m) ∧
    (∀ ref, (monitoredPair.demonitor ref).1 = (monitoredPair.monitors.get? ref).isSome ∧
      (monitoredPair.demonitor ref).2.monitors.get? ref = none) ∧
    (∀ a ∈ monitoredPair.actors, ∀ reason,
      (monitoredPair.release a.pid reason).1.exitReason? a.pid = some reason ∧
      ∀ o ∈ monitoredPair.actors, o.pid ≠ a.pid → ∃ refs : List Nat, refs.Nodup ∧
        (∀ r, r ∈ refs ↔ monitoredPair.monitors.get? r = some ⟨o.pid, a.pid⟩) ∧
        ((monitoredPair.release a.pid reason).1.find? o.pid).map (·.mailbox.messages) =
          some (o.mailbox.messages ++ refs.map (reason.downMessage · a.pid)) ∧
        ∀ r ∈ refs, (monitoredPair.release a.pid reason).1.monitors.get? r = none) ∧
    (∀ observer observed, monitoredPair.alive observed = false →
      (monitoredPair.monitor observer observed).2.monitors = monitoredPair.monitors ∧
      (monitoredPair.monitor observer observed).1 =
        (monitoredPair.monitor observer observed).2.nextRef ∧
      ((monitoredPair.monitor observer observed).2.find? observer).map (·.mailbox.messages) =
        (monitoredPair.find? observer).map (·.mailbox.messages ++
          [ExitReason.noproc.downMessage (monitoredPair.monitor observer observed).1 observed]))) := by
  have hs : monitoredPair.Reachable := .perform _ (.perform _ (.perform _ (.create _ _)))
  have hk : monitoredPair.ReachableKnown :=
    .perform _ (.perform _ (.perform _ (.create _ _) trivial) trivial) (by show 2 ≤ _; decide)
  exact ⟨hs, hk, by decide, monitors_consistent hs⟩

end System

end ActorCore
