import Mathlib
import ActorCore.Proofs.Registry

/-!
# The lifecycle of a process

A spawn hands out the next pid, so the pids handed out are `1` up to the pid counter. The new
process is live from then on, or it ends at once when its stack cannot be allocated; a live
process ends once, by `System.release`, which records its exit reason. This module shows that
there is no other way: in every reachable state no live pid has an exit reason, and every pid
handed out that is not live has one; and from any reachable state on, a recorded exit reason
never changes, while a pid that is no longer live never comes back: no process, link or name is
made for it again, and a task or a timer event for it does nothing.

* `System.Accounted` — live pids are positive, each pid is recorded at most once among the exits,
  and every pid handed out is live or recorded; the primitive changes keep it.
* `System.Reachable.not_exiting` — no live process is ever marked exiting.
* `System.Grows` — from a state to a later one, the exits only get longer and the pid counter
  only grows (`System.grows_stable`).
* `System.Gone` — a pid that is gone for good, and `System.gone_of_dead`: in a reachable state,
  every pid that is not live is gone; `System.gone_of_leads` — from a reachable state on, a pid
  handed out that is not live stays gone.

The same facts for the tables the runtime keeps per pid are in `ActorCore.Proofs.Tables`.
-/

-- Powers of naturals are core's `Nat.pow`, as in the definitions these lemmas are about.
attribute [local instance (2000)] instPowNat

namespace ActorCore

/-- The process a timer event is for. -/
def TimerEvent.target : TimerEvent → Nat
  | .wake pid | .receiveTimeout pid _ | .deliver pid _ => pid

namespace System

variable {s s' s₀ : System} {p q pid : Nat}

/-! ## Exit reasons -/

/-- With each pid recorded at most once, the exit reason of a pid is the one recorded for it. -/
theorem exitReason?_eq_some_iff (hnd : (s.exited.map Prod.fst).Nodup) {r : ExitReason} :
    s.exitReason? p = some r ↔ (p, r) ∈ s.exited :=
  lookup_eq_some_iff_mem hnd

theorem exitReason?_eq_none_iff : s.exitReason? p = none ↔ p ∉ s.exited.map Prod.fst := by
  simp only [exitReason?, List.lookup_eq_none_iff, bne_iff_ne, ne_eq, List.mem_map, not_exists,
    not_and]
  exact ⟨fun h e he hp => h e he hp.symm, fun h e he hp => h e he hp.symm⟩

/-! ## Every pid handed out is live or recorded -/

/-- Live pids are positive, each pid is recorded at most once among the exits, and every pid a
spawn handed out is live or recorded. -/
structure Accounted (s : System) : Prop where
  pos : ∀ p, s.alive p = true → 0 < p
  nodup : (s.exited.map Prod.fst).Nodup
  spawned : ∀ p, 0 < p → p ≤ s.nextPid → s.alive p = true ∨ p ∈ s.exited.map Prod.fst

theorem Accounted.of_frame (h : s.Accounted) (halive : ∀ q, s'.alive q = s.alive q)
    (hexited : s'.exited = s.exited) (hnext : s'.nextPid = s.nextPid) : s'.Accounted where
  pos q hq := h.pos q (halive q ▸ hq)
  nodup := hexited ▸ h.nodup
  spawned q hq hle := by
    rw [halive, hexited]
    exact h.spawned q hq (hnext ▸ hle)

theorem Accounted.spawn (h : s.Accounted) (hw : s.Wf) (body : Nat → Program) :
    (s.spawn body).2.Accounted := by
  have hfresh : s.nextPid + 1 ∉ s.exited.map Prod.fst := fun hmem => by
    obtain ⟨e, he, hep⟩ := List.mem_map.1 hmem
    have := hw.exited_le e he
    omega
  refine ⟨fun q hq => ?_, ?_, fun q hq hle => ?_⟩
  · rw [alive_spawn] at hq
    rcases Bool.or_eq_true_iff.1 hq with hq | hq
    · exact h.pos q hq
    · simp only [Bool.and_eq_true, beq_iff_eq] at hq
      omega
  · rw [exited_spawn]
    cases s.allocateStack (s.nextPid + 1) s.config.stackSize with
    | none => simpa using h.nodup
    | some text => exact nodup_map_append_singleton h.nodup hfresh
  · rw [spawn_nextPid] at hle
    rw [alive_spawn, exited_spawn]
    by_cases hnew : q = s.nextPid + 1
    · subst hnew
      cases s.allocateStack (s.nextPid + 1) s.config.stackSize <;> simp
    · have hle' : q ≤ s.nextPid := by omega
      rcases h.spawned q hq hle' with hq' | hq'
      · simp [hq']
      · right
        rw [List.map_append]
        exact List.mem_append_left _ hq'

theorem Accounted.release (h : s.Accounted) (hw : s.Wf) (pid : Nat) (r : ExitReason) :
    (s.release pid r).1.Accounted := by
  cases hf : s.find? pid with
  | none => rwa [release_of_find?_none hf]
  | some a =>
    have hex : (s.release pid r).1.exited = s.exited ++ [(pid, r)] := by
      rw [release_of_find? hf]
    have hlive : s.alive pid = true := alive_iff.2 ⟨a, hf⟩
    have hnew : pid ∉ s.exited.map Prod.fst := fun hmem => by
      obtain ⟨e, he, rfl⟩ := List.mem_map.1 hmem
      rw [hw.exited_dead e he] at hlive
      cases hlive
    refine ⟨fun q hq => ?_, ?_, fun q hq hle => ?_⟩
    · exact h.pos q (alive_of_alive_release hq)
    · rw [hex]
      exact nodup_map_append_singleton h.nodup hnew
    · rw [release_nextPid] at hle
      rw [alive_release hf, hex]
      by_cases hq' : q = pid
      · subst hq'
        simp
      · rcases h.spawned q hq hle with hq'' | hq''
        · simp [hq', hq'']
        · simp [hq'']

/-- The primitive changes of state keep every pid handed out live or recorded. -/
theorem Accounted.stable : Stable Accounted where
  update _ _ _ hpid _ _ h := h.of_frame (fun _ => alive_update fun a ha => (hpid a).trans ha) rfl rfl
  quiet _ _ hact hnext _ _ _ hexited h := h.of_frame (fun q => by unfold System.alive; rw [hact])
    hexited hnext
  spawn _ body hw h := h.spawn hw body
  release _ pid r hw h := h.release hw pid r
  monitor _ _ _ _ h := h.of_frame (fun _ => alive_monitor) exited_monitor nextPid_monitor
  demonitor _ _ _ h := h.of_frame (fun _ => alive_demonitor) exited_demonitor nextPid_demonitor
  register _ _ _ _ _ hs h := by
    obtain ⟨-, r, -, rfl⟩ := register_eq_ok.1 hs
    exact h.of_frame (fun _ => rfl) rfl rfl
  unregister _ _ _ h := h.of_frame (fun _ => rfl) rfl rfl
  makeRef _ _ h := h.of_frame (fun _ => rfl) rfl rfl

theorem Accounted.create (c : Config) (allocate : StackAllocation) :
    (System.createOn c allocate).Accounted where
  pos _ hq := by simp [System.createOn, alive, Actors.alive] at hq
  nodup := List.nodup_nil
  spawned _ hq hle := by simp [System.createOn] at hle; omega

theorem Reachable.accounted (hs : s.Reachable) : s.Accounted :=
  Accounted.stable.reachable Accounted.create hs

/-! ## No live process is marked exiting -/

/-- In every reachable state no live process has the status `exiting`: the scheduler never marks
a live process so. -/
theorem Reachable.not_exiting (hs : s.Reachable) : ∀ a ∈ s.actors, a.status ≠ .exiting :=
  ((stable_true.forall_actors (Q := fun a => a.status ≠ .exiting)
    (fun _ _ _ hc ha hb => ha (hc.status hb)) (fun _ _ _ _ => nofun)).reachable
    (fun _ _ => ⟨trivial, by simp [System.createOn]⟩) hs).2

/-! ## Exits only get longer -/

/-- From `s₀` to `s`, the exits only got longer and the pid counter only grew. -/
structure Grows (s₀ s : System) : Prop where
  exited : s₀.exited <+: s.exited
  nextPid : s₀.nextPid ≤ s.nextPid

theorem Grows.of_frame (h : Grows s₀ s) (hexited : s'.exited = s.exited)
    (hnext : s'.nextPid = s.nextPid) : Grows s₀ s' where
  exited := hexited ▸ h.exited
  nextPid := hnext ▸ h.nextPid

/-- The primitive changes of state only add exits and only count pids up. -/
theorem grows_stable (s₀ : System) : Stable (Grows s₀) where
  update _ _ _ _ _ _ h := h.of_frame rfl rfl
  quiet _ _ _ hnext _ _ _ hexited h := h.of_frame hexited hnext
  spawn s body _ h := by
    refine ⟨h.exited.trans ?_, by rw [spawn_nextPid]; exact Nat.le_succ_of_le h.nextPid⟩
    rw [exited_spawn]
    exact List.prefix_append _ _
  release s pid r _ h := by
    cases hf : s.find? pid with
    | none => rwa [release_of_find?_none hf]
    | some a =>
      refine ⟨h.exited.trans ?_, by rw [release_nextPid]; exact h.nextPid⟩
      rw [release_of_find? hf]
      exact List.prefix_append _ _
  monitor _ _ _ _ h := h.of_frame exited_monitor nextPid_monitor
  demonitor _ _ _ h := h.of_frame exited_demonitor nextPid_demonitor
  register _ _ _ _ _ hs h := by
    obtain ⟨-, r, -, rfl⟩ := register_eq_ok.1 hs
    exact h.of_frame rfl rfl
  unregister _ _ _ h := h.of_frame rfl rfl
  makeRef _ _ h := h.of_frame rfl rfl

/-- A recorded exit reason is kept when exits only get longer. -/
theorem Grows.exitReason? (h : Grows s₀ s) (hnd : (s.exited.map Prod.fst).Nodup) {r : ExitReason}
    (hr : s₀.exitReason? p = some r) : s.exitReason? p = some r := by
  obtain ⟨rest, hrest⟩ := h.exited
  rw [exitReason?_eq_some_iff hnd, ← hrest]
  exact List.mem_append_left _ (mem_of_lookup_eq_some hr)

/-! ## Gone for good -/

/-- A pid that is gone: no process has it, no process is linked to it, no name names it, and a
task or a timer event for it does nothing. -/
structure Gone (s : System) (p : Nat) : Prop where
  find : s.find? p = none
  links : ∀ q, p ∉ s.links q
  name : s.registry.nameOf p = none
  popTask : s.popTask p = none
  runSlice : ∀ n, s.runSlice p n = (0, s)
  fire : ∀ e : TimerEvent, e.target = p → s.fire e = s ∧ s.isLive e = false

theorem update_id : s.update pid id = s := by
  simp [update, Actors.update]

/-- An update of a pid that is not live changes nothing. -/
theorem update_of_find?_none (h : s.find? pid = none) (f : Actor → Actor) : s.update pid f = s := by
  have hno : ∀ a ∈ s.actors, a.pid ≠ pid := fun a ha hp => by
    have := List.find?_eq_none.1 h a ha
    simp [hp] at this
  calc s.update pid f = s.update pid id := update_congr fun a ha hp => absurd hp (hno a ha)
    _ = s := update_id

theorem popTask_of_find?_none (h : s.find? pid = none) : s.popTask pid = none := by
  unfold System.popTask
  rw [h]

theorem runTasks_of_find?_none (h : s.find? pid = none) (n used : Nat) :
    runTasks pid n used s = (used, s) := by
  cases n with
  | zero => rfl
  | succ n =>
    unfold System.runTasks
    rw [popTask_of_find?_none h]

/-- In a well-formed state, a pid that is not live and that no name names is gone. -/
theorem gone_of_dead (hw : s.Wf) (hr : RegistryInv s) (hp : s.alive p = false) : s.Gone p := by
  have hf : s.find? p = none := by
    cases hf : s.find? p with
    | none => rfl
    | some a => rw [alive_iff.2 ⟨a, hf⟩] at hp; cases hp
  refine ⟨hf, fun q hq => ?_, ?_, popTask_of_find?_none hf, fun n => ?_, fun e he => ?_⟩
  · rw [hw.alive_of_mem_links hq] at hp
    cases hp
  · cases hn : s.registry.nameOf p with
    | none => rfl
    | some n =>
      have := hr.alive (n, p) ((Registry.nameOf_eq_some_iff hr.wf).1 hn)
      rw [hp] at this
      cases this
  · simp only [runSlice, runTasks_of_find?_none hf, update_of_find?_none hf]
  · cases e with
    | wake x =>
      obtain rfl : x = p := he
      simp [fire, isLive, hf]
    | receiveTimeout x _ =>
      obtain rfl : x = p := he
      simp [fire, isLive, hf]
    | deliver x _ =>
      obtain rfl : x = p := he
      exact ⟨update_of_find?_none hf _, hp⟩

/-- From a reachable state on, a pid handed out that is not live is gone for good. -/
theorem gone_of_leads (hs : s.Reachable) (hl : s.Leads s') (hle : p ≤ s.nextPid)
    (hp : s.alive p = false) : s'.Gone p := by
  have hs' := hs.leads hl
  have hgrow := (grows_stable s).leads hs ⟨List.prefix_refl _, Nat.le_refl _⟩ hl
  apply gone_of_dead hs'.wf hs'.registryInv
  rcases Nat.eq_zero_or_pos p with rfl | hpos
  · cases h0 : s'.alive 0 with
    | false => rfl
    | true => exact absurd (hs'.accounted.pos 0 h0) (Nat.lt_irrefl 0)
  · rcases hs.accounted.spawned p hpos hle with h | h
    · rw [hp] at h
      cases h
    · obtain ⟨e, he, rfl⟩ := List.mem_map.1 h
      exact hs'.wf.exited_dead e (hgrow.exited.subset he)

end System

end ActorCore
