import ActorCore.Proofs.Stable

/-!
# The name registry is a bijection onto live processes

The registry binds names to processes. A registration checks that the process is live, that the
name is free and that the process has no name yet; the end of a process drops its name. This
module shows that the two directions of the registry, from a name to its process (`whereis`) and
from a process to its name (`nameOf`), stay inverse to each other and name live processes only,
whatever the host and the processes do; that a registration that fails changes nothing; and that
the name of an ended process stays free until it is registered again.

* `Registry.Wf` — each name and each pid is bound at most once; `whereis` and `nameOf` are then
  inverse (`Registry.whereis_iff_nameOf`).
* `Registry.Step`, `Registry.Trace` — the registry changes by registering, unregistering and
  dropping the name of a process only. Along a trace that registers no name `n`, a binding of
  `n` is at most dropped, never made (`Registry.Trace.whereis_of_whereis`).
* `System.RegistryInv` — the registry is well formed and binds live processes only; the primitive
  changes of state keep it (`System.RegistryInv.stable`), and every later registry follows from
  an earlier one by a trace (`System.traceFrom_stable`).

Principal result: `System.registry_bijective`.
-/

namespace ActorCore

/-- With distinct keys, looking a key up finds the one value it has. -/
theorem lookup_eq_some_iff_mem {α β : Type} [BEq α] [LawfulBEq α] {l : List (α × β)} {k : α}
    {v : β} (hnd : (l.map Prod.fst).Nodup) : l.lookup k = some v ↔ (k, v) ∈ l := by
  induction l with
  | nil => simp
  | cons b rest ih =>
    obtain ⟨k', v'⟩ := b
    rw [List.map_cons, List.nodup_cons] at hnd
    by_cases hk : k = k'
    · subst hk
      simp only [List.lookup_cons, beq_self_eq_true, Option.some.injEq, List.mem_cons,
        Prod.mk.injEq, true_and]
      refine ⟨fun h => Or.inl h.symm, fun h => h.elim Eq.symm fun hmem => ?_⟩
      exact absurd (List.mem_map_of_mem (f := Prod.fst) hmem) hnd.1
    · have hne : (k == k') = false := by simpa using hk
      simp only [List.lookup_cons, hne, List.mem_cons, Prod.mk.injEq, hk, false_and, false_or]
      exact ih hnd.2

theorem mem_of_lookup_eq_some {α β : Type} [BEq α] [LawfulBEq α] {l : List (α × β)} {k : α}
    {v : β} (h : l.lookup k = some v) : (k, v) ∈ l := by
  obtain ⟨l₁, l₂, rfl, -⟩ := List.lookup_eq_some_iff.1 h
  simp

/-- A list without repeated keys keeps none when an item with a new key is appended. -/
theorem nodup_map_append_singleton {α β : Type} {f : α → β} {l : List α} {x : α}
    (hnd : (l.map f).Nodup) (hx : f x ∉ l.map f) : ((l ++ [x]).map f).Nodup := by
  rw [List.map_append]
  refine List.nodup_append.2 ⟨hnd, by simp, ?_⟩
  intro a ha b hb hab
  simp only [List.map_cons, List.map_nil, List.mem_singleton] at hb
  exact hx (hb ▸ hab ▸ ha)

namespace Registry

variable {r r' : Registry} {n name : String} {p q pid : Nat} {e : String × Nat}

/-! ## Lookups in a registry without repeats -/

/-- With distinct pids, the binding found for a pid is the one binding it has. -/
theorem find?_eq_some_iff_mem {l : List (String × Nat)} (hnd : (l.map Prod.snd).Nodup) :
    l.find? (·.2 == p) = some e ↔ e ∈ l ∧ e.2 = p := by
  refine ⟨fun h => ⟨List.mem_of_find?_eq_some h, by simpa using List.find?_some h⟩, ?_⟩
  rintro ⟨he, rfl⟩
  induction l with
  | nil => cases he
  | cons b rest ih =>
    rw [List.map_cons, List.nodup_cons] at hnd
    rcases List.mem_cons.1 he with rfl | he'
    · simp
    · have hb : b.2 ≠ e.2 := fun hb => hnd.1 (hb ▸ List.mem_map_of_mem he')
      simpa [List.find?_cons, hb] using ih hnd.2 he'

/-- Each name and each pid is bound at most once. -/
structure Wf (r : Registry) : Prop where
  names : (r.entries.map Prod.fst).Nodup
  pids : (r.entries.map Prod.snd).Nodup

theorem Wf.empty : ({} : Registry).Wf where
  names := List.nodup_nil
  pids := List.nodup_nil

theorem whereis_eq_some_iff (h : r.Wf) : r.whereis n = some p ↔ (n, p) ∈ r.entries :=
  lookup_eq_some_iff_mem h.names

theorem nameOf_eq_some_iff (h : r.Wf) : r.nameOf p = some n ↔ (n, p) ∈ r.entries := by
  unfold nameOf
  rw [Option.map_eq_some_iff]
  constructor
  · rintro ⟨e, he, rfl⟩
    obtain ⟨hmem, rfl⟩ := (find?_eq_some_iff_mem h.pids).1 he
    exact hmem
  · intro hmem
    exact ⟨(n, p), (find?_eq_some_iff_mem h.pids).2 ⟨hmem, rfl⟩, rfl⟩

/-- In a well-formed registry a name names a process exactly when the process holds that name. -/
theorem whereis_iff_nameOf (h : r.Wf) : r.whereis n = some p ↔ r.nameOf p = some n := by
  rw [whereis_eq_some_iff h, nameOf_eq_some_iff h]

theorem whereis_eq_none_iff : r.whereis n = none ↔ n ∉ r.entries.map Prod.fst := by
  simp only [whereis, List.lookup_eq_none_iff, bne_iff_ne, ne_eq, List.mem_map, not_exists, not_and]
  exact ⟨fun h e he hn => h e he hn.symm, fun h e he hn => h e he hn.symm⟩

theorem nameOf_eq_none_iff : r.nameOf p = none ↔ p ∉ r.entries.map Prod.snd := by
  simp only [nameOf, Option.map_eq_none_iff, List.find?_eq_none, beq_iff_eq, List.mem_map,
    not_exists, not_and]

/-! ## The operations -/

/-- A registration succeeds exactly when the name is free and the process has no name, and then
it adds that one binding. -/
theorem register_eq_ok :
    r.register name pid = .ok r' ↔
      r.whereis name = none ∧ r.nameOf pid = none ∧ r' = ⟨r.entries ++ [(name, pid)]⟩ := by
  unfold register
  split
  · rename_i owner hw
    simp [hw]
  · rename_i hw
    split
    · rename_i ex hn
      simp [hw, hn]
    · rename_i hn
      simp only [Except.ok.injEq, hw, hn, true_and]
      exact eq_comm

/-- A registration fails on a name that is taken, checked first, or on a process that already
has a name. -/
theorem register_eq_error {err : RuntimeError} :
    r.register name pid = .error err ↔
      (∃ owner, r.whereis name = some owner ∧ err = .nameTaken name owner) ∨
        (r.whereis name = none ∧ ∃ ex, r.nameOf pid = some ex ∧ err = .alreadyRegistered ex pid) := by
  unfold register
  split
  · rename_i owner hw
    simp only [Except.error.injEq, hw, Option.some.injEq, exists_eq_left', reduceCtorEq, false_and,
      or_false]
    exact eq_comm
  · rename_i hw
    split
    · rename_i ex hn
      simp only [Except.error.injEq, hw, hn, Option.some.injEq, exists_eq_left', reduceCtorEq,
        false_and, exists_false, true_and, false_or]
      exact eq_comm
    · rename_i hn
      simp [hw, hn]

theorem mem_register (hr : r.register name pid = .ok r') : e ∈ r'.entries ↔ e ∈ r.entries ∨ e = (name, pid) := by
  obtain ⟨-, -, rfl⟩ := register_eq_ok.1 hr
  simp

theorem unregister_sublist (name : String) : (r.unregister name).2.entries.Sublist r.entries := by
  unfold unregister
  split
  · exact List.filter_sublist
  · exact List.Sublist.refl _

theorem mem_unregister (name : String) : e ∈ (r.unregister name).2.entries ↔ e ∈ r.entries ∧ e.1 ≠ name := by
  unfold unregister
  split
  · simp
  · rename_i hw
    refine ⟨fun he => ⟨he, fun h1 => ?_⟩, fun he => he.1⟩
    exact whereis_eq_none_iff.1 hw (h1 ▸ List.mem_map_of_mem he)

theorem mem_cleanup (pid : Nat) : e ∈ (r.cleanup pid).entries ↔ e ∈ r.entries ∧ e.2 ≠ pid := by
  simp [cleanup]

theorem Wf.sublist (h : r.Wf) (hs : r'.entries.Sublist r.entries) : r'.Wf where
  names := h.names.sublist (hs.map _)
  pids := h.pids.sublist (hs.map _)

theorem Wf.register (h : r.Wf) (hr : r.register name pid = .ok r') : r'.Wf := by
  obtain ⟨hw, hn, rfl⟩ := register_eq_ok.1 hr
  exact ⟨nodup_map_append_singleton h.names (whereis_eq_none_iff.1 hw),
    nodup_map_append_singleton h.pids (nameOf_eq_none_iff.1 hn)⟩

/-! ## How the registry changes -/

/-- One change of the registry, labelled with the name it binds, if any: a registration, a
removal by name, or the removal of the name of a process. -/
inductive Step : Option String → Registry → Registry → Prop
  | register {r r' : Registry} {name : String} {pid : Nat} :
      r.register name pid = .ok r' → Step (some name) r r'
  | unregister (r : Registry) (name : String) : Step none r (r.unregister name).2
  | cleanup (r : Registry) (pid : Nat) : Step none r (r.cleanup pid)

/-- The registry goes from one state to another by steps with these labels, in order. -/
inductive Trace : Registry → List (Option String) → Registry → Prop
  | nil (r : Registry) : Trace r [] r
  | snoc {r r₁ r₂ : Registry} {ls : List (Option String)} {l : Option String} :
      Trace r ls r₁ → Step l r₁ r₂ → Trace r (ls ++ [l]) r₂

theorem Step.wf {l : Option String} (hs : Step l r r') (h : r.Wf) : r'.Wf := by
  cases hs with
  | register hr => exact h.register hr
  | unregister _ name => exact h.sublist (unregister_sublist name)
  | cleanup _ pid => exact h.sublist List.filter_sublist

/-- A step that registers no `n` makes no binding of `n`. -/
theorem Step.whereis_of_whereis {l : Option String} (hs : Step l r r') (h : r.Wf) (hl : l ≠ some n)
    (hq : r'.whereis n = some q) : r.whereis n = some q := by
  rw [whereis_eq_some_iff (hs.wf h)] at hq
  rw [whereis_eq_some_iff h]
  cases hs with
  | register hr =>
    rcases (mem_register hr).1 hq with hq | hq
    · exact hq
    · obtain ⟨rfl, -⟩ := Prod.mk.inj hq
      exact absurd rfl hl
  | unregister _ name => exact ((mem_unregister name).1 hq).1
  | cleanup _ pid => exact ((mem_cleanup pid).1 hq).1

theorem Trace.wf {ls : List (Option String)} (ht : Trace r ls r') (h : r.Wf) : r'.Wf := by
  induction ht with
  | nil => exact h
  | snoc _ hs ih => exact hs.wf ih

/-- Along a trace that registers no `n`, every binding of `n` was there at the start: a name that
was free stays free until it is registered again. -/
theorem Trace.whereis_of_whereis {ls : List (Option String)} (ht : Trace r ls r') (h : r.Wf)
    (hn : some n ∉ ls) (hq : r'.whereis n = some q) : r.whereis n = some q := by
  induction ht with
  | nil => exact hq
  | snoc ht hs ih =>
    rw [List.mem_append, not_or, List.mem_singleton] at hn
    exact ih hn.1 (hs.whereis_of_whereis (ht.wf h) (Ne.symm hn.2) hq)

end Registry

namespace System

variable {s s' : System} {n : String} {p q pid : Nat}

/-! ## The invariant -/

/-- The registry is well formed and binds live processes only. -/
structure RegistryInv (s : System) : Prop where
  wf : s.registry.Wf
  alive : ∀ e ∈ s.registry.entries, s.alive e.2 = true

theorem RegistryInv.of_frame (h : RegistryInv s) (hreg : s'.registry = s.registry)
    (halive : ∀ q, s.alive q = true → s'.alive q = true) : RegistryInv s' where
  wf := hreg ▸ h.wf
  alive e he := halive _ (h.alive e (hreg ▸ he))

theorem registry_release {a : Actor} (hf : s.find? pid = some a) (r : ExitReason) :
    (s.release pid r).1.registry = s.registry.cleanup pid := by
  rw [release_of_find? hf]

theorem RegistryInv.release (h : RegistryInv s) (pid : Nat) (r : ExitReason) :
    RegistryInv (s.release pid r).1 := by
  cases hf : s.find? pid with
  | none => rwa [release_of_find?_none hf]
  | some a =>
    refine ⟨registry_release hf r ▸ h.wf.sublist List.filter_sublist, fun e he => ?_⟩
    rw [registry_release hf, Registry.mem_cleanup] at he
    rw [alive_release hf]
    simp [he.2, h.alive e he.1]

theorem RegistryInv.register {name : String} (h : RegistryInv s) (hs : s.register name pid = .ok s') :
    RegistryInv s' := by
  obtain ⟨hpid, r, hr, rfl⟩ := register_eq_ok.1 hs
  refine ⟨h.wf.register hr, fun e he => ?_⟩
  rcases (Registry.mem_register hr).1 he with he | rfl
  · exact h.alive e he
  · exact hpid

/-- The primitive changes of state keep the registry inverse and bound to live processes. -/
theorem RegistryInv.stable : Stable RegistryInv where
  update _ _ _ hpid _ _ h := h.of_frame rfl fun q hq => by
    rwa [alive_update fun a ha => (hpid a).trans ha]
  quiet _ _ hact _ _ hreg _ _ h := h.of_frame hreg fun q hq => by
    unfold System.alive
    rw [hact]
    exact hq
  spawn _ _ _ h := h.of_frame registry_spawn fun q hq => by simp [alive_spawn, hq]
  release _ pid r _ h := h.release pid r
  monitor _ _ _ _ h := h.of_frame registry_monitor fun q hq => by rwa [alive_monitor]
  demonitor _ _ _ h := h.of_frame registry_demonitor fun q hq => by rwa [alive_demonitor]
  register _ _ _ _ _ hs h := h.register hs
  unregister _ name _ h :=
    ⟨h.wf.sublist (Registry.unregister_sublist name),
      fun e he => h.alive e ((Registry.unregister_sublist name).subset he)⟩
  makeRef _ _ h := h.of_frame rfl fun _ hq => hq

theorem RegistryInv.create (c : Config) (allocate : StackAllocation) :
    RegistryInv (System.createOn c allocate) where
  wf := Registry.Wf.empty
  alive _ he := nomatch he

theorem Reachable.registryInv (hs : s.Reachable) : RegistryInv s :=
  RegistryInv.stable.reachable RegistryInv.create hs

/-- The registry of every later state follows from the registry of `s₀` by a trace. -/
theorem traceFrom_stable (s₀ : System) :
    Stable fun s => ∃ ls, Registry.Trace s₀.registry ls s.registry where
  update _ _ _ _ _ _ h := h
  quiet _ _ _ _ _ hreg _ _ h := by
    rw [hreg]
    exact h
  spawn _ _ _ h := by
    rw [registry_spawn]
    exact h
  release s pid r _ h := by
    obtain ⟨ls, ht⟩ := h
    cases hf : s.find? pid with
    | none => exact ⟨ls, by rw [release_of_find?_none hf]; exact ht⟩
    | some a =>
      rw [registry_release hf r]
      exact ⟨ls ++ [none], ht.snoc (.cleanup _ pid)⟩
  monitor _ _ _ _ h := by
    rw [registry_monitor]
    exact h
  demonitor _ _ _ h := by
    rw [registry_demonitor]
    exact h
  register _ _ _ _ _ hs h := by
    obtain ⟨ls, ht⟩ := h
    obtain ⟨-, r, hr, rfl⟩ := register_eq_ok.1 hs
    exact ⟨ls ++ [some _], ht.snoc (.register hr)⟩
  unregister _ name _ h := by
    obtain ⟨ls, ht⟩ := h
    exact ⟨ls ++ [none], ht.snoc (.unregister _ name)⟩
  makeRef _ _ h := h

/-! ## Registering, and the end of a process -/

/-- A registration fails on a process that is not live, and otherwise as the registry refuses
it. -/
theorem register_eq_error {name : String} {err : RuntimeError} :
    s.register name pid = .error err ↔
      (s.alive pid = false ∧ err = .raise (.tuple [.atom "noproc", .pid pid])) ∨
        (s.alive pid = true ∧ s.registry.register name pid = .error err) := by
  unfold System.register
  split
  · rename_i ha
    cases s.registry.register name pid <;> simp [Except.map, ha]
  · rename_i ha
    simp only [Except.error.injEq, ha, true_and, Bool.false_eq_true, false_and, or_false]
    exact eq_comm

/-- The end of a process frees its name: the name then names no process, and sending to it fails. -/
theorem release_frees_name (h : RegistryInv s) (hn : s.registry.whereis n = some p) (r : ExitReason)
    (m : Term) : (s.release p r).1.registry.whereis n = none ∧
      (s.release p r).1.send (.name n) m = .error (.unregisteredName n) := by
  have hp : s.alive p = true := h.alive (n, p) ((Registry.whereis_eq_some_iff h.wf).1 hn)
  obtain ⟨a, hf⟩ := alive_iff.1 hp
  have hfree : (s.release p r).1.registry.whereis n = none := by
    cases hw : (s.release p r).1.registry.whereis n with
    | none => rfl
    | some q =>
      have hwf : (s.registry.cleanup p).Wf := h.wf.sublist List.filter_sublist
      rw [registry_release hf, Registry.whereis_eq_some_iff hwf, Registry.mem_cleanup] at hw
      have hq := (Registry.whereis_eq_some_iff h.wf).2 hw.1
      rw [hn] at hq
      cases hq
      exact absurd rfl hw.2
  refine ⟨hfree, ?_⟩
  simp [send, resolve, hfree, bind, Except.bind]

/-- **The registry is a bijection onto live processes.** In every state a host can reach: a name
names a process exactly when the process holds that name, so each name names at most one process
and each process holds at most one name; every named process is live; a registration fails
exactly on a process that is not live, a taken name (checked first) or a process that has a name,
and a failed registration, by the host or by a process, changes nothing; the end of a process
frees its name, so sending to it fails; and in every later state, the registry follows by a
trace of its own operations, and along any such trace that registers the name of an ended
process no more, the name is free and sending to it fails. -/
theorem registry_bijective (hs : s.Reachable) :
    (∀ n p, s.registry.whereis n = some p ↔ s.registry.nameOf p = some n) ∧
    (∀ n p, s.registry.whereis n = some p → s.alive p = true) ∧
    (∀ name pid err, s.register name pid = .error err ↔
      (s.alive pid = false ∧ err = .raise (.tuple [.atom "noproc", .pid pid])) ∨
      (s.alive pid = true ∧ ∃ owner, s.registry.whereis name = some owner ∧
        err = .nameTaken name owner) ∨
      (s.alive pid = true ∧ s.registry.whereis name = none ∧
        ∃ ex, s.registry.nameOf pid = some ex ∧ err = .alreadyRegistered ex pid)) ∧
    (∀ name pid err, s.register name pid = .error err →
      s.perform (.register name pid) = s ∧ s.handle pid (.register name) = (.reply (.error err), s)) ∧
    (∀ n p r m, s.registry.whereis n = some p →
      (s.release p r).1.registry.whereis n = none ∧
        (s.release p r).1.send (.name n) m = .error (.unregisteredName n)) ∧
    ∀ s', s.Leads s' → (∃ ls, Registry.Trace s.registry ls s'.registry) ∧
      ∀ ls n p m, Registry.Trace s.registry ls s'.registry → s.registry.whereis n = some p →
        s'.alive p = false → some n ∉ ls →
        s'.registry.whereis n = none ∧ s'.send (.name n) m = .error (.unregisteredName n) := by
  have h := hs.registryInv
  refine ⟨fun n p => Registry.whereis_iff_nameOf h.wf, fun n p hn => ?_, fun name pid err => ?_,
    fun name pid err herr => ?_, fun n p r m hn => release_frees_name h hn r m, fun s' hl => ?_⟩
  · exact h.alive (n, p) ((Registry.whereis_eq_some_iff h.wf).1 hn)
  · rw [register_eq_error, Registry.register_eq_error]
    constructor
    · rintro (h1 | ⟨ha, h2 | h2⟩)
      · exact Or.inl h1
      · exact Or.inr (Or.inl ⟨ha, h2⟩)
      · exact Or.inr (Or.inr ⟨ha, h2⟩)
    · rintro (h1 | ⟨ha, h2⟩ | ⟨ha, h2⟩)
      · exact Or.inl h1
      · exact Or.inr ⟨ha, Or.inl h2⟩
      · exact Or.inr ⟨ha, Or.inr h2⟩
  · refine ⟨?_, ?_⟩
    · simp only [perform, herr]
    · simp only [handle, herr]
  · have h' := (hs.leads hl).registryInv
    refine ⟨(traceFrom_stable s).leads hs ⟨[], .nil _⟩ hl, fun ls n p m ht hn hp hls => ?_⟩
    -- a binding of `n` at the end was there at the start, where it named `p`, now ended
    have hfree : s'.registry.whereis n = none := by
      cases hw : s'.registry.whereis n with
      | none => rfl
      | some q =>
        have hq := ht.whereis_of_whereis h.wf hls hw
        rw [hn] at hq
        cases hq
        have := h'.alive (n, p) ((Registry.whereis_eq_some_iff h'.wf).1 hw)
        rw [hp] at this
        cases this
    refine ⟨hfree, ?_⟩
    simp [send, resolve, hfree, bind, Except.bind]

/-- A process that returns at once, spawned by the host and registered as `srv`. -/
def namedServer : System :=
  ((create .default).perform (.spawn fun _ => .finish (.ok ()))).perform (.register "srv" 1)

theorem registry_bijective_namedServer :
    namedServer.Reachable ∧ namedServer.registry.whereis "srv" = some 1 ∧
    ((∀ n p, namedServer.registry.whereis n = some p ↔ namedServer.registry.nameOf p = some n) ∧
    (∀ n p, namedServer.registry.whereis n = some p → namedServer.alive p = true) ∧
    (∀ name pid err, namedServer.register name pid = .error err ↔
      (namedServer.alive pid = false ∧ err = .raise (.tuple [.atom "noproc", .pid pid])) ∨
      (namedServer.alive pid = true ∧ ∃ owner, namedServer.registry.whereis name = some owner ∧
        err = .nameTaken name owner) ∨
      (namedServer.alive pid = true ∧ namedServer.registry.whereis name = none ∧
        ∃ ex, namedServer.registry.nameOf pid = some ex ∧ err = .alreadyRegistered ex pid)) ∧
    (∀ name pid err, namedServer.register name pid = .error err →
      namedServer.perform (.register name pid) = namedServer ∧
        namedServer.handle pid (.register name) = (.reply (.error err), namedServer)) ∧
    (∀ n p r m, namedServer.registry.whereis n = some p →
      (namedServer.release p r).1.registry.whereis n = none ∧
        (namedServer.release p r).1.send (.name n) m = .error (.unregisteredName n)) ∧
    ∀ s', namedServer.Leads s' → (∃ ls, Registry.Trace namedServer.registry ls s'.registry) ∧
      ∀ ls n p m, Registry.Trace namedServer.registry ls s'.registry →
        namedServer.registry.whereis n = some p → s'.alive p = false → some n ∉ ls →
        s'.registry.whereis n = none ∧ s'.send (.name n) m = .error (.unregisteredName n)) := by
  have hs : namedServer.Reachable := .perform _ (.perform _ (.create _ _))
  exact ⟨hs, by decide, registry_bijective hs⟩

end System

end ActorCore
