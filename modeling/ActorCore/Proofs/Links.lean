import ActorCore.Proofs.Frame
import ActorCore.Proofs.Reachable

/-!
# Links are symmetric

Each live process keeps its own list of the processes it is linked to, and every operation that
touches links updates the two sides one after the other: linking inserts each side into the
other's list, unlinking erases each from the other's, and the end of a process erases it from
the list of every process it was linked to. This module shows that, whatever the host and the
processes do, the two sides never disagree.

The invariant `System.Wf` says that pids are distinct and below the pid counter, that ended pids
are not live, and that the link relation `System.links` is ascending in each list, irreflexive
and symmetric; a link to a pid that is not live is then impossible, since such a pid has no
links. Each operation keeps it: one lemma for the operations that leave pids, links, the pid
counter and the exits alone (`Wf.of_frame`), one each for spawning, linking, unlinking and
ending a process, and from these the exit cascade, every request a process can make, a turn
of a process, and every host call.

Principal result: `System.links_symmetric` — in every reachable state the link relation is
symmetric, irreflexive, and relates live processes only.
-/

namespace ActorCore

theorem mem_insertAscending {n x : Nat} {l : List Nat} :
    x ∈ insertAscending n l ↔ x = n ∨ x ∈ l := by
  induction l with
  | nil => simp [insertAscending]
  | cons m ms ih =>
    simp only [insertAscending]
    split
    · simp
    · split
      · rename_i h
        subst h
        simp
      · simp only [List.mem_cons, ih, or_left_comm]

theorem pairwise_insertAscending {n : Nat} {l : List Nat} (h : l.Pairwise (· < ·)) :
    (insertAscending n l).Pairwise (· < ·) := by
  induction l with
  | nil => simp [insertAscending]
  | cons m ms ih =>
    rw [List.pairwise_cons] at h
    simp only [insertAscending]
    split
    · rename_i hlt
      refine List.Pairwise.cons ?_ (List.Pairwise.cons h.1 h.2)
      intro y hy
      rcases List.mem_cons.1 hy with rfl | hy
      · exact hlt
      · exact Nat.lt_trans hlt (h.1 y hy)
    · split
      · exact List.Pairwise.cons h.1 h.2
      · rename_i hge hne
        refine List.Pairwise.cons ?_ (ih h.2)
        intro y hy
        rcases mem_insertAscending.1 hy with rfl | hy
        · omega
        · exact h.1 y hy

namespace System

variable {s s' : System} {p q pid : Nat} {a : Actor} {f : Actor → Actor}

/-! ## The link relation -/

/-- The pids a process is linked to; none for a pid that is not live. -/
def links (s : System) (p : Nat) : List Nat :=
  ((s.find? p).map (·.links)).getD []

theorem links_of_find? (h : s.find? p = some a) : s.links p = a.links := by
  simp [links, h]

theorem links_of_find?_none (h : s.find? p = none) : s.links p = [] := by
  simp [links, h]

theorem alive_of_mem_links (h : q ∈ s.links p) : s.alive p = true := by
  cases hf : s.find? p with
  | none => simp [links_of_find?_none hf] at h
  | some a => exact alive_iff.2 ⟨a, hf⟩

theorem alive_iff_mem_pids : s.alive p = true ↔ p ∈ s.actors.map Actor.pid := by
  simp [alive, Actors.alive, List.any_eq_true]

theorem links_update (hf : ∀ a, a.pid = pid → (f a).pid = pid) :
    (s.update pid f).links q =
      if q = pid then ((s.find? q).map fun a => (f a).links).getD [] else s.links q := by
  rw [links, find?_update hf]
  split <;> simp [links, Function.comp_def]

theorem pids_update (hf : ∀ a, a.pid = pid → (f a).pid = pid) :
    (s.update pid f).actors.map Actor.pid = s.actors.map Actor.pid := by
  simp only [update, Actors.update, List.map_map]
  apply List.map_congr_left
  intro a _
  by_cases h : a.pid = pid <;> simp [h, hf a]

/-! ## The invariant -/

/-- Pids are distinct and counted, ended pids are not live, and links are ascending, irreflexive
and symmetric. -/
structure Wf (s : System) : Prop where
  nodup : (s.actors.map Actor.pid).Nodup
  pid_le : ∀ a ∈ s.actors, a.pid ≤ s.nextPid
  exited_le : ∀ e ∈ s.exited, e.1 ≤ s.nextPid
  exited_dead : ∀ e ∈ s.exited, s.alive e.1 = false
  sorted : ∀ p, (s.links p).Pairwise (· < ·)
  irrefl : ∀ p, p ∉ s.links p
  symm : ∀ p q, q ∈ s.links p → p ∈ s.links q

theorem Wf.alive_of_mem_links (h : s.Wf) (hq : q ∈ s.links p) : s.alive q = true :=
  System.alive_of_mem_links (h.symm p q hq)

theorem Wf.nodup_links (h : s.Wf) (p : Nat) : (s.links p).Nodup :=
  (h.sorted p).imp Nat.ne_of_lt

theorem Wf.create (c : Config) (allocate : StackAllocation) : (System.createOn c allocate).Wf where
  nodup := by simp [System.createOn]
  pid_le := by simp [System.createOn]
  exited_le := by simp [System.createOn]
  exited_dead := by simp [System.createOn]
  sorted := by simp [System.createOn, links, find?, Actors.find?]
  irrefl := by simp [System.createOn, links, find?, Actors.find?]
  symm := by simp [System.createOn, links, find?, Actors.find?]

/-- An operation that keeps the pids, does not lower the pid counter, keeps the exits, and leaves
links that are still ascending, irreflexive and symmetric keeps the invariant. -/
theorem Wf.of_links (h : s.Wf) (hpids : s'.actors.map Actor.pid = s.actors.map Actor.pid)
    (hnext : s.nextPid ≤ s'.nextPid) (hexited : s'.exited = s.exited)
    (hsorted : ∀ p, (s'.links p).Pairwise (· < ·)) (hirrefl : ∀ p, p ∉ s'.links p)
    (hsymm : ∀ p q, q ∈ s'.links p → p ∈ s'.links q) : s'.Wf where
  nodup := hpids ▸ h.nodup
  pid_le := by
    intro a ha
    have : a.pid ∈ s.actors.map Actor.pid := hpids ▸ List.mem_map_of_mem ha
    obtain ⟨b, hb, hba⟩ := List.mem_map.1 this
    rw [← hba]
    exact Nat.le_trans (h.pid_le b hb) hnext
  exited_le := by
    intro e he
    exact Nat.le_trans (h.exited_le e (hexited ▸ he)) hnext
  exited_dead := by
    intro e he
    have := h.exited_dead e (hexited ▸ he)
    rw [Bool.eq_false_iff] at this ⊢
    rwa [Ne, alive_iff_mem_pids, hpids, ← alive_iff_mem_pids]
  sorted := hsorted
  irrefl := hirrefl
  symm := hsymm

/-- An operation that leaves the pids, the links, the pid counter and the exits as they were
keeps the invariant. -/
theorem Wf.of_frame (h : s.Wf) (hpids : s'.actors.map Actor.pid = s.actors.map Actor.pid)
    (hlinks : ∀ p, s'.links p = s.links p) (hnext : s'.nextPid = s.nextPid)
    (hexited : s'.exited = s.exited) : s'.Wf :=
  h.of_links hpids (Nat.le_of_eq hnext.symm) hexited (fun p => hlinks p ▸ h.sorted p)
    (fun p => hlinks p ▸ h.irrefl p)
    (fun p q hq => by
      rw [hlinks] at hq ⊢
      exact h.symm p q hq)

/-- An operation that leaves the table of processes, the pid counter and the exits alone keeps the
invariant. -/
theorem Wf.of_actors (h : s.Wf) (hact : s'.actors = s.actors) (hnext : s'.nextPid = s.nextPid)
    (hexited : s'.exited = s.exited) : s'.Wf :=
  h.of_frame (by rw [hact]) (fun p => by simp [links, find?, hact]) hnext hexited

/-- An update that rewrites the links of its process by `g` changes that process's links only. -/
theorem links_update_of (hf : ∀ a, a.pid = pid → (f a).pid = pid) (g : List Nat → List Nat)
    (hl : ∀ a, s.find? pid = some a → (f a).links = g a.links) :
    (s.update pid f).links q = if q = pid ∧ s.alive q = true then g (s.links q) else s.links q := by
  rw [links_update hf]
  by_cases hq : q = pid
  · subst hq
    cases hfq : s.find? q with
    | none => simp [links_of_find?_none hfq, alive_iff, hfq]
    | some a => simp [links_of_find? hfq, hl a hfq, alive_iff, hfq]
  · simp [hq]

/-- An update that keeps the pid and the links of the process it rewrites keeps the invariant. -/
theorem Wf.update (h : s.Wf) (hf : ∀ a, a.pid = pid → (f a).pid = pid)
    (hl : ∀ a, s.find? pid = some a → (f a).links = a.links) : (s.update pid f).Wf :=
  h.of_frame (pids_update hf) (fun q => by rw [links_update_of hf id hl]; split <;> rfl) rfl rfl

theorem Wf.deliver (h : s.Wf) (pid : Nat) (m : Term) : (s.deliver pid m).Wf :=
  h.update (fun _ h => h) (fun _ _ => rfl)

theorem Wf.enqueue (h : s.Wf) (pid : Nat) (t : Task) : (s.enqueue pid t).Wf :=
  h.update (fun _ h => h) (fun _ _ => rfl)

/-! ## Spawning, linking, unlinking and ending a process -/

/-- A spawned process has no links, and no other process's links change. -/
theorem links_spawn (body : Nat → Program) (q : Nat) : (s.spawn body).2.links q = s.links q := by
  simp only [System.spawn]
  split
  · simp only [links, find?, Actors.find?, List.find?_append]
    cases hf : List.find? (fun x : Actor => x.pid == q) s.actors with
    | none =>
      simp only [Option.none_or, List.find?_cons, List.find?_nil]
      split <;> rfl
    | some a => rfl
  · rfl

theorem Wf.spawn (h : s.Wf) (body : Nat → Program) : (s.spawn body).2.Wf := by
  have hfresh : ∀ a ∈ s.actors, a.pid < s.nextPid + 1 := fun a ha =>
    Nat.lt_succ_of_le (h.pid_le a ha)
  have hlinks := links_spawn (s := s) body
  revert hlinks
  simp only [System.spawn]
  split
  · intro hlinks
    refine ⟨?_, ?_, ?_, ?_, fun p => hlinks p ▸ h.sorted p, fun p => hlinks p ▸ h.irrefl p,
      fun p q hq => by rw [hlinks] at hq ⊢; exact h.symm p q hq⟩
    · simp only [List.map_append, List.map_cons, List.map_nil]
      refine List.nodup_append.2 ⟨h.nodup, by simp, ?_⟩
      intro x hx y hy
      obtain ⟨b, hb, rfl⟩ := List.mem_map.1 hx
      rw [List.mem_singleton.1 hy]
      exact Nat.ne_of_lt (hfresh b hb)
    · intro a ha
      rcases List.mem_append.1 ha with ha | ha
      · exact Nat.le_succ_of_le (h.pid_le a ha)
      · obtain rfl := List.mem_singleton.1 ha
        exact Nat.le_refl _
    · intro e he
      exact Nat.le_succ_of_le (h.exited_le e he)
    · intro e he
      have hle := h.exited_le e he
      have hdead := h.exited_dead e he
      simp only [alive, Actors.alive, List.any_append, List.any_cons, List.any_nil, Bool.or_false,
        Bool.or_eq_false_iff] at hdead ⊢
      exact ⟨hdead, by simp; omega⟩
  · intro hlinks
    refine ⟨h.nodup, fun a ha => Nat.le_succ_of_le (h.pid_le a ha), ?_, ?_, h.sorted, h.irrefl,
      h.symm⟩
    · intro e he
      rcases List.mem_append.1 he with he | he
      · exact Nat.le_succ_of_le (h.exited_le e he)
      · obtain rfl := List.mem_singleton.1 he
        exact Nat.le_refl _
    · intro e he
      rcases List.mem_append.1 he with he | he
      · exact h.exited_dead e he
      · rw [List.mem_singleton.1 he, Bool.eq_false_iff, Ne, alive_iff_mem_pids]
        intro hmem
        obtain ⟨b, hb, hbe⟩ := List.mem_map.1 hmem
        exact absurd (hfresh b hb) (by simp [hbe])

/-- Rewriting the links of one process by `g`. -/
theorem links_setLinks (g : List Nat → List Nat) :
    (s.update pid fun x => { x with links := g x.links }).links q =
      if q = pid ∧ s.alive q = true then g (s.links q) else s.links q := by
  apply links_update_of
  · exact fun _ h => h
  · exact fun _ _ => rfl

theorem alive_setLinks (g : List Nat → List Nat) :
    (s.update pid fun x => { x with links := g x.links }).alive q = s.alive q := by
  apply alive_update
  exact fun _ h => h

theorem pids_setLinks (g : List Nat → List Nat) :
    (s.update pid fun x => { x with links := g x.links }).actors.map Actor.pid =
      s.actors.map Actor.pid := by
  apply pids_update
  exact fun _ h => h

/-- Linking two distinct processes rewrites the links of one, then of the other. -/
theorem linkActors_eq {a b : Nat} (hab : a ≠ b) :
    ({ s with actors := s.actors.link a b } : System) =
      (s.update a fun x => { x with links := insertAscending b x.links }).update b
        fun x => { x with links := insertAscending a x.links } := by
  simp only [Actors.link, hab, if_false]
  rfl

theorem links_linkActors {a b : Nat} (hab : a ≠ b) (ha : s.alive a = true)
    (hb : s.alive b = true) (p q : Nat) :
    q ∈ ({ s with actors := s.actors.link a b } : System).links p ↔
      q ∈ s.links p ∨ (p = a ∧ q = b) ∨ (p = b ∧ q = a) := by
  rw [linkActors_eq hab, links_setLinks, alive_setLinks, links_setLinks]
  by_cases hpb : p = b
  · subst hpb
    simp [hb, Ne.symm hab, mem_insertAscending, or_comm]
  · by_cases hpa : p = a
    · subst hpa
      simp [ha, hab, mem_insertAscending, or_comm]
    · simp [hpa, hpb]

theorem Wf.linkActors (h : s.Wf) {a b : Nat} (ha : s.alive a = true) (hb : s.alive b = true) :
    ({ s with actors := s.actors.link a b } : System).Wf := by
  by_cases hab : a = b
  · subst hab
    simpa [Actors.link] using h
  have hmem := links_linkActors hab ha hb
  have hupd := linkActors_eq (s := s) hab
  refine h.of_links ?_ (Nat.le_refl _) rfl ?_ ?_ ?_
  · rw [hupd, pids_setLinks, pids_setLinks]
  · intro p
    rw [hupd, links_setLinks]
    split
    · apply pairwise_insertAscending
      rw [links_setLinks]
      split
      · exact pairwise_insertAscending (h.sorted _)
      · exact h.sorted _
    · rw [links_setLinks]
      split
      · exact pairwise_insertAscending (h.sorted _)
      · exact h.sorted _
  · intro p hp
    rcases (hmem p p).1 hp with hp | ⟨rfl, rfl⟩ | ⟨rfl, rfl⟩
    · exact h.irrefl p hp
    · exact hab rfl
    · exact hab rfl
  · intro p q hq
    apply (hmem q p).2
    rcases (hmem p q).1 hq with hq | ⟨rfl, rfl⟩ | ⟨rfl, rfl⟩
    · exact Or.inl (h.symm p q hq)
    · exact Or.inr (Or.inr ⟨rfl, rfl⟩)
    · exact Or.inr (Or.inl ⟨rfl, rfl⟩)

/-- Unlinking two processes erases each from the other's links. -/
theorem unlink_eq (a b : Nat) :
    s.unlink a b = (s.update a fun x => { x with links := x.links.erase b }).update b
      fun x => { x with links := x.links.erase a } :=
  rfl

theorem links_unlink (h : s.Wf) (a b p q : Nat) :
    q ∈ (s.unlink a b).links p ↔ q ∈ s.links p ∧ ¬(p = a ∧ q = b) ∧ ¬(p = b ∧ q = a) := by
  have hnd := h.nodup_links p
  rw [unlink_eq, links_setLinks (·.erase a), alive_setLinks (·.erase b), links_setLinks (·.erase b)]
  cases hp : s.alive p
  · have hnil : s.links p = [] := by
      cases hfp : s.find? p with
      | none => exact links_of_find?_none hfp
      | some x => simp [alive_iff.2 ⟨x, hfp⟩] at hp
    simp [hnil]
  · have herase : ∀ x y, x ∈ (s.links p).erase y ↔ x ≠ y ∧ x ∈ s.links p :=
      fun _ _ => hnd.mem_erase_iff
    have herase' : ∀ x y, x ∈ ((s.links p).erase b).erase y ↔ x ≠ y ∧ x ∈ (s.links p).erase b :=
      fun _ _ => (hnd.erase b).mem_erase_iff
    by_cases hpb : p = b <;> by_cases hpa : p = a <;> simp only [hpa, hpb, true_and, and_true,
      and_self, if_true, if_false] <;> grind

theorem Wf.unlink (h : s.Wf) (a b : Nat) : (s.unlink a b).Wf := by
  have hmem := links_unlink h a b
  refine h.of_links ?_ (Nat.le_refl _) rfl ?_ ?_ ?_
  · rw [unlink_eq, pids_setLinks (·.erase a), pids_setLinks (·.erase b)]
  · intro p
    rw [unlink_eq, links_setLinks (·.erase a), alive_setLinks (·.erase b), links_setLinks (·.erase b)]
    have hs := h.sorted p
    split
    · apply List.Pairwise.sublist List.erase_sublist
      split
      · exact hs.sublist List.erase_sublist
      · exact hs
    · split
      · exact hs.sublist List.erase_sublist
      · exact hs
  · intro p hp
    exact h.irrefl p ((hmem p p).1 hp).1
  · intro p q hq
    obtain ⟨hq, h₁, h₂⟩ := (hmem p q).1 hq
    exact (hmem q p).2 ⟨h.symm p q hq, fun ⟨e₁, e₂⟩ => h₂ ⟨e₂, e₁⟩, fun ⟨e₁, e₂⟩ => h₁ ⟨e₂, e₁⟩⟩

/-- The end of a process removes it, and every link to it. -/
theorem links_release (h : s.Wf) {a : Actor} (hf : s.find? pid = some a) (r : ExitReason)
    (p q : Nat) :
    q ∈ (s.release pid r).1.links p ↔ q ∈ s.links p ∧ p ≠ pid ∧ q ≠ pid := by
  obtain ⟨taken, hfind⟩ := find?_release hf r
  have ha : a.pid = pid := Actors.pid_of_find? hf
  have hal : a.links = s.links pid := (links_of_find? hf).symm
  unfold links
  rw [hfind p]
  by_cases hp : p = pid
  · simp [hp]
  · cases hfp : s.find? p with
    | none => simp
    | some o =>
      have ho : o.pid = p := Actors.pid_of_find? hfp
      have hol : o.links = s.links p := (links_of_find? hfp).symm
      have hnd := h.nodup_links p
      simp only [hp, if_false, Option.map_some, Option.getD_some, afterExit_eq, ha, hal, ho, hol,
        ne_eq, not_false_eq_true, true_and]
      split
      · rw [hnd.mem_erase_iff]
        exact and_comm
      · rename_i hnot
        refine ⟨fun hq => ⟨hq, fun hqp => ?_⟩, fun hq => hq.1⟩
        subst hqp
        exact hnot (List.elem_iff.2 (h.symm p q hq))

theorem links_release_sublist {a : Actor} (hf : s.find? pid = some a) (r : ExitReason) (p : Nat) :
    ((s.release pid r).1.links p).Sublist (s.links p) := by
  obtain ⟨taken, hfind⟩ := find?_release hf r
  unfold links
  rw [hfind p]
  split
  · exact List.nil_sublist _
  · cases s.find? p with
    | none => exact List.Sublist.refl _
    | some o =>
      simp only [Option.map_some, Option.getD_some, afterExit_eq]
      split
      · exact List.erase_sublist
      · exact List.Sublist.refl _

theorem pids_release {a : Actor} (hf : s.find? pid = some a) (r : ExitReason) :
    (s.release pid r).1.actors.map Actor.pid = (s.actors.map Actor.pid).filter (· != pid) := by
  rw [release_of_find? hf]
  simp only [List.map_map, List.filter_map]
  congr 1
  funext o
  simp

theorem Wf.release (h : s.Wf) (pid : Nat) (r : ExitReason) : (s.release pid r).1.Wf := by
  cases hf : s.find? pid with
  | none => rwa [release_of_find?_none hf]
  | some a =>
    have hmem := links_release h hf r
    have hpids := pids_release hf r
    have hle : pid ≤ s.nextPid := Actors.pid_of_find? hf ▸ h.pid_le a (Actors.mem_of_find? hf)
    refine ⟨?_, ?_, ?_, ?_, ?_, ?_, ?_⟩
    · rw [hpids]
      exact h.nodup.sublist List.filter_sublist
    · intro o ho
      have : o.pid ∈ (s.actors.map Actor.pid).filter (· != pid) := hpids ▸ List.mem_map_of_mem ho
      obtain ⟨b, hb, hbo⟩ := List.mem_map.1 (List.mem_filter.1 this).1
      rw [release_of_find? hf]
      exact hbo ▸ h.pid_le b hb
    · rw [release_of_find? hf]
      intro e he
      rcases List.mem_append.1 he with he | he
      · exact h.exited_le e he
      · rw [List.mem_singleton.1 he]
        exact hle
    · intro e he
      have hex : (s.release pid r).1.exited = s.exited ++ [(pid, r)] := by
        rw [release_of_find? hf]
      rw [hex] at he
      rcases List.mem_append.1 he with he | he
      · cases hl : (s.release pid r).1.alive e.1
        · rfl
        · have := h.exited_dead e he
          rw [alive_of_alive_release hl] at this
          cases this
      · rw [List.mem_singleton.1 he, alive_release hf]
        simp
    · intro p
      exact (h.sorted p).sublist (links_release_sublist hf r p)
    · intro p hp
      exact h.irrefl p ((hmem p p).1 hp).1
    · intro p q hq
      obtain ⟨hq, hp, hq'⟩ := (hmem p q).1 hq
      exact (hmem q p).2 ⟨h.symm p q hq, hq', hp⟩

theorem Wf.propagate (h : s.Wf) (signals : List Signal) : (s.propagate signals).Wf := by
  induction s, signals using propagate.induct with
  | case1 s => rwa [System.propagate]
  | case2 s sg rest hf ih =>
    rw [System.propagate, hf]
    exact ih h
  | case3 s sg rest a hf hact ih =>
    rw [System.propagate, hf]
    simp only [hact]
    exact ih (h.deliver _ _)
  | case4 s sg rest a hf r hact ih =>
    rw [System.propagate, hf]
    simp only [hact]
    exact ih (h.release _ _)

theorem Wf.terminate (h : s.Wf) (pid : Nat) (r : ExitReason) : (s.terminate pid r).Wf :=
  (h.release pid r).propagate _

theorem Wf.signalExit (h : s.Wf) (sender : Option Nat) (target : Nat) (r : ExitReason) :
    (s.signalExit sender target r).Wf :=
  h.propagate _

theorem Wf.link (h : s.Wf) (a b : Nat) : (s.link a b).Wf := by
  unfold System.link
  split
  · rename_i ha hb
    exact h.linkActors ha hb
  · exact h.signalExit _ _ _
  · exact h.signalExit _ _ _
  · exact h

/-! ## Operations that leave links alone -/

theorem Wf.makeRef (h : s.Wf) : s.makeRef.2.Wf :=
  h.of_actors rfl rfl rfl

theorem Wf.sendAfter (h : s.Wf) (pid : Nat) (m : Term) (after : Nat) : (s.sendAfter pid m after).Wf :=
  h.of_actors rfl rfl rfl

theorem Wf.send (h : s.Wf) {dest : Dest} {m : Term} (hs : s.send dest m = .ok s') : s'.Wf := by
  simp only [System.send, bind, Except.bind] at hs
  split at hs
  · cases hs
  · cases hs
    exact h.deliver _ _

theorem Wf.monitor (h : s.Wf) (observer observed : Nat) : (s.monitor observer observed).2.Wf := by
  have h1 := h.makeRef
  unfold System.monitor
  generalize s.makeRef = m at h1 ⊢
  obtain ⟨ref, s1⟩ := m
  dsimp only at h1 ⊢
  split
  · refine Wf.update ?_ (fun _ h => h) (fun _ _ => rfl)
    exact h1.of_actors rfl rfl rfl
  · exact h1.deliver _ _

theorem Wf.demonitor (h : s.Wf) (ref : Nat) : (s.demonitor ref).2.Wf := by
  unfold System.demonitor
  split
  · refine Wf.update ?_ (fun _ h => h) (fun _ _ => rfl)
    exact h.of_actors rfl rfl rfl
  · exact h

theorem Wf.register (h : s.Wf) {name : String} {pid : Nat} (hs : s.register name pid = .ok s') :
    s'.Wf := by
  unfold System.register at hs
  split at hs
  · cases hr : s.registry.register name pid with
    | error e => simp [hr, Except.map] at hs
    | ok r =>
      simp only [hr, Except.map, Except.ok.injEq] at hs
      subst hs
      exact h.of_actors rfl rfl rfl
  · cases hs

theorem Wf.unregister (h : s.Wf) (name : String) : (s.unregister name).2.Wf :=
  h.of_actors rfl rfl rfl

theorem Actor.setFlag_pid (a : Actor) (flag : String) (v : Term) : (a.setFlag flag v).2.pid = a.pid := by
  unfold Actor.setFlag
  split <;> rfl

theorem Actor.setFlag_links (a : Actor) (flag : String) (v : Term) :
    (a.setFlag flag v).2.links = a.links := by
  unfold Actor.setFlag
  split <;> rfl

theorem Wf.processFlag (h : s.Wf) (pid : Nat) (flag : String) (v : Term) :
    (s.processFlag pid flag v).2.Wf := by
  unfold System.processFlag
  split
  · rename_i a ha
    have hpid : a.pid = pid := Actors.pid_of_find? ha
    refine h.update (fun _ _ => (Actor.setFlag_pid a flag v).trans hpid) ?_
    intro x hx
    rw [ha] at hx
    cases hx
    exact Actor.setFlag_links _ _ _
  · exact h

theorem Wf.withDictionary {α : Type} (h : s.Wf) (pid : Nat) (f : TermMap → α × TermMap) :
    (s.withDictionary pid f).2.Wf := by
  unfold System.withDictionary
  split
  · exact h.update (fun _ h => h) (fun _ _ => rfl)
  · exact h

/-! ## The scheduler -/

theorem Wf.popTask (h : s.Wf) {pid : Nat} {t : Task} (hp : s.popTask pid = some (t, s')) : s'.Wf := by
  unfold System.popTask at hp
  split at hp
  · split at hp
    · cases hp
      exact h.update (fun _ h => h) (fun _ _ => rfl)
    · cases hp
  · cases hp

theorem Wf.beginReceive (h : s.Wf) (pid : Nat) (clauses : List Clause) (deadline : Option Nat) :
    (s.beginReceive pid clauses deadline).2.Wf := by
  unfold System.beginReceive
  split
  · exact h
  · split
    · exact h.terminate _ _
    · exact h.update (fun _ h => h) (fun _ _ => rfl)
    · split
      · exact h
      · split <;> dsimp only <;> refine Wf.update ?_ (fun _ h => h) (fun _ _ => rfl) <;>
          exact h.of_actors rfl rfl rfl

/-- Every operation of the interface keeps the invariant. -/
theorem Wf.keeps : Keeps Wf where
  spawn _ body h := h.spawn body
  link _ a b h := h.link a b
  unlink _ a b h := h.unlink a b
  monitor _ a b h := h.monitor a b
  demonitor _ ref h := h.demonitor ref
  send _ _ _ _ h hs := h.send hs
  sendAfter _ pid msg after h := h.sendAfter pid msg after
  signalExit _ sender target reason h := h.signalExit sender target reason
  register _ _ _ _ h hs := h.register hs
  unregister _ name h := h.unregister name
  processFlag _ pid flag value h := h.processFlag pid flag value
  withDictionary _ pid f h := h.withDictionary pid f
  makeRef _ h := h.makeRef

theorem Wf.handle (h : s.Wf) (pid : Nat) (req : Request) : (s.handle pid req).2.Wf := by
  cases req with
  | receive clauses after =>
    rw [System.handle]
    exact h.beginReceive _ _ _
  | sleep ms =>
    rw [System.handle]
    refine Wf.of_actors (s := s.update pid fun a => { a with status := .sleeping }) ?_ rfl rfl rfl
    exact h.update (fun _ h => h) (fun _ _ => rfl)
  | _ => exact Wf.keeps.handle h pid trivial

theorem Wf.resume (h : s.Wf) (pid : Nat) (r : Reply) : (s.resume pid r).2.Wf := by
  simp only [System.resume]
  split
  · exact h
  · rename_i a _
    have h1 : ({ s with trace := s.trace ++ ((a.cont r).advance.1.map fun n =>
        ({ pid, note := n } : Entry)) }.update pid fun a => { a with status := .running }).Wf := by
      refine Wf.update ?_ (fun _ h => h) (fun _ _ => rfl)
      exact h.of_actors rfl rfl rfl
    split
    · exact h1.update (fun _ h => h) (fun _ _ => rfl)
    · exact h1.terminate _ _
    · exact h1.terminate _ _
    · exact h1

theorem Wf.retryReceive (h : s.Wf) (pid : Nat) : (s.retryReceive pid).2.Wf := by
  simp only [System.retryReceive]
  split
  · exact h
  · split
    · exact h
    · split
      · exact h
      · rename_i r mb _
        have h1 : (s.update pid fun a => { a with mailbox := mb, pending := none }).Wf :=
          h.update (fun _ h => h) (fun _ _ => rfl)
        split
        · exact h1.of_actors rfl rfl rfl
        · exact h1
      · exact h.terminate _ _

theorem Wf.runTasks (pid : Nat) :
    ∀ (n used : Nat) (s : System), s.Wf → (runTasks pid n used s).2.Wf :=
  runTasks_keeps_served (fun s _ => s.Wf) pid (fun _ _ _ h hpop => h.popTask hpop)
    (fun _ _ h hpop => (h.popTask hpop).retryReceive pid) (fun _ _ r h hres => by simpa only [hres] using h.resume pid r)
    (fun _ _ r _ h hres => by simpa only [hres] using h.resume pid r) fun s req h => by
      -- the answer, if any, is queued as the next task
      split
      · exact (h.handle pid req).enqueue _ _
      · exact h.handle pid req

theorem Wf.runSlice (h : s.Wf) (pid limit : Nat) : (s.runSlice pid limit).2.Wf :=
  (Wf.runTasks pid limit 0 s h).update (fun _ h => h) (fun _ _ => rfl)

theorem Wf.fire (h : s.Wf) (e : TimerEvent) : (s.fire e).Wf := by
  cases e with
  | wake pid =>
    simp only [System.fire]
    split
    · exact h.enqueue _ _
    · exact h
  | receiveTimeout pid token =>
    simp only [System.fire]
    split
    · refine Wf.enqueue ?_ _ _
      exact h.update (fun _ h => h) (fun _ _ => rfl)
    · exact h
  | deliver pid msg => exact h.deliver _ _

theorem Wf.tick (h : s.Wf) : s.tick.2.Wf :=
  tick_keeps Wf (fun _ pid n h => h.runSlice pid n) s h

theorem Wf.fireTimers (h : s.Wf) : s.fireTimers.Wf :=
  fireTimers_keeps Wf (fun s₀ e q h _ => by
    have h1 : ({ s₀ with timers := q } : System).Wf := h.of_actors rfl rfl rfl
    exact h1.fire e) s h

theorem Wf.runUntilIdle (h : s.Wf) : s.runUntilIdle.Wf :=
  runUntilIdle_keeps Wf (fun _ h => h.fireTimers) (fun _ h => h.tick) s h

theorem Wf.run (h : s.Wf) : s.run.Wf :=
  run_keeps Wf (fun _ h => h.runUntilIdle)
    (pruneStaleTimers_keeps Wf fun _ _ _ h _ _ => h.of_actors rfl rfl rfl)
    (fun _ _ h => h.of_actors rfl rfl rfl) s h

/-! ## Every reachable state -/

theorem Wf.perform (h : s.Wf) (call : Call) : (s.perform call).Wf :=
  Wf.keeps.perform (fun _ h => h.tick) (fun _ h => h.runUntilIdle) (fun _ h => h.run)
    (fun _ _ h => h.of_actors rfl rfl rfl) h call

theorem Reachable.wf (hs : s.Reachable) : s.Wf := by
  induction hs with
  | create c allocate => exact Wf.create c allocate
  | perform call _ ih => exact ih.perform call

/-- **Links are symmetric.** In every state a host can reach, whatever the programs of its
processes, `q` is among the links of `p` exactly when `p` is among the links of `q`, no process
is linked to itself, and only live processes are linked. -/
theorem links_symmetric (hs : s.Reachable) :
    (∀ p q, q ∈ s.links p ↔ p ∈ s.links q) ∧ (∀ p, p ∉ s.links p) ∧
      ∀ p q, q ∈ s.links p → s.alive p = true ∧ s.alive q = true := by
  have h := hs.wf
  refine ⟨fun p q => ⟨h.symm p q, h.symm q p⟩, h.irrefl, fun p q hq => ?_⟩
  exact ⟨alive_of_mem_links hq, h.alive_of_mem_links hq⟩

/-- Two processes that return at once, spawned by the host and then linked. -/
def linkedPair : System :=
  (((create .default).perform (.spawn fun _ => .finish (.ok ()))).perform
    (.spawn fun _ => .finish (.ok ()))).perform (.link 1 2)

theorem links_symmetric_linkedPair :
    linkedPair.Reachable ∧ 2 ∈ linkedPair.links 1 ∧
      ((∀ p q, q ∈ linkedPair.links p ↔ p ∈ linkedPair.links q) ∧ (∀ p, p ∉ linkedPair.links p) ∧
        ∀ p q, q ∈ linkedPair.links p → linkedPair.alive p = true ∧ linkedPair.alive q = true) := by
  have hs : linkedPair.Reachable := .perform _ (.perform _ (.perform _ (.create _ _)))
  exact ⟨hs, by decide, links_symmetric hs⟩

end System

end ActorCore
