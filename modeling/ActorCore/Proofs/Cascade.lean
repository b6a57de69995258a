import ActorCore.Proofs.Links

/-!
# Exit cascades

When a process ends, every process linked to it gets an exit signal carrying its reason. A
signal ends a process that does not trap exits, whose own links then get signals, and reaches a
process that traps exits as an `{:EXIT, from, reason}` message (`System.propagate`, first in
first out). This module shows what the whole cascade does, whatever order the signals are
handled in.

The processes it ends are a closure: `System.LinkPath s passes d` holds of the processes reached
from `d` along links, every step into a process that `passes` admits. For a reason `Q` other
than a kill request, a signal ends a process exactly when `Q.ends` holds of it, and ends it with
the same reason, so the cascade of `d` ends exactly `LinkPath s Q.ends d`.

The proof carries `System.CascadeInv` through the signal queue: the processes ended so far are on
such a path and each was recorded once with `Q`; the links left are the old links between the
processes still live; and for every live process `p` and ended process `x` linked to it, the
`{:EXIT, x, Q}` message is either in the mailbox of `p` or still queued as a signal, exactly
once. A process that `Q.ends` never gets such a message, so once the queue is empty the ended
processes are closed under the path's steps.

Principal results: `System.terminate_cascade` — the end of a live process with any reason but a
kill request, stated as a `System.CascadeOutcome`; `System.signalExit_of_find?` — what one exit
signal does to a live process; `System.exit_cascade` — both, in every reachable state, for the
untrapped cascade of an abnormal reason and for a normal exit.
-/

namespace ActorCore

/-- Whether a term is an `{:EXIT, from, reason}` message from process `x`. -/
def Term.isExitFrom (x : Nat) : Term → Bool
  | .tuple [.atom "EXIT", .pid p, _] => p == x
  | _ => false

namespace ExitReason

variable {Q : ExitReason}

/-- An exit signal with reason `Q` ends the live process `b`, with that same reason. -/
def ends (Q : ExitReason) (b : Actor) : Prop :=
  Q.action b.trapExit = .terminate Q

@[simp] theorem isExitFrom_exitMessage (p x : Nat) :
    (Q.exitMessage (some p)).isExitFrom x = (p == x) := by
  simp [exitMessage, Term.isExitFrom]

@[simp] theorem isExitFrom_downMessage (ref p x : Nat) : (Q.downMessage ref p).isExitFrom x = false := by
  simp [downMessage, Term.isExitFrom]

/-- The action of a signal: a kill request ends its target as killed, another abnormal reason
ends a target that does not trap exits, and anything else is delivered. -/
theorem action_eq (t : Bool) :
    Q.action t =
      if Q.isKill then .terminate .killed
      else if !t && !Q.isNormal then .terminate Q
      else .deliver := by
  cases Q <;> cases t <;> rfl

/-- Apart from a kill request, a signal is delivered as a message or ends its target with its own
reason. -/
theorem action_of_ne_kill (hQ : Q ≠ .kill) (t : Bool) :
    Q.action t = .deliver ∨ Q.action t = .terminate Q := by
  cases Q <;> cases t <;> simp_all [action]

/-- A reason other than normal and a kill request ends exactly the processes that do not trap
exits. -/
theorem ends_iff (hn : Q ≠ .normal) (hk : Q ≠ .kill) (b : Actor) : Q.ends b ↔ b.trapExit = false := by
  unfold ends
  cases Q <;> cases b.trapExit <;> simp_all [action]

/-- A normal exit ends no other process. -/
theorem not_normal_ends (b : Actor) : ¬ ExitReason.normal.ends b := by
  simp [ends, action]

end ExitReason

namespace System

variable {s s₀ s' : System} {d p q x y : Nat} {a b : Actor} {Q : ExitReason}

/-! ## The closure -/

/-- `p` is reached from `d` by a path of links whose every process after `d` satisfies
`passes`. -/
inductive LinkPath (s : System) (passes : Actor → Prop) (d : Nat) : Nat → Prop
  | origin : LinkPath s passes d d
  | link {x y : Nat} {b : Actor} : LinkPath s passes d x → y ∈ s.links x → s.find? y = some b →
      passes b → LinkPath s passes d y

theorem LinkPath.alive {passes : Actor → Prop} (hs : s.Wf) (hd : s.alive d = true)
    (h : LinkPath s passes d p) : s.alive p = true := by
  induction h with
  | origin => exact hd
  | link _ hyx _ _ _ => exact hs.alive_of_mem_links hyx

/-- The path through the processes no signal ends is `d` alone. -/
theorem linkPath_iff_eq {passes : Actor → Prop} (hno : ∀ b, ¬ passes b) :
    LinkPath s passes d p ↔ p = d := by
  refine ⟨fun h => ?_, fun h => h ▸ .origin⟩
  cases h with
  | origin => rfl
  | link _ _ _ hb => exact absurd hb (hno _)

/-! ## Single signals -/

/-- What one exit signal does to a live process: a kill request ends it as killed; another
abnormal reason ends a process that does not trap exits with that reason; otherwise the signal
is appended to its mailbox as an `{:EXIT, from, reason}` message. -/
theorem signalExit_of_find? (h : s.find? y = some b) (sender : Option Nat) (R : ExitReason) :
    s.signalExit sender y R =
      if R.isKill then s.terminate y .killed
      else if !b.trapExit && !R.isNormal then s.terminate y R
      else s.deliver y (R.exitMessage sender) := by
  rw [signalExit, propagate, h]
  dsimp only
  -- the branches of the action are the branches of the statement
  rw [ExitReason.action_eq]
  by_cases hk : R.isKill = true
  · rw [if_pos hk, if_pos hk]
    rfl
  · rw [if_neg hk, if_neg hk]
    by_cases hend : (!b.trapExit && !R.isNormal) = true
    · rw [if_pos hend, if_pos hend]
      rfl
    · rw [if_neg hend, if_neg hend]
      dsimp only
      rw [propagate]

/-! ## The invariant of the signal queue -/

/-- The exit signals from `x` to `p` in a queue of signals. -/
def pendingExits (W : List Signal) (x p : Nat) : Nat :=
  W.countP fun sg => sg.sender == some x && sg.target == p

theorem pendingExits_cons (sg : Signal) (W : List Signal) :
    pendingExits (sg :: W) x p =
      pendingExits W x p + if sg.sender = some x ∧ sg.target = p then 1 else 0 := by
  by_cases h : sg.sender = some x ∧ sg.target = p <;> simp_all [pendingExits]

theorem pendingExits_append (W W' : List Signal) :
    pendingExits (W ++ W') x p = pendingExits W x p + pendingExits W' x p := by
  simp [pendingExits, List.countP_append]

/-- The signals an ended process `y` sends: one to each process it was linked to. -/
theorem pendingExits_map {l : List Nat} (hl : l.Nodup) :
    pendingExits (l.map fun z => ⟨some y, z, Q⟩) x p = if y = x ∧ p ∈ l then 1 else 0 := by
  simp only [pendingExits, List.countP_map, Function.comp_def]
  by_cases hx : y = x
  · have hc : l.countP (fun z => z == p) = l.count p := by
      simp [List.count]
    simp [hx, hc, hl.count]
  · simp [hx]

/-- The state `s` of the exit cascade that began in `s₀` when `d` ended with reason `Q`, with the
signals `W` still to handle. A process still live traps exits as it did at the start, and the
messages appended to its mailbox (`added`) hold, from each ended process `x` linked to it, the one
`{:EXIT, x, Q}` message that is not still queued as a signal, and no exit messages at all when `Q`
ends it. -/
structure CascadeInv (s₀ : System) (Q : ExitReason) (d : Nat) (s : System) (W : List Signal) :
    Prop where
  wf : s.Wf
  alive_start : ∀ p, s.alive p = true → s₀.alive p = true
  ended_path : ∀ p, s₀.alive p = true → s.alive p = false → LinkPath s₀ Q.ends d p
  exited : ∃ ended : List Nat, ended.Nodup ∧
    (∀ p, p ∈ ended ↔ s₀.alive p = true ∧ s.alive p = false) ∧
    s.exited = s₀.exited ++ ended.map (·, Q)
  links : ∀ p q, q ∈ s.links p ↔ q ∈ s₀.links p ∧ s.alive p = true ∧ s.alive q = true
  signals : ∀ sg ∈ W, sg.reason = Q ∧ ∃ x, sg.sender = some x ∧ s₀.alive x = true ∧ s.alive x = false
  actors : ∀ p a, s.find? p = some a → ∃ a₀ added, s₀.find? p = some a₀ ∧ a.trapExit = a₀.trapExit ∧
    a.mailbox.messages = a₀.mailbox.messages ++ added ∧
    (∀ x, added.filter (·.isExitFrom x) ++ List.replicate (pendingExits W x p) (Q.exitMessage (some x)) =
      if s₀.alive x = true ∧ s.alive x = false ∧ x ∈ s₀.links p then [Q.exitMessage (some x)]
      else []) ∧
    (Q.ends a₀ → ∀ x, added.filter (·.isExitFrom x) = [])

theorem CascadeInv.start (hs : s.Wf) : CascadeInv s Q d s [] where
  wf := hs
  alive_start _ h := h
  ended_path _ h h' := by simp [h] at h'
  exited := ⟨[], List.nodup_nil, fun p => by cases s.alive p <;> simp, by simp⟩
  links p q := ⟨fun h => ⟨h, alive_of_mem_links h, hs.alive_of_mem_links h⟩, fun h => h.1⟩
  signals _ h := nomatch h
  actors p a h := by
    refine ⟨a, [], h, rfl, by simp, fun x => ?_, by simp⟩
    rw [if_neg (fun ⟨h₁, h₂, _⟩ => by simp [h₁] at h₂)]
    simp [pendingExits]

theorem links_deliver (m : Term) : (s.deliver p m).links q = s.links q := by
  rw [deliver, links_update (f := (·.deliver m)) fun _ h => h]
  split
  · rename_i h
    subst h
    simp [links, Actor.deliver]
  · rfl

theorem release_signals (hy : s.find? y = some b) (r : ExitReason) :
    (s.release y r).2 = b.links.map fun z => ⟨some y, z, r⟩ := by
  rw [release_of_find? hy]

/-- An exit message appended after the others. -/
theorem filter_append_exitMessage (added : List Term) (n x x' : Nat) :
    (added ++ [Q.exitMessage (some x)]).filter (·.isExitFrom x') ++
        List.replicate n (Q.exitMessage (some x')) =
      added.filter (·.isExitFrom x') ++
        List.replicate (n + if x = x' then 1 else 0) (Q.exitMessage (some x')) := by
  by_cases h : x = x'
  · subst h
    simp [List.replicate_succ]
  · simp [h]

/-- `:DOWN` messages are no exit messages. -/
theorem filter_downMessages (refs : List Nat) (pid x : Nat) :
    (refs.map (Q.downMessage · pid)).filter (·.isExitFrom x) = [] := by
  simp [List.filter_map, Function.comp_def]

/-- A signal to a process that has already ended does nothing. -/
theorem CascadeInv.drop {sg : Signal} {W : List Signal} (hi : CascadeInv s₀ Q d s (sg :: W))
    (hdead : s.alive sg.target = false) : CascadeInv s₀ Q d s W where
  wf := hi.wf
  alive_start := hi.alive_start
  ended_path := hi.ended_path
  exited := hi.exited
  links := hi.links
  signals sg' h := hi.signals sg' (List.mem_cons_of_mem _ h)
  actors p a h := by
    obtain ⟨a₀, added, h₀, htrap, hmail, hexits, hends⟩ := hi.actors p a h
    have hp : sg.target ≠ p := by
      rintro rfl
      rw [alive_iff.2 ⟨a, h⟩] at hdead
      cases hdead
    refine ⟨a₀, added, h₀, htrap, hmail, fun x => ?_, hends⟩
    rw [← hexits x, pendingExits_cons, if_neg fun hc => hp hc.2, Nat.add_zero]

/-- A signal that reaches a live process as an `{:EXIT, from, reason}` message. -/
theorem CascadeInv.deliver {sg : Signal} {W : List Signal} (hi : CascadeInv s₀ Q d s (sg :: W))
    (hy : s.find? sg.target = some b) (hact : Q.action b.trapExit = .deliver) :
    CascadeInv s₀ Q d (s.deliver sg.target (sg.reason.exitMessage sg.sender)) W := by
  obtain ⟨hreason, x, hsender, -, -⟩ := hi.signals sg List.mem_cons_self
  rw [hreason, hsender]
  refine ⟨hi.wf.deliver _ _, fun p h => hi.alive_start p (by simpa using h),
    fun p h₀ h => hi.ended_path p h₀ (by simpa using h), ?_,
    fun p q => by simpa [links_deliver] using hi.links p q,
    fun sg' h => by simpa using hi.signals sg' (List.mem_cons_of_mem _ h), fun p a h => ?_⟩
  · obtain ⟨ended, hnd, hmem, hex⟩ := hi.exited
    exact ⟨ended, hnd, by simpa using hmem, hex⟩
  rw [find?_deliver] at h
  split at h
  · rename_i hp
    subst hp
    rw [hy, Option.map_some, Option.some.injEq] at h
    subst h
    obtain ⟨a₀, added, h₀, htrap, hmail, hexits, hends⟩ := hi.actors _ b hy
    refine ⟨a₀, added ++ [Q.exitMessage (some x)], h₀, htrap, ?_, fun x' => ?_, fun he => ?_⟩
    · simp [Actor.deliver, Mailbox.deliver, hmail]
    · rw [filter_append_exitMessage]
      simpa [pendingExits_cons, hsender] using hexits x'
    · rw [ExitReason.ends, ← htrap, hact] at he
      cases he
  · rename_i hp
    obtain ⟨a₀, added, h₀, htrap, hmail, hexits, hends⟩ := hi.actors p a h
    refine ⟨a₀, added, h₀, htrap, hmail, fun x' => ?_, hends⟩
    simpa [pendingExits_cons, Ne.symm hp] using hexits x'

/-- The end of a live process `y` on a path of the cascade, whose signals join the queue. -/
theorem CascadeInv.release {W : List Signal} (hi : CascadeInv s₀ Q d s W) (hs₀ : s₀.Wf)
    (hy : s.find? y = some b) (hpath : LinkPath s₀ Q.ends d y) :
    CascadeInv s₀ Q d (s.release y Q).1 (W ++ b.links.map fun z => ⟨some y, z, Q⟩) := by
  have hya : s.alive y = true := alive_iff.2 ⟨b, hy⟩
  have halive : ∀ q, (s.release y Q).1.alive q = (q != y && s.alive q) := fun q => alive_release hy Q
  refine ⟨hi.wf.release y Q, fun p h => hi.alive_start p (alive_of_alive_release h), ?_, ?_, ?_, ?_, ?_⟩
  · -- the ended processes: those ended before, and `y`
    intro p h₀ h
    by_cases hp : p = y
    · exact hp ▸ hpath
    · exact hi.ended_path p h₀ (by simpa [halive, hp] using h)
  · obtain ⟨ended, hnd, hmem, hex⟩ := hi.exited
    have hyn : y ∉ ended := fun h => by
      have := ((hmem y).1 h).2
      rw [hya] at this
      cases this
    refine ⟨ended ++ [y], ?_, fun p => ?_, ?_⟩
    · simpa [List.nodup_append, hnd] using fun a ha (h : a = y) => hyn (h ▸ ha)
    · by_cases hp : p = y
      · subst hp
        simp [halive, hi.alive_start p hya]
      · simp [hmem, halive, hp]
    · rw [release_of_find? hy]
      simp [hex]
  · intro p q
    rw [links_release hi.wf hy, hi.links, halive, halive]
    by_cases hp : p = y <;> by_cases hq : q = y <;> simp [hp, hq]
  · intro sg h
    rcases List.mem_append.1 h with h | h
    · obtain ⟨hr, x, hx, hx₀, hxd⟩ := hi.signals sg h
      exact ⟨hr, x, hx, hx₀, by simp [halive, hxd]⟩
    · obtain ⟨z, -, rfl⟩ := List.mem_map.1 h
      exact ⟨rfl, y, rfl, hi.alive_start y hya, by simp [halive]⟩
  · intro p a h
    obtain ⟨taken, hfind⟩ := find?_release hy Q
    rw [hfind p] at h
    split at h
    · cases h
    rename_i hpy
    cases ho : s.find? p with
    | none => simp [ho] at h
    | some o =>
      rw [ho, Option.map_some, Option.some.injEq] at h
      subst h
      obtain ⟨a₀, added, h₀, htrap, hmail, hexits, hends⟩ := hi.actors p o ho
      have hdowns := filter_downMessages (Q := Q) ((taken.filter (·.2 == o.pid)).map (·.1)) b.pid
      refine ⟨a₀, added ++ ((taken.filter (·.2 == o.pid)).map (·.1)).map (Q.downMessage · b.pid), h₀,
        by rw [afterExit_eq]; exact htrap, by rw [afterExit_eq]; simp [hmail], fun x => ?_,
        fun he x => by rw [List.filter_append, hdowns, hends he, List.append_nil]⟩
      have hnl : b.links.Nodup := links_of_find? hy ▸ hi.wf.nodup_links y
      rw [List.filter_append, hdowns, List.append_nil, pendingExits_append, pendingExits_map hnl]
      by_cases hxy : y = x
      · -- `y` has just ended: its exit message to `p` is queued when they were linked
        subst hxy
        have hold := hexits y
        rw [if_neg fun hc => by simp [hya] at hc] at hold
        obtain ⟨hf, hr⟩ := List.append_eq_nil_iff.1 hold
        have hlinked : p ∈ b.links ↔ y ∈ s₀.links p := by
          rw [← links_of_find? hy, hi.links, alive_iff.2 ⟨o, ho⟩]
          simp only [hya, and_true]
          exact ⟨hs₀.symm y p, hs₀.symm p y⟩
        rw [hf, (List.replicate_eq_nil_iff _).1 hr, List.nil_append, Nat.zero_add]
        by_cases hp : p ∈ b.links <;> simp [hp, hlinked.1, halive, hi.alive_start y hya, ← hlinked]
      · have hx : (s.release y Q).1.alive x = s.alive x := by simp [halive, Ne.symm hxy]
        rw [if_neg fun hc => hxy hc.1, Nat.add_zero, hx]
        exact hexits x

/-- A signal still queued to a live process comes from a process that was linked to it. -/
theorem CascadeInv.linked_of_pending {W : List Signal} (hi : CascadeInv s₀ Q d s W)
    (hy : s.find? y = some b) (hpend : 0 < pendingExits W x y) : x ∈ s₀.links y := by
  obtain ⟨a₀, added, -, -, -, hexits, -⟩ := hi.actors y b hy
  have h := hexits x
  split at h
  · rename_i hc
    exact hc.2.2
  · have hlen := congrArg List.length h
    simp only [List.length_append, List.length_replicate, List.length_nil] at hlen
    omega

theorem terminate_eq (pid : Nat) (r : ExitReason) :
    s.terminate pid r = (s.release pid r).1.propagate (s.release pid r).2 :=
  rfl

/-- Handling the queue keeps the invariant, until no signal is left: a signal to an ended process
is dropped, one to a process that traps exits is delivered, and one to a process that does not
ends it, which puts it on a path of the cascade since its sender was linked to it. -/
theorem CascadeInv.propagate (hQ : Q ≠ .kill) (hs₀ : s₀.Wf) {W : List Signal}
    (hi : CascadeInv s₀ Q d s W) : CascadeInv s₀ Q d (s.propagate W) [] := by
  induction s, W using System.propagate.induct with
  | case1 s => rwa [System.propagate]
  | case2 s sg rest hf ih =>
    rw [System.propagate, hf]
    refine ih (hi.drop ?_)
    cases h : s.alive sg.target
    · rfl
    · obtain ⟨a, ha⟩ := alive_iff.1 h
      rw [ha] at hf
      cases hf
  | case3 s sg rest a hf hact ih =>
    rw [System.propagate, hf]
    simp only [hact]
    have hr := (hi.signals sg List.mem_cons_self).1
    exact ih (hi.deliver hf (hr ▸ hact))
  | case4 s sg rest a hf r hact ih =>
    rw [System.propagate, hf]
    simp only [hact]
    obtain ⟨hr, x, hx, hx₀, hxd⟩ := hi.signals sg List.mem_cons_self
    rw [hr] at hact
    have hrQ : r = Q := by
      rcases ExitReason.action_of_ne_kill hQ a.trapExit with h | h <;> rw [h] at hact <;> cases hact
      rfl
    subst hrQ
    obtain ⟨a₀, -, h₀, htrap, -, -, -⟩ := hi.actors _ a hf
    have hlink : x ∈ s₀.links sg.target :=
      hi.linked_of_pending hf (by rw [pendingExits_cons, if_pos ⟨hx, rfl⟩]; omega)
    have hpath : LinkPath s₀ r.ends d sg.target :=
      .link (hi.ended_path x hx₀ hxd) (hs₀.symm _ _ hlink) h₀ (by rw [ExitReason.ends, ← htrap]; exact hact)
    have hnext := (hi.release hs₀ hf hpath).drop (by simp [alive_release hf])
    rw [← release_signals hf] at hnext
    exact ih hnext

/-- Once no signal is left, the processes live are those that were, off every path of the
cascade. -/
theorem CascadeInv.alive_iff_not_path (hi : CascadeInv s₀ Q d s []) (hs₀ : s₀.Wf)
    (hd : s₀.alive d = true) (hdead : s.alive d = false) (p : Nat) :
    s.alive p = true ↔ s₀.alive p = true ∧ ¬ LinkPath s₀ Q.ends d p := by
  -- along a path, a live process that the signal ends would hold the exit message of the ended
  -- process before it, which it never gets
  have hended : ∀ {p}, LinkPath s₀ Q.ends d p → s.alive p = false := by
    intro p hp
    induction hp with
    | origin => exact hdead
    | @link x y b hx hyx hb hends ih =>
      cases h : s.alive y
      · rfl
      · obtain ⟨a, ha⟩ := alive_iff.1 h
        obtain ⟨a₀, added, h₀, -, -, hexits, hnone⟩ := hi.actors y a ha
        rw [hb, Option.some.injEq] at h₀
        subst h₀
        have hmsg := hexits x
        rw [hnone hends x, if_pos ⟨hx.alive hs₀ hd, ih, hs₀.symm _ _ hyx⟩] at hmsg
        simp [pendingExits] at hmsg
  constructor
  · intro h
    exact ⟨hi.alive_start p h, fun hp => by rw [hended hp] at h; cases h⟩
  · rintro ⟨h₀, hnp⟩
    cases h : s.alive p
    · exact absurd (hi.ended_path p h₀ h) hnp
    · rfl

/-! ## What a cascade leaves -/

/-- What an exit cascade with reason `Q` that ends exactly the processes `ended` leaves of `s` in
`s'`: the other processes are still live; each ended process is recorded once, with `Q`; a
process still live got, from each process `x`, one `{:EXIT, x, Q}` message when `x` was linked to
it and ended, and none otherwise; and the links left are the old links between processes still
live, so that none reaches an ended process. -/
structure CascadeOutcome (s : System) (Q : ExitReason) (ended : Nat → Prop) (s' : System) :
    Prop where
  alive_iff : ∀ p, s'.alive p = true ↔ s.alive p = true ∧ ¬ ended p
  exited : ∃ dead : List Nat, dead.Nodup ∧ (∀ p, p ∈ dead ↔ ended p) ∧
    s'.exited = s.exited ++ dead.map (·, Q)
  exits : ∀ y a', s'.find? y = some a' → ∃ a added, s.find? y = some a ∧
    a'.mailbox.messages = a.mailbox.messages ++ added ∧
    ∀ x, added.filter (·.isExitFrom x) =
      if x ∈ s.links y ∧ s'.alive x = false then [Q.exitMessage (some x)] else []
  links : ∀ p q, q ∈ s'.links p ↔ q ∈ s.links p ∧ ¬ ended p ∧ ¬ ended q
  linked_alive : ∀ p q, q ∈ s'.links p → s'.alive q = true

theorem CascadeInv.outcome (hi : CascadeInv s₀ Q d s []) (hs₀ : s₀.Wf) (hd : s₀.alive d = true)
    (hdead : s.alive d = false) : CascadeOutcome s₀ Q (LinkPath s₀ Q.ends d) s := by
  have halive := hi.alive_iff_not_path hs₀ hd hdead
  have hended : ∀ p, LinkPath s₀ Q.ends d p ↔ s₀.alive p = true ∧ s.alive p = false := by
    intro p
    refine ⟨fun hp => ⟨hp.alive hs₀ hd, ?_⟩, fun ⟨h₀, h⟩ => hi.ended_path p h₀ h⟩
    cases h : s.alive p
    · rfl
    · exact absurd hp ((halive p).1 h).2
  refine ⟨halive, ?_, fun y a' h => ?_, fun p q => ?_, fun p q h => ((hi.links p q).1 h).2.2⟩
  · obtain ⟨dead, hnd, hmem, hex⟩ := hi.exited
    exact ⟨dead, hnd, fun p => (hmem p).trans (hended p).symm, hex⟩
  · obtain ⟨a₀, added, h₀, -, hmail, hexits, -⟩ := hi.actors y a' h
    refine ⟨a₀, added, h₀, hmail, fun x => ?_⟩
    have hx := hexits x
    simp only [pendingExits, List.countP_nil, List.replicate_zero, List.append_nil] at hx
    rw [hx]
    by_cases hl : x ∈ s₀.links y
    · simp [hl, hs₀.alive_of_mem_links hl]
    · simp [hl]
  · rw [hi.links, halive, halive]
    constructor
    · rintro ⟨hq, ⟨-, hp⟩, -, hq'⟩
      exact ⟨hq, hp, hq'⟩
    · rintro ⟨hq, hp, hq'⟩
      exact ⟨hq, ⟨alive_of_mem_links hq, hp⟩, hs₀.alive_of_mem_links hq, hq'⟩

/-- **The exit cascade.** When a live process `d` of a well-formed state ends with a reason `Q`
other than a kill request, the cascade ends exactly the processes on a path of links from `d`
through processes that `Q`'s signal ends. -/
theorem terminate_cascade (hs : s.Wf) (hd : s.find? d = some a) (hQ : Q ≠ .kill) :
    CascadeOutcome s Q (LinkPath s Q.ends d) (s.terminate d Q) := by
  have hstart := (CascadeInv.start (Q := Q) (d := d) hs).release hs hd .origin
  rw [List.nil_append, ← release_signals hd] at hstart
  have hdead : (s.terminate d Q).alive d = false := by
    cases h : (s.terminate d Q).alive d
    · rfl
    · rw [terminate_eq] at h
      have := alive_of_alive_propagate h
      simp [alive_release hd] at this
  exact (hstart.propagate hQ hs).outcome hs (alive_iff.2 ⟨a, hd⟩) hdead

/-- **Exit cascades end exactly a closure.** In every reachable state, the end of a live process
`d` with a reason other than normal and a kill request ends exactly the processes linked to `d`
by a path through processes that do not trap exits, records each with that reason, leaves each
other process one `{:EXIT, x, reason}` message from each ended process `x` it was linked to, and
leaves no link to an ended process; a normal end ends `d` alone, and each process linked to it
gets one `{:EXIT, d, :normal}`. An exit signal to a live process ends it as killed for a kill
request, ends it with its reason when it does not trap exits and the reason is not normal, and is
otherwise appended to its mailbox. -/
theorem exit_cascade (hs : s.Reachable) (hd : s.alive d = true) :
    (∀ Q, Q ≠ .normal → Q ≠ .kill →
      CascadeOutcome s Q (LinkPath s (·.trapExit = false) d) (s.terminate d Q)) ∧
    CascadeOutcome s .normal (· = d) (s.terminate d .normal) ∧
    ∀ t b, s.find? t = some b → ∀ sender R, s.signalExit sender t R =
      if R.isKill then s.terminate t .killed
      else if !b.trapExit && !R.isNormal then s.terminate t R
      else s.deliver t (R.exitMessage sender) := by
  have hwf := hs.wf
  obtain ⟨a, ha⟩ := alive_iff.1 hd
  refine ⟨fun Q hn hk => ?_, ?_, fun t b hb => signalExit_of_find? hb⟩
  · have hpass : LinkPath s Q.ends d = LinkPath s (·.trapExit = false) d := by
      have hends : Q.ends = fun b => b.trapExit = false :=
        funext fun b => propext (ExitReason.ends_iff hn hk b)
      rw [hends]
    exact hpass ▸ terminate_cascade hwf ha hk
  · have hpass : LinkPath s ExitReason.normal.ends d = (· = d) :=
      funext fun p => propext (linkPath_iff_eq ExitReason.not_normal_ends)
    exact hpass ▸ terminate_cascade hwf ha (by simp)

theorem exit_cascade_linkedPair :
    linkedPair.Reachable ∧ linkedPair.alive 1 = true ∧
      ((∀ Q, Q ≠ .normal → Q ≠ .kill →
        CascadeOutcome linkedPair Q (LinkPath linkedPair (·.trapExit = false) 1)
          (linkedPair.terminate 1 Q)) ∧
      CascadeOutcome linkedPair .normal (· = 1) (linkedPair.terminate 1 .normal) ∧
      ∀ t b, linkedPair.find? t = some b → ∀ sender R, linkedPair.signalExit sender t R =
        if R.isKill then linkedPair.terminate t .killed
        else if !b.trapExit && !R.isNormal then linkedPair.terminate t R
        else linkedPair.deliver t (R.exitMessage sender)) := by
  have hs : linkedPair.Reachable := .perform _ (.perform _ (.perform _ (.create _ _)))
  exact ⟨hs, by decide, exit_cascade hs (by decide)⟩

end System

end ActorCore
