import ActorCore.Proofs.Cascade
import ActorCore.Proofs.Timers

/-!
# What a process waits for

A process runs until it makes a request; the scheduler answers it at once, by queueing a resume
task with the reply, or parks the process: in a receive that no queued message satisfies, or
asleep with a wake-up timer. This module states what each live process waits for between
scheduler steps (`System.WakeUp`): one queued resume; or the receive it waits in, with no
resume; or, asleep, its one wake-up timer, with neither. Retry tasks, which only make a process
look at its mailbox again, may be queued in any case. While the scheduler runs a process, that
process waits for nothing (`System.Idle`).

A process waiting in a receive is suspended, and whenever a message in its mailbox is accepted
by one of the receive's clauses a retry is queued for it (`System.Listening`).

The invariant `System.WakeInv` carries these states with the facts about the timer queue that
make them hold: no wake-up timer is ever marked cancelled, the timer of a receive is no wake-up,
and a receive without a deadline has no timeout event. Every operation of the interface keeps
it, for any choice of the served process (`System.WakeInv.keeps`): none of them touches what a
process waits for, and a delivery to a suspended process queues its retry.
-/

namespace ActorCore

/-- The task resumes the program. -/
def Task.isResume : Task → Bool
  | .resume _ => true
  | .retry => false

/-- The resume tasks queued for a process. -/
def Actor.resumes (a : Actor) : Nat :=
  a.queue.countP Task.isResume

/-- A message is accepted by one of the clauses of a receive: the clause selects it. -/
def PendingReceive.Accepts (pr : PendingReceive) (m : Term) : Prop :=
  ∃ c ∈ pr.clauses, ∃ vs, c.select [m] = .ok (some vs)

/-! ## Selecting a message -/

theorem firstClause_eq_none {msg : Term} {l : List (Clause × Nat)} (h : firstClause msg l = .ok none) :
    ∀ x ∈ l, x.1.select [msg] = .ok none := by
  induction l with
  | nil => exact fun _ hx => nomatch hx
  | cons x rest ih =>
    obtain ⟨c, i⟩ := x
    rw [firstClause] at h
    cases hs : c.select [msg] with
    | error e =>
      rw [hs] at h
      cases h
    | ok v =>
      rw [hs] at h
      cases v with
      | some vs => cases h
      | none =>
        intro x hx
        rcases List.mem_cons.1 hx with rfl | hx
        · exact hs
        · exact ih h x hx

theorem pick_eq_none {ε α : Type} {select : Term → Except ε (Option α)} {l : List Term}
    (h : Mailbox.pick select l = .ok none) : ∀ m ∈ l, select m = .ok none := by
  induction l with
  | nil => exact fun _ hm => nomatch hm
  | cons m ms ih =>
    rw [Mailbox.pick] at h
    split at h
    · cases h
    · cases h
    · rename_i hm
      have hrest : Mailbox.pick select ms = .ok none := by
        cases hp : Mailbox.pick select ms with
        | error e => rw [hp] at h; cases h
        | ok v =>
          cases v with
          | none => rfl
          | some x => rw [hp] at h; cases h
      intro m' hm'
      rcases List.mem_cons.1 hm' with rfl | hm'
      · exact hm
      · exact ih hrest m' hm'

/-- When no message is selected, no clause accepts any message of the mailbox. -/
theorem not_accepts_of_selectMessage {mb : Mailbox} {pr : PendingReceive}
    (h : selectMessage mb pr.clauses = .ok none) : ¬ ∃ m ∈ mb.messages, pr.Accepts m := by
  rintro ⟨m, hm, c, hc, vs, hsel⟩
  have hpick : Mailbox.pick (fun msg => firstClause msg pr.clauses.zipIdx) mb.messages = .ok none := by
    unfold selectMessage Mailbox.takeFirstE at h
    cases hp : Mailbox.pick (fun msg => firstClause msg pr.clauses.zipIdx) mb.messages with
    | error e => rw [hp] at h; cases h
    | ok v =>
      cases v with
      | none => rfl
      | some x => rw [hp] at h; cases h
  have hc' : c ∈ pr.clauses.zipIdx.map Prod.fst := by rwa [List.zipIdx_map_fst]
  obtain ⟨x, hx, rfl⟩ := List.mem_map.1 hc'
  rw [firstClause_eq_none (pick_eq_none hpick m hm) x hx] at hsel
  cases hsel

namespace System

variable {s s' : System} {p q pid : Nat} {a b : Actor} {served : Option Nat}

/-! ## What a process waits for -/

/-- The one thing a live process waits for, given its count of wake-up timers: a queued resume,
with no receive and no timer; the receive it waits in, with no resume and no timer; or, asleep,
its one wake-up timer, with no resume and no receive. -/
inductive WakeUp (a : Actor) (wakes : Nat) : Prop
  | resume : a.resumes = 1 → a.pending = none → wakes = 0 → WakeUp a wakes
  | receive : a.resumes = 0 → a.pending.isSome = true → wakes = 0 → WakeUp a wakes
  | sleep : a.resumes = 0 → a.pending = none → a.status = .sleeping → wakes = 1 → WakeUp a wakes

/-- The process the scheduler runs waits for nothing until its request is answered. -/
structure Idle (a : Actor) (wakes : Nat) : Prop where
  resumes : a.resumes = 0
  pending : a.pending = none
  wakes : wakes = 0

/-- A process waiting in a receive is suspended, and a retry is queued for it whenever a message
of its mailbox is accepted by a clause of the receive. -/
def Listening (a : Actor) : Prop :=
  ∀ pr, a.pending = some pr →
    a.status = .suspended ∧ ((∃ m ∈ a.mailbox.messages, pr.Accepts m) → Task.retry ∈ a.queue)

/-- What the wait for a receive needs of the timers: its token is issued, it has no timeout
event when it has no deadline, and its timer is issued and no wake-up. -/
structure PendingWf (s : System) (p : Nat) (pr : PendingReceive) : Prop where
  token_le : pr.token ≤ s.nextToken
  no_timeout : pr.timeout = none → ∀ e ∈ s.timers.entries, e.event ≠ .receiveTimeout p pr.token
  timer : ∀ id, pr.timeout = some id →
    id ≤ s.timers.seq ∧ ∀ e ∈ s.timers.entries, e.seq = id → ∀ q, e.event ≠ .wake q

/-- The state of a process system between scheduler steps (`served = none`), or while it runs
the process `served`: every other live process waits for exactly one thing, the served one for
nothing, every process waiting in a receive listens, and the timer queue agrees. -/
structure WakeInv (s : System) (served : Option Nat) : Prop where
  wf : s.Wf
  timers : s.timers.Wf
  served_le : ∀ p, served = some p → p ≤ s.nextPid
  wake_le : ∀ e ∈ s.timers.entries, ∀ p, e.event = .wake p → p ≤ s.nextPid
  token_le : ∀ e ∈ s.timers.entries, ∀ p tok, e.event = .receiveTimeout p tok → tok ≤ s.nextToken
  pending : ∀ p a pr, s.find? p = some a → a.pending = some pr → PendingWf s p pr
  wakeUp : ∀ p a, s.find? p = some a →
    if served = some p then Idle a (s.timers.wakes p) else WakeUp a (s.timers.wakes p)
  listening : ∀ p a, s.find? p = some a → Listening a

/-! ## Changes that leave what a process waits for alone -/

/-- `a'` is `a` with what it waits for untouched: its resumes, its receive and its status are
the same, and it still listens. -/
structure Calm (a a' : Actor) : Prop where
  resumes : a'.resumes = a.resumes
  pending : a'.pending = a.pending
  status : a'.status = a.status
  listening : Listening a → Listening a'

theorem Calm.refl (a : Actor) : Calm a a :=
  ⟨rfl, rfl, rfl, id⟩

/-- A change of the fields no wait depends on. -/
theorem Calm.of_eq {a a' : Actor} (hq : a'.queue = a.queue) (hp : a'.pending = a.pending)
    (hs : a'.status = a.status) (hm : a'.mailbox = a.mailbox) : Calm a a' where
  resumes := by rw [Actor.resumes, hq, Actor.resumes]
  pending := hp
  status := hs
  listening h pr hpr := by
    rw [hp] at hpr
    rw [hs, hm, hq]
    exact h pr hpr

theorem resumes_append_retries (a : Actor) (n : Nat) :
    (a.queue ++ List.replicate n Task.retry).countP Task.isResume = a.resumes := by
  simp [Actor.resumes, List.countP_append, List.countP_replicate, Task.isResume]

/-- A delivery appends a message, and a retry when the process waits in a receive. -/
theorem calm_deliver (a : Actor) (m : Term) : Calm a (a.deliver m) where
  resumes := by
    simp only [Actor.resumes, Actor.deliver]
    split
    · simp [List.countP_append, Task.isResume]
    · rfl
  pending := rfl
  status := rfl
  listening h pr hpr := by
    obtain ⟨hs, -⟩ := h pr hpr
    refine ⟨hs, fun _ => ?_⟩
    simp [Actor.deliver, hs]

/-- The end of another process appends its `:DOWN` messages, each with a retry when the process
waits in a receive. -/
theorem calm_afterExit (x : Actor) (r : ExitReason) (taken : List (Nat × Nat)) (o : Actor) :
    Calm o (afterExit x r taken o) where
  resumes := by
    rw [afterExit_eq]
    dsimp only [Actor.resumes]
    split
    · exact resumes_append_retries o _
    · simp
  pending := by rw [afterExit_eq]
  status := by rw [afterExit_eq]
  listening h pr hpr := by
    rw [afterExit_eq] at hpr ⊢
    obtain ⟨hs, hretry⟩ := h pr hpr
    refine ⟨hs, fun ⟨m, hm, hacc⟩ => ?_⟩
    simp only [hs, if_true, List.mem_append]
    rcases List.mem_append.1 hm with hm | hm
    · exact .inl (hretry ⟨m, hm, hacc⟩)
    · -- the accepted message is a `:DOWN` message, so there is at least one, and a retry
      right
      obtain ⟨ref, href, -⟩ := List.mem_map.1 hm
      exact List.mem_replicate.2 ⟨Nat.pos_iff_ne_zero.1 (List.length_pos_of_mem href), rfl⟩

/-- Every live process of `s'` was live in `s` and is calm there. -/
def CalmActors (s s' : System) : Prop :=
  ∀ p a', s'.find? p = some a' → ∃ a, s.find? p = some a ∧ Calm a a'

theorem Calm.trans {a₁ a₂ a₃ : Actor} (h₁ : Calm a₁ a₂) (h₂ : Calm a₂ a₃) : Calm a₁ a₃ :=
  ⟨h₂.resumes.trans h₁.resumes, h₂.pending.trans h₁.pending, h₂.status.trans h₁.status,
    fun h => h₂.listening (h₁.listening h)⟩

theorem CalmActors.of_actors (h : s'.actors = s.actors) : CalmActors s s' :=
  fun p a' ha' => ⟨a', by rwa [find?, h] at ha', Calm.refl a'⟩

theorem CalmActors.trans {s₁ s₂ : System} (h₁ : CalmActors s s₁) (h₂ : CalmActors s₁ s₂) :
    CalmActors s s₂ := by
  intro p a₂ ha₂
  obtain ⟨a₁, ha₁, hc₂⟩ := h₂ p a₂ ha₂
  obtain ⟨a, ha, hc₁⟩ := h₁ p a₁ ha₁
  exact ⟨a, ha, hc₁.trans hc₂⟩

theorem CalmActors.update {f : Actor → Actor} (hf : ∀ a, a.pid = pid → (f a).pid = pid)
    (hc : ∀ a, s.find? pid = some a → Calm a (f a)) : CalmActors s (s.update pid f) := by
  intro p a' h
  rw [find?_update hf] at h
  split at h
  · rename_i hp
    subst hp
    cases ha : s.find? p with
    | none =>
      rw [ha] at h
      cases h
    | some a =>
      rw [ha, Option.map_some, Option.some.injEq] at h
      exact ⟨a, rfl, h ▸ hc a ha⟩
  · exact ⟨a', h, Calm.refl a'⟩

/-- Rewriting the links of a process. -/
theorem CalmActors.setLinks (g : List Nat → List Nat) :
    CalmActors s (s.update pid fun x => { x with links := g x.links }) :=
  CalmActors.update (fun _ h => h) fun _ _ => Calm.of_eq rfl rfl rfl rfl

theorem WakeUp.of_calm {w : Nat} (h : WakeUp a w) (hc : Calm a b) : WakeUp b w := by
  cases h with
  | resume h₁ h₂ h₃ => exact .resume (hc.resumes.trans h₁) (hc.pending.trans h₂) h₃
  | receive h₁ h₂ h₃ => exact .receive (hc.resumes.trans h₁) (by rw [hc.pending]; exact h₂) h₃
  | sleep h₁ h₂ h₃ h₄ =>
    exact .sleep (hc.resumes.trans h₁) (hc.pending.trans h₂) (hc.status.trans h₃) h₄

theorem Idle.of_calm {w : Nat} (h : Idle a w) (hc : Calm a b) : Idle b w :=
  ⟨hc.resumes.trans h.resumes, hc.pending.trans h.pending, h.wakes⟩

/-- A process without a receive owes nothing to the receive invariants. -/
theorem pending_none_elim {P : PendingReceive → Prop} (h : a.pending = none) :
    ∀ pr, a.pending = some pr → P pr :=
  fun pr hpr => absurd (hpr.symm.trans h) (Option.some_ne_none pr)

theorem PendingWf.frame {pr : PendingReceive} (h : PendingWf s p pr)
    (htok : s.nextToken ≤ s'.nextToken) (hseq : s.timers.seq ≤ s'.timers.seq)
    (hsub : ∀ e ∈ s'.timers.entries, e ∈ s.timers.entries) : PendingWf s' p pr where
  token_le := Nat.le_trans h.token_le htok
  no_timeout hn e he := h.no_timeout hn e (hsub e he)
  timer id hid :=
    ⟨Nat.le_trans (h.timer id hid).1 hseq, fun e he => (h.timer id hid).2 e (hsub e he)⟩

/-! ## The invariant under changes that wake nobody -/

/-- A change that leaves every live process calm, issues no fewer pids and tokens, and changes
the timer queue only by dropping events other than wake-ups keeps the invariant. -/
theorem WakeInv.frame (hi : WakeInv s served) (hwf : s'.Wf) (htimers : s'.timers.Wf)
    (hwakes : ∀ p a', s'.find? p = some a' → s'.timers.wakes p = s.timers.wakes p)
    (hsub : ∀ e ∈ s'.timers.entries, e ∈ s.timers.entries) (hseq : s.timers.seq ≤ s'.timers.seq)
    (hpid : s.nextPid ≤ s'.nextPid) (htok : s.nextToken ≤ s'.nextToken)
    (hcalm : CalmActors s s') : WakeInv s' served where
  wf := hwf
  timers := htimers
  served_le p hp := Nat.le_trans (hi.served_le p hp) hpid
  wake_le e he p hw := Nat.le_trans (hi.wake_le e (hsub e he) p hw) hpid
  token_le e he p tok ht := Nat.le_trans (hi.token_le e (hsub e he) p tok ht) htok
  pending p a' pr ha' hpr := by
    obtain ⟨a, ha, hc⟩ := hcalm p a' ha'
    exact (hi.pending p a pr ha (hc.pending ▸ hpr)).frame htok hseq hsub
  wakeUp p a' ha' := by
    obtain ⟨a, ha, hc⟩ := hcalm p a' ha'
    have h := hi.wakeUp p a ha
    rw [hwakes p a' ha']
    by_cases hs : served = some p
    · rw [if_pos hs] at h ⊢
      exact h.of_calm hc
    · rw [if_neg hs] at h ⊢
      exact h.of_calm hc
  listening p a' ha' := by
    obtain ⟨a, ha, hc⟩ := hcalm p a' ha'
    exact hc.listening (hi.listening p a ha)

/-- A change of the actors alone that leaves every live process calm. -/
theorem WakeInv.calm (hi : WakeInv s served) (hwf : s'.Wf) (htimers : s'.timers = s.timers)
    (hpid : s.nextPid ≤ s'.nextPid) (htok : s.nextToken ≤ s'.nextToken) (hcalm : CalmActors s s') :
    WakeInv s' served :=
  hi.frame hwf (htimers ▸ hi.timers) (fun _ _ _ => by rw [htimers]) (fun _ he => htimers ▸ he)
    (Nat.le_of_eq (by rw [htimers])) hpid htok hcalm

/-- A change of nothing a wait depends on. -/
theorem PendingWf.update {pr : PendingReceive} (h : PendingWf s p pr) (q : Nat) (f : Actor → Actor) :
    PendingWf (s.update q f) p pr :=
  h.frame (Nat.le_refl _) (Nat.le_refl _) fun _ he => he

theorem WakeInv.of_actors (hi : WakeInv s served) (hact : s'.actors = s.actors)
    (htimers : s'.timers = s.timers) (hpid : s'.nextPid = s.nextPid)
    (htok : s'.nextToken = s.nextToken) (hexited : s'.exited = s.exited) : WakeInv s' served :=
  hi.calm (hi.wf.of_actors hact hpid hexited) htimers (Nat.le_of_eq hpid.symm)
    (Nat.le_of_eq htok.symm) (CalmActors.of_actors hact)

theorem WakeInv.update {f : Actor → Actor} (hi : WakeInv s served)
    (hf : ∀ a, a.pid = pid → (f a).pid = pid) (hl : ∀ a, s.find? pid = some a → (f a).links = a.links)
    (hc : ∀ a, s.find? pid = some a → Calm a (f a)) : WakeInv (s.update pid f) served :=
  hi.calm (hi.wf.update hf hl) rfl (Nat.le_refl _) (Nat.le_refl _) (CalmActors.update hf hc)

theorem WakeInv.deliver (hi : WakeInv s served) (pid : Nat) (m : Term) :
    WakeInv (s.deliver pid m) served :=
  hi.update (fun _ h => h) (fun _ _ => rfl) fun a _ => calm_deliver a m

theorem release_nextPid (x : Nat) (r : ExitReason) : (s.release x r).1.nextPid = s.nextPid := by
  unfold release
  split <;> rfl

theorem release_nextToken (x : Nat) (r : ExitReason) : (s.release x r).1.nextToken = s.nextToken := by
  unfold release
  split <;> rfl

/-- The end of a process: the others get calm `:DOWN` messages, and the timer of the receive it
waited in, never a wake-up, is cancelled. -/
theorem WakeInv.release (hi : WakeInv s served) (x : Nat) (r : ExitReason) :
    WakeInv (s.release x r).1 served := by
  cases hx : s.find? x with
  | none =>
    rw [release_of_find?_none hx]
    exact hi
  | some a =>
    obtain ⟨taken, hfind⟩ := find?_release hx r
    have hcalm : CalmActors s (s.release x r).1 := by
      intro p a' ha'
      rw [hfind p] at ha'
      split at ha'
      · cases ha'
      · cases hp : s.find? p with
        | none =>
          rw [hp] at ha'
          cases ha'
        | some o =>
          rw [hp, Option.map_some, Option.some.injEq] at ha'
          exact ⟨o, rfl, ha' ▸ calm_afterExit a r taken o⟩
    have hrel := release_of_find? hx r
    cases ht : a.pending.bind (·.timeout) with
    | none =>
      rw [ht] at hrel
      exact hi.calm (hi.wf.release x r) (by rw [hrel]) (Nat.le_of_eq (release_nextPid x r).symm)
        (Nat.le_of_eq (release_nextToken x r).symm) hcalm
    | some id =>
      rw [ht] at hrel
      obtain ⟨pr, hpr, hid⟩ := Option.bind_eq_some_iff.1 ht
      obtain ⟨-, hnotwake⟩ := (hi.pending x a pr hx hpr).timer id hid
      have hT : (s.release x r).1.timers = s.timers.cancel id := by rw [hrel]
      refine hi.frame (hi.wf.release x r) (hT ▸ hi.timers.cancel hnotwake)
        (fun p _ _ => by rw [hT]; exact TimerQueue.wakes_cancel hi.timers hnotwake p)
        (fun e he => (TimerQueue.cancel_subset id).1 e (hT ▸ he))
        (Nat.le_of_eq (by rw [hT, TimerQueue.cancel_seq])) (Nat.le_of_eq (release_nextPid x r).symm)
        (Nat.le_of_eq (release_nextToken x r).symm) hcalm

theorem WakeInv.propagate (hi : WakeInv s served) (signals : List Signal) :
    WakeInv (s.propagate signals) served := by
  induction s, signals using System.propagate.induct with
  | case1 s => rwa [System.propagate]
  | case2 s sg rest hf ih =>
    rw [System.propagate, hf]
    exact ih hi
  | case3 s sg rest a hf hact ih =>
    rw [System.propagate, hf]
    simp only [hact]
    exact ih (hi.deliver _ _)
  | case4 s sg rest a hf r hact ih =>
    rw [System.propagate, hf]
    simp only [hact]
    exact ih (hi.release _ _)

theorem WakeInv.terminate (hi : WakeInv s served) (pid : Nat) (r : ExitReason) :
    WakeInv (s.terminate pid r) served :=
  (hi.release pid r).propagate _

theorem WakeInv.signalExit (hi : WakeInv s served) (sender : Option Nat) (target : Nat)
    (r : ExitReason) : WakeInv (s.signalExit sender target r) served :=
  hi.propagate _

/-! ## The operations of the interface -/

theorem spawn_timers (body : Nat → Program) : (s.spawn body).2.timers = s.timers := by
  simp only [System.spawn]
  split <;> rfl

theorem spawn_nextPid (body : Nat → Program) : (s.spawn body).2.nextPid = s.nextPid + 1 := by
  simp only [System.spawn]
  split <;> rfl

theorem spawn_nextToken (body : Nat → Program) : (s.spawn body).2.nextToken = s.nextToken := by
  simp only [System.spawn]
  split <;> rfl

/-- A live process after a spawn is an old one, or the new one with its first resume queued. -/
theorem find?_spawn (body : Nat → Program) {a' : Actor} (h : (s.spawn body).2.find? p = some a') :
    s.find? p = some a' ∨ p = s.nextPid + 1 ∧ a'.queue = [.resume .start] ∧ a'.pending = none := by
  simp only [System.spawn] at h
  split at h
  · simp only [find?, Actors.find?, List.find?_append] at h
    cases hold : List.find? (·.pid == p) s.actors with
    | some b =>
      rw [hold] at h
      exact .inl (by simpa [find?, Actors.find?, hold] using h)
    | none =>
      rw [hold, Option.none_or, List.find?_singleton] at h
      split at h
      · rename_i hp
        cases h
        exact .inr ⟨(beq_iff_eq.1 hp).symm, rfl, rfl⟩
      · cases h
  · exact .inl h

/-- A spawned process waits for its first resume; no wake-up timer names its fresh pid. -/
theorem WakeInv.spawn (hi : WakeInv s served) (body : Nat → Program) :
    WakeInv (s.spawn body).2 served := by
  have hT := spawn_timers (s := s) body
  have hP := spawn_nextPid (s := s) body
  have hwake0 : s.timers.wakes (s.nextPid + 1) = 0 := by
    apply List.countP_eq_zero.2
    intro e he hw
    have := hi.wake_le e he _ (TimerEvent.isWake_iff.1 hw)
    omega
  refine ⟨hi.wf.spawn body, by rw [hT]; exact hi.timers, fun p hp => ?_, fun e he p hw => ?_,
    fun e he p tok ht => ?_, ?_, ?_, ?_⟩
  · rw [hP]
    exact Nat.le_succ_of_le (hi.served_le p hp)
  · rw [hP]
    rw [hT] at he
    exact Nat.le_succ_of_le (hi.wake_le e he p hw)
  · rw [spawn_nextToken]
    rw [hT] at he
    exact hi.token_le e he p tok ht
  · intro p a' pr ha' hpr
    rcases find?_spawn body ha' with ha | ⟨-, -, hnone⟩
    · refine (hi.pending p a' pr ha hpr).frame (Nat.le_of_eq (spawn_nextToken body).symm)
        (Nat.le_of_eq (by rw [hT])) fun _ h => ?_
      rw [hT] at h
      exact h
    · exact pending_none_elim hnone pr hpr
  · intro p a' ha'
    rw [hT]
    rcases find?_spawn body ha' with ha | ⟨rfl, hq, hnone⟩
    · exact hi.wakeUp p a' ha
    · have hne : served ≠ some (s.nextPid + 1) := fun h => by
        have := hi.served_le _ h
        omega
      rw [if_neg hne]
      exact .resume (by simp [Actor.resumes, hq, Task.isResume]) hnone hwake0
  · intro p a' ha' pr hpr
    rcases find?_spawn body ha' with ha | ⟨-, -, hnone⟩
    · exact hi.listening p a' ha pr hpr
    · exact (pending_none_elim hnone : Listening a') pr hpr

theorem WakeInv.linkActors (hi : WakeInv s served) {a b : Nat} (ha : s.alive a = true)
    (hb : s.alive b = true) : WakeInv { s with actors := s.actors.link a b } served := by
  refine hi.calm (hi.wf.linkActors ha hb) rfl (Nat.le_refl _) (Nat.le_refl _) ?_
  by_cases hab : a = b
  · subst hab
    exact CalmActors.of_actors (by simp [Actors.link])
  · rw [linkActors_eq hab]
    exact (CalmActors.setLinks (insertAscending b)).trans (CalmActors.setLinks (insertAscending a))

theorem WakeInv.link (hi : WakeInv s served) (a b : Nat) : WakeInv (s.link a b) served := by
  unfold System.link
  split
  · rename_i ha hb
    exact hi.linkActors ha hb
  · exact hi.signalExit _ _ _
  · exact hi.signalExit _ _ _
  · exact hi

theorem WakeInv.unlink (hi : WakeInv s served) (a b : Nat) : WakeInv (s.unlink a b) served := by
  refine hi.calm (hi.wf.unlink a b) rfl (Nat.le_refl _) (Nat.le_refl _) ?_
  rw [unlink_eq]
  exact (CalmActors.setLinks (·.erase b)).trans (CalmActors.setLinks (·.erase a))

theorem WakeInv.makeRef (hi : WakeInv s served) : WakeInv s.makeRef.2 served :=
  hi.of_actors rfl rfl rfl rfl rfl

theorem WakeInv.monitor (hi : WakeInv s served) (observer observed : Nat) :
    WakeInv (s.monitor observer observed).2 served := by
  have h1 := hi.makeRef
  unfold System.monitor
  generalize s.makeRef = m at h1 ⊢
  obtain ⟨ref, s1⟩ := m
  dsimp only at h1 ⊢
  split
  · refine WakeInv.update ?_ (fun _ h => h) (fun _ _ => rfl) fun _ _ => Calm.of_eq rfl rfl rfl rfl
    exact h1.of_actors rfl rfl rfl rfl rfl
  · exact h1.deliver _ _

theorem WakeInv.demonitor (hi : WakeInv s served) (ref : Nat) : WakeInv (s.demonitor ref).2 served := by
  unfold System.demonitor
  split
  · refine WakeInv.update ?_ (fun _ h => h) (fun _ _ => rfl) fun _ _ => Calm.of_eq rfl rfl rfl rfl
    exact hi.of_actors rfl rfl rfl rfl rfl
  · exact hi

theorem WakeInv.send (hi : WakeInv s served) {dest : Dest} {m : Term} (hs : s.send dest m = .ok s') :
    WakeInv s' served := by
  simp only [System.send, bind, Except.bind] at hs
  split at hs
  · cases hs
  · cases hs
    exact hi.deliver _ _

/-- A new timer event leaves what a waiting receive needs, unless it is that receive's
timeout: its sequence number is past every timer the receive may own. -/
theorem PendingWf.push {pr : PendingReceive} (h : PendingWf s p pr) (d : Nat) {ev : TimerEvent}
    (hev : ev ≠ .receiveTimeout p pr.token) (htok : s.nextToken ≤ s'.nextToken)
    (ht : s'.timers = (s.timers.push d ev).2) : PendingWf s' p pr where
  token_le := Nat.le_trans h.token_le htok
  no_timeout hn e he := by
    rw [ht] at he
    rcases TimerQueue.mem_push.1 he with rfl | he
    · exact hev
    · exact h.no_timeout hn e he
  timer id hid := by
    obtain ⟨hle, hnw⟩ := h.timer id hid
    rw [ht, TimerQueue.push_seq]
    refine ⟨Nat.le_succ_of_le hle, fun e he hs q => ?_⟩
    rcases TimerQueue.mem_push.1 he with rfl | he
    · exact absurd hs (by dsimp only; omega)
    · exact hnw e he hs q

/-- A new timer event that wakes nobody keeps the invariant, when the token of a receive it
times out is issued by the same change. -/
theorem WakeInv.push_timer (hi : WakeInv s served) (d : Nat) {ev : TimerEvent}
    (hwake : ∀ q, ev ≠ .wake q) {n : Nat} (hn : s.nextToken ≤ n)
    (htok : ∀ q tok, ev = .receiveTimeout q tok → s.nextToken < tok ∧ tok ≤ n) :
    WakeInv { s with nextToken := n, timers := (s.timers.push d ev).2 } served := by
  refine ⟨hi.wf.of_actors rfl rfl rfl, hi.timers.push _ _, hi.served_le, ?_, ?_, ?_, ?_, hi.listening⟩
  · intro e he q hw
    rcases TimerQueue.mem_push.1 he with rfl | he
    · exact absurd hw (hwake q)
    · exact hi.wake_le e he q hw
  · intro e he q tok ht
    rcases TimerQueue.mem_push.1 he with rfl | he
    · exact (htok q tok ht).2
    · exact Nat.le_trans (hi.token_le e he q tok ht) hn
  · intro q a pr ha hpr
    have h := hi.pending q a pr ha hpr
    refine h.push d (fun hev => ?_) hn rfl
    have := (htok q pr.token hev).1
    have := h.token_le
    omega
  · intro q a ha
    have hw : (s.timers.push d ev).2.wakes q = s.timers.wakes q := by
      rw [TimerQueue.wakes_push]
      cases hq : ev.isWake q with
      | false => rfl
      | true => exact absurd (TimerEvent.isWake_iff.1 hq) (hwake q)
    exact hw ▸ hi.wakeUp q a ha

/-- A message sent later is an event that wakes nobody and times out no receive. -/
theorem WakeInv.sendAfter (hi : WakeInv s served) (pid : Nat) (m : Term) (after : Nat) :
    WakeInv (s.sendAfter pid m after) served :=
  hi.push_timer _ (fun _ h => by cases h) (Nat.le_refl _) fun _ _ h => by cases h

theorem WakeInv.register (hi : WakeInv s served) {name : String} {pid : Nat}
    (hs : s.register name pid = .ok s') : WakeInv s' served := by
  unfold System.register at hs
  split at hs
  · cases hr : s.registry.register name pid with
    | error e => simp [hr, Except.map] at hs
    | ok r =>
      simp only [hr, Except.map, Except.ok.injEq] at hs
      subst hs
      exact hi.of_actors rfl rfl rfl rfl rfl
  · cases hs

theorem WakeInv.unregister (hi : WakeInv s served) (name : String) :
    WakeInv (s.unregister name).2 served :=
  hi.of_actors rfl rfl rfl rfl rfl

theorem WakeInv.processFlag (hi : WakeInv s served) (pid : Nat) (flag : String) (v : Term) :
    WakeInv (s.processFlag pid flag v).2 served := by
  unfold System.processFlag
  split
  · rename_i a ha
    have hpid : a.pid = pid := Actors.pid_of_find? ha
    have hflag : Calm a (a.setFlag flag v).2 := by
      unfold Actor.setFlag
      split <;> exact Calm.of_eq rfl rfl rfl rfl
    refine hi.update (fun _ _ => (Actor.setFlag_pid a flag v).trans hpid) ?_ ?_
    · intro x hx
      rw [ha] at hx
      cases hx
      exact Actor.setFlag_links _ _ _
    · intro x hx
      rw [ha] at hx
      cases hx
      exact hflag
  · exact hi

theorem WakeInv.withDictionary {α : Type} (hi : WakeInv s served) (pid : Nat)
    (f : TermMap → α × TermMap) : WakeInv (s.withDictionary pid f).2 served := by
  unfold System.withDictionary
  split
  · exact hi.update (fun _ h => h) (fun _ _ => rfl) fun _ _ => Calm.of_eq rfl rfl rfl rfl
  · exact hi

/-- Every operation of the interface keeps the invariant, whichever process is being run. -/
theorem WakeInv.keeps (served : Option Nat) : Keeps (WakeInv · served) where
  spawn _ body h := h.spawn body
  link _ a b h := h.link a b
  unlink _ a b h := h.unlink a b
  monitor _ a b h := h.monitor a b
  demonitor _ ref h := h.demonitor ref
  send _ _ _ _ h hs := h.send hs
  sendAfter _ pid msg after h := h.sendAfter pid msg after
  signalExit _ sender target reason h := h.signalExit sender target reason
  register _ _ _ _ h hs := h.register hs
  unregister _ name h := h.unregister name
  processFlag _ pid flag value h := h.processFlag pid flag value
  withDictionary _ pid f h := h.withDictionary pid f
  makeRef _ h := h.makeRef

end System

end ActorCore
