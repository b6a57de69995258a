import ActorCore.Proofs.Waiting

/-!
# Every request is answered once

The scheduler takes the tasks of one process at a time: a resume runs the program to its next
request, and a retry looks at the mailbox of a process waiting in a receive. This module follows
the served process through each step (`System.WakeInv` with `served = some p`): taking a task,
resuming the program, handling its request, ending the process, and parking it again in exactly
one wait (`System.AfterRequest`, `System.AfterTask`). Timers are the other way a process wakes:
a due wake-up resumes a sleeping process, and a due timeout ends the receive it belongs to.
Every host call therefore keeps the invariant, and so does every state a host can reach.

Principal results: `System.wakeUp_unique` — in every reachable state each live process has
exactly one pending wake-up, a receive without a deadline has no timeout event, and every
immediate reply is of its request's kind; `System.pending_receive_listening` — in every
reachable state a process waiting in a receive is suspended and has a retry queued whenever a
message it accepts has arrived.
-/

namespace ActorCore

/-- The replies that answer a request: what the process that made it can take. A spawn with a
monitor gets a reference, a receive gets a message or, only when it has a deadline, a timeout,
and every other request its own kind of reply. -/
def Request.Answers : Request → Reply → Prop
  | .yield, .ok | .sendAfter .., .ok | .sleep _, .ok | .link _, .ok | .unlink _, .ok
  | .exit .., .ok => True
  | .send .., .ok | .send .., .error _ | .register _, .ok | .register _, .error _ => True
  | .spawn _ _ watched, .spawned _ ref => ref.isSome = watched
  | .receive .., .received (.message ..) => True
  | .receive _ after, .received .timeout => after.isSome
  | .monitor _, .ref _ | .makeRef, .ref _ => True
  | .demonitor _, .bool _ | .unregister _, .bool _ | .isAlive _, .bool _ => True
  | .whereis _, .pid _ | .registered, .names _ | .getKeys, .terms _ | .list, .pids _ => True
  | .processFlag .., .term _ | .put .., .term _ | .get _, .term _ | .erase _, .term _ => True
  | _, _ => False

/-- A request is answered at once unless it is a receive or a sleep. -/
theorem Request.isPrompt_or (req : Request) :
    req.IsPrompt ∨ (∃ clauses after, req = .receive clauses after) ∨ ∃ ms, req = .sleep ms := by
  cases req with
  | receive clauses after => exact .inr (.inl ⟨clauses, after, rfl⟩)
  | sleep ms => exact .inr (.inr ⟨ms, rfl⟩)
  | _ => exact .inl trivial

namespace System

variable {s s' : System} {p q pid : Nat} {a b : Actor} {served : Option Nat}

/-! ## The process being run -/

/-- Between steps every live process waits for exactly one thing. -/
theorem WakeInv.waits (hi : WakeInv s none) (ha : s.find? p = some a) : WakeUp a (s.timers.wakes p) := by
  have h := hi.wakeUp p a ha
  rw [if_neg fun h => nomatch h] at h
  exact h

/-- The served process waits for nothing. -/
theorem WakeInv.idle (hi : WakeInv s (some p)) (ha : s.find? p = some a) : Idle a (s.timers.wakes p) := by
  have h := hi.wakeUp p a ha
  rw [if_pos rfl] at h
  exact h

theorem Wf.le_of_find? (h : s.Wf) (ha : s.find? p = some a) : p ≤ s.nextPid :=
  Actors.pid_of_find? ha ▸ h.pid_le a (Actors.mem_of_find? ha)

theorem find?_update_cases {f : Actor → Actor} (hf : ∀ a, a.pid = p → (f a).pid = p) {a' : Actor}
    (h : (s.update p f).find? q = some a') :
    (q = p ∧ ∃ a, s.find? p = some a ∧ a' = f a) ∨ (q ≠ p ∧ s.find? q = some a') := by
  rw [find?_update hf] at h
  split at h
  · rename_i hq
    subst hq
    cases ha : s.find? q with
    | none =>
      rw [ha] at h
      cases h
    | some a =>
      rw [ha, Option.map_some, Option.some.injEq] at h
      exact .inl ⟨rfl, a, rfl, h.symm⟩
  · rename_i hq
    exact .inr ⟨hq, h⟩

/-- A change of one process `p` alone, after which it waits as the new choice of the served
process requires, keeps the invariant. -/
theorem WakeInv.point {f : Actor → Actor} {served' : Option Nat} (hi : WakeInv s served)
    (hf : ∀ a, a.pid = p → (f a).pid = p) (hl : ∀ a, s.find? p = some a → (f a).links = a.links)
    (hserved : ∀ q, served' = some q → q ≤ s.nextPid)
    (hother : ∀ q, q ≠ p → (served' = some q ↔ served = some q))
    (hp : ∀ a, s.find? p = some a →
      (if served' = some p then Idle (f a) (s.timers.wakes p) else WakeUp (f a) (s.timers.wakes p)) ∧
        Listening (f a) ∧ ∀ pr, (f a).pending = some pr → PendingWf s p pr) :
    WakeInv (s.update p f) served' := by
  refine ⟨hi.wf.update hf hl, hi.timers, hserved, hi.wake_le, hi.token_le, ?_, ?_, ?_⟩
  · intro q a' pr ha' hpr
    rcases find?_update_cases hf ha' with ⟨rfl, a, ha, rfl⟩ | ⟨-, ha⟩
    · exact ((hp a ha).2.2 pr hpr).update _ _
    · exact (hi.pending q a' pr ha hpr).update _ _
  · intro q a' ha'
    rcases find?_update_cases hf ha' with ⟨rfl, a, ha, rfl⟩ | ⟨hq, ha⟩
    · exact (hp a ha).1
    · have h := hi.wakeUp q a' ha
      by_cases hs : served = some q
      · rw [if_pos hs] at h
        rw [if_pos ((hother q hq).2 hs)]
        exact h
      · rw [if_neg hs] at h
        rw [if_neg fun h' => hs ((hother q hq).1 h')]
        exact h
  · intro q a' ha'
    rcases find?_update_cases hf ha' with ⟨rfl, a, ha, rfl⟩ | ⟨-, ha⟩
    · exact (hp a ha).2.1
    · exact hi.listening q a' ha

/-- Once the served process has ended, nothing is being run. -/
theorem WakeInv.unserve (hi : WakeInv s (some p)) (hp : s.find? p = none) : WakeInv s none := by
  refine ⟨hi.wf, hi.timers, (fun _ h => nomatch h), hi.wake_le, hi.token_le, hi.pending, ?_, hi.listening⟩
  intro q a ha
  have h := hi.wakeUp q a ha
  have hq : q ≠ p := fun h => by rw [h, hp] at ha; cases ha
  rw [if_neg fun h => hq (Option.some.inj h).symm] at h
  exact h

/-- The served process starts to wait for one thing: it is served no longer. -/
theorem WakeInv.park {f : Actor → Actor} (hi : WakeInv s (some p))
    (hf : ∀ a, a.pid = p → (f a).pid = p) (hl : ∀ a, s.find? p = some a → (f a).links = a.links)
    (hp : ∀ a, s.find? p = some a → Idle a (s.timers.wakes p) →
      WakeUp (f a) (s.timers.wakes p) ∧ Listening (f a) ∧ ∀ pr, (f a).pending = some pr → PendingWf s p pr) :
    WakeInv (s.update p f) none := by
  refine hi.point hf hl (fun _ h => nomatch h)
    (fun q hq => ⟨(fun h => nomatch h), fun h => absurd (Option.some.inj h).symm hq⟩) fun a ha => ?_
  rw [if_neg fun h => nomatch h]
  exact hp a ha (hi.idle ha)

/-- A live process stops waiting and is served, once it waits for nothing. -/
theorem WakeInv.serve {f : Actor → Actor} (hi : WakeInv s none) (ha : s.find? p = some a)
    (hf : ∀ a, a.pid = p → (f a).pid = p) (hl : (f a).links = a.links)
    (hidle : WakeUp a (s.timers.wakes p) → Idle (f a) (s.timers.wakes p)) :
    WakeInv (s.update p f) (some p) := by
  have hle := hi.wf.le_of_find? ha
  refine hi.point hf (fun b hb => by rw [ha, Option.some.injEq] at hb; exact hb ▸ hl)
    (fun q hq => Option.some.inj hq ▸ hle)
    (fun q hq => ⟨fun h => absurd (Option.some.inj h).symm hq, (fun h => nomatch h)⟩) fun b hb => ?_
  rw [ha, Option.some.injEq] at hb
  subst hb
  have h := hidle (hi.waits ha)
  rw [if_pos rfl]
  exact ⟨h, pending_none_elim h.pending, pending_none_elim h.pending⟩

theorem find?_terminate_self (r : ExitReason) : (s.terminate p r).find? p = none := by
  cases h : (s.terminate p r).find? p with
  | none => rfl
  | some a =>
    have halive : (s.terminate p r).alive p = true := alive_iff.2 ⟨a, h⟩
    rw [terminate_eq] at halive
    have hrel := alive_of_alive_propagate halive
    cases hf : s.find? p with
    | none =>
      rw [release_of_find?_none hf] at hrel
      obtain ⟨b, hb⟩ := alive_iff.1 hrel
      rw [hf] at hb
      cases hb
    | some b =>
      rw [alive_release hf] at hrel
      simp at hrel

/-- The served process ends: the cascade keeps the invariant, and the process is no longer
served. -/
theorem WakeInv.terminate_self (hi : WakeInv s (some p)) (r : ExitReason) :
    WakeInv (s.terminate p r) none :=
  (hi.terminate p r).unserve (find?_terminate_self r)

/-- A change of the served process that keeps its resumes and its receive. -/
theorem WakeInv.update_served {f : Actor → Actor} (hi : WakeInv s (some p))
    (hf : ∀ a, a.pid = p → (f a).pid = p) (hl : ∀ a, s.find? p = some a → (f a).links = a.links)
    (hr : ∀ a, (f a).resumes = a.resumes) (hpend : ∀ a, (f a).pending = a.pending) :
    WakeInv (s.update p f) (some p) := by
  refine hi.point hf hl hi.served_le (fun _ _ => Iff.rfl) fun a ha => ?_
  have h := hi.idle ha
  rw [if_pos rfl]
  have hnone : (f a).pending = none := (hpend a).trans h.pending
  exact ⟨⟨(hr a).trans h.resumes, hnone, h.wakes⟩, pending_none_elim hnone, pending_none_elim hnone⟩

/-- The answer to the served process's request is queued: it waits for that resume alone. -/
theorem WakeInv.enqueue_resume (hi : WakeInv s (some p)) (r : Reply) :
    WakeInv (s.enqueue p (.resume r)) none := by
  refine hi.park (fun _ h => h) (fun _ _ => rfl) fun a _ h => ?_
  have hpend : (a.enqueue (.resume r)).pending = none := h.pending
  have hres : (a.enqueue (.resume r)).resumes = 1 := by
    simp [Actor.enqueue, Actor.resumes, List.countP_append, Task.isResume, ← h.resumes]
  exact ⟨.resume hres hpend h.wakes, pending_none_elim hpend, pending_none_elim hpend⟩

/-! ## Taking a task -/

theorem popTask_eq {t : Task} (h : s.popTask p = some (t, s')) :
    ∃ a rest, s.find? p = some a ∧ a.queue = t :: rest ∧
      s' = s.update p fun a => { a with queue := rest } := by
  unfold popTask at h
  split at h
  · rename_i a ha
    split at h
    · rename_i t' rest hq
      simp only [Option.some.injEq, Prod.mk.injEq] at h
      obtain ⟨rfl, rfl⟩ := h
      exact ⟨a, rest, ha, hq, rfl⟩
    · cases h
  · cases h

/-- Taking a resume task: the process waited for that resume alone, and now waits for nothing. -/
theorem WakeInv.popTask_resume (hi : WakeInv s none) {r : Reply}
    (h : s.popTask p = some (.resume r, s')) : WakeInv s' (some p) := by
  obtain ⟨a, rest, ha, hq, rfl⟩ := popTask_eq h
  have hrest : rest.countP Task.isResume + 1 = a.resumes := by
    rw [Actor.resumes, hq, List.countP_cons]
    rfl
  refine hi.serve ha (fun _ h => h) rfl fun hw => ?_
  -- a queued resume leaves only the first kind of wait
  cases hw with
  | resume h₁ h₂ h₃ => exact ⟨by simp only [Actor.resumes]; omega, h₂, h₃⟩
  | receive h₁ _ _ => omega
  | sleep h₁ _ _ _ => omega

/-! ## Resuming the served process -/

/-- A program stops at a request or at its end, never at a note. -/
theorem Program.advance_ne_note (prog : Program) (n : Note) (next : Program) :
    prog.advance.2 ≠ .note n next := by
  fun_induction Program.advance prog with
  | case1 _ _ _ _ hadv ih =>
    rw [hadv] at ih
    exact ih
  | case2 prog hnote =>
    rintro rfl
    exact hnote n next rfl

theorem WakeInv.with_trace (hi : WakeInv s served) (t : List Entry) :
    WakeInv { s with trace := t } served :=
  hi.of_actors rfl rfl rfl rfl rfl

/-- Resuming the served process records its notes and marks it running: it still waits for
nothing. -/
theorem WakeInv.resume_start (hi : WakeInv s (some p)) (t : List Entry) :
    WakeInv ({ s with trace := t }.update p fun a => { a with status := .running }) (some p) :=
  (hi.with_trace t).update_served (fun _ h => h) (fun _ _ => rfl) (fun _ => rfl) fun _ => rfl

theorem WakeInv.resume_some (hi : WakeInv s (some p)) {r : Reply} {req : Request}
    (h : s.resume p r = (some req, s')) : WakeInv s' (some p) := by
  simp only [System.resume] at h
  split at h
  · cases h
  · split at h
    · simp only [Prod.mk.injEq] at h
      obtain ⟨-, rfl⟩ := h
      exact (hi.resume_start _).update_served (fun _ h => h) (fun _ _ => rfl) (fun _ => rfl)
        fun _ => rfl
    all_goals cases h

theorem WakeInv.resume_none (hi : WakeInv s (some p)) {r : Reply} (h : s.resume p r = (none, s')) :
    WakeInv s' none := by
  simp only [System.resume] at h
  split at h
  · rename_i hp
    simp only [Prod.mk.injEq] at h
    obtain ⟨-, rfl⟩ := h
    exact hi.unserve hp
  · split at h
    · cases h
    · simp only [Prod.mk.injEq] at h
      obtain ⟨-, rfl⟩ := h
      exact (hi.resume_start _).terminate_self _
    · simp only [Prod.mk.injEq] at h
      obtain ⟨-, rfl⟩ := h
      exact (hi.resume_start _).terminate_self _
    · rename_i n next hstop
      exact absurd hstop (Program.advance_ne_note _ n next)

/-! ## Requests of the served process -/


/-- How the scheduler stands after a request of the served process `p`: while the answer is
still to be queued `p` is served, and once it parks it waits for exactly one thing. -/
def AfterRequest (p : Nat) : Flow → System → Prop
  | .reply _, s => WakeInv s (some p)
  | .park, s => WakeInv s none

/-- The served process starts to wait in a receive that accepts none of its messages. -/
theorem WakeInv.wait_receive {pr : PendingReceive} (hi : WakeInv s (some p)) (ha : s.find? p = some a)
    (hsel : selectMessage a.mailbox pr.clauses = .ok none) (hpr : PendingWf s p pr) :
    WakeInv (s.update p fun a => { a with status := .suspended, pending := some pr }) none := by
  refine hi.park (fun _ h => h) (fun _ _ => rfl) fun b hb h => ?_
  rw [ha, Option.some.injEq] at hb
  subst hb
  refine ⟨.receive h.resumes rfl h.wakes, fun pr' hpr' => ?_, fun pr' hpr' => ?_⟩
  · cases hpr'
    exact ⟨rfl, fun hm => absurd hm (not_accepts_of_selectMessage hsel)⟩
  · cases hpr'
    exact hpr

/-- Waiting in a receive without a deadline: under a fresh token, with no timer. -/
theorem WakeInv.park_receive {clauses : List Clause} (hi : WakeInv s (some p))
    (ha : s.find? p = some a) (hsel : selectMessage a.mailbox clauses = .ok none) :
    WakeInv ({ s with nextToken := s.nextToken + 1 }.update p fun a =>
      { a with status := .suspended, pending := some ⟨clauses, s.nextToken + 1, none⟩ }) none := by
  have h1 : WakeInv { s with nextToken := s.nextToken + 1 } (some p) :=
    hi.calm (hi.wf.of_actors rfl rfl rfl) rfl (Nat.le_refl _) (Nat.le_succ _) (CalmActors.of_actors rfl)
  refine h1.wait_receive ha hsel ⟨Nat.le_refl _, fun _ e he hev => ?_, fun _ h => nomatch h⟩
  -- every timeout event carries a token issued before
  have := hi.token_le e he p _ hev
  dsimp only at this
  omega

/-- Waiting in a receive with a deadline: under a fresh token, with a timer whose sequence
number no other timer has. -/
theorem WakeInv.park_receive_timer {clauses : List Clause} (hi : WakeInv s (some p))
    (ha : s.find? p = some a) (hsel : selectMessage a.mailbox clauses = .ok none) (d : Nat) :
    let timer := s.timers.push d (.receiveTimeout p (s.nextToken + 1))
    WakeInv ({ s with nextToken := s.nextToken + 1, timers := timer.2 }.update p fun a =>
      { a with status := .suspended, pending := some ⟨clauses, s.nextToken + 1, some timer.1⟩ }) none := by
  intro timer
  have h1 : WakeInv { s with nextToken := s.nextToken + 1, timers := timer.2 } (some p) :=
    hi.push_timer d (fun _ h => by cases h) (Nat.le_succ _)
      fun _ _ h => by cases h; exact ⟨Nat.lt_succ_self _, Nat.le_refl _⟩
  refine h1.wait_receive ha hsel ⟨Nat.le_refl _, (fun h => nomatch h), fun id hid => ?_⟩
  cases hid
  refine ⟨Nat.le_refl _, fun e he hs q => ?_⟩
  rcases TimerQueue.mem_push.1 he with rfl | he
  · exact fun h => nomatch h
  · -- the older timers have smaller sequence numbers
    have := hi.timers.seq_le e he
    rw [TimerQueue.push_fst] at hs
    omega

/-- The served process asks to receive: an answer at once keeps it served, and a wait makes
it wait in the receive alone, under a token no timer event carries yet. -/
theorem WakeInv.beginReceive (hi : WakeInv s (some p)) (clauses : List Clause) (deadline : Option Nat) :
    AfterRequest p (s.beginReceive p clauses deadline).1 (s.beginReceive p clauses deadline).2 := by
  generalize hb : s.beginReceive p clauses deadline = out
  obtain ⟨flow, s'⟩ := out
  unfold System.beginReceive at hb
  split at hb
  · rename_i hp
    simp only [Prod.mk.injEq] at hb
    obtain ⟨rfl, rfl⟩ := hb
    exact hi.unserve hp
  · rename_i a ha
    split at hb
    · simp only [Prod.mk.injEq] at hb
      obtain ⟨rfl, rfl⟩ := hb
      exact hi.terminate_self _
    · simp only [Prod.mk.injEq] at hb
      obtain ⟨rfl, rfl⟩ := hb
      exact hi.update_served (fun _ h => h) (fun _ _ => rfl) (fun _ => rfl) fun _ => rfl
    · rename_i hsel
      split at hb
      · simp only [Prod.mk.injEq] at hb
        obtain ⟨rfl, rfl⟩ := hb
        exact hi
      · cases deadline with
        | none =>
          simp only [Prod.mk.injEq] at hb
          obtain ⟨rfl, rfl⟩ := hb
          exact hi.park_receive ha hsel
        | some d =>
          generalize hq : s.timers.push d (.receiveTimeout p (s.nextToken + 1)) = out at hb
          obtain ⟨id, q⟩ := out
          simp only [Prod.mk.injEq] at hb
          obtain ⟨rfl, rfl⟩ := hb
          obtain ⟨rfl, rfl⟩ : id = (s.timers.push d (.receiveTimeout p (s.nextToken + 1))).1 ∧
              q = (s.timers.push d (.receiveTimeout p (s.nextToken + 1))).2 := by
            rw [hq]
            exact ⟨rfl, rfl⟩
          exact hi.park_receive_timer ha hsel d

/-- The served process, asleep, sets its wake-up timer: that timer is what it waits for. -/
theorem WakeInv.push_wake (hi : WakeInv s (some p))
    (hsl : ∀ a, s.find? p = some a → a.status = .sleeping) (t : Nat) :
    WakeInv { s with timers := (s.timers.push t (.wake p)).2 } none := by
  have hw : ∀ q, (s.timers.push t (.wake p)).2.wakes q = s.timers.wakes q + if q = p then 1 else 0 := by
    intro q
    rw [TimerQueue.wakes_push]
    by_cases hq : q = p
    · simp [TimerEvent.isWake, hq]
    · simp [TimerEvent.isWake, hq, Ne.symm hq]
  refine ⟨hi.wf.of_actors rfl rfl rfl, hi.timers.push _ _, (fun _ h => by cases h), ?_, ?_, ?_, ?_,
    hi.listening⟩
  · intro e he q hq
    rcases TimerQueue.mem_push.1 he with rfl | he
    · cases hq
      exact hi.served_le p rfl
    · exact hi.wake_le e he q hq
  · intro e he q tok ht
    rcases TimerQueue.mem_push.1 he with rfl | he
    · cases ht
    · exact hi.token_le e he q tok ht
  · intro q a pr ha hpr
    exact (hi.pending q a pr ha hpr).push t (fun h => by cases h) (Nat.le_refl _) rfl
  · intro q a ha
    have h := hi.wakeUp q a ha
    dsimp only
    rw [hw]
    by_cases hq : q = p
    · subst hq
      rw [if_pos rfl] at h
      rw [if_pos rfl, h.wakes]
      exact .sleep h.resumes h.pending (hsl a ha) rfl
    · rw [if_neg fun h => hq (Option.some.inj h).symm] at h
      rw [if_neg hq]
      exact h

/-- The served process goes to sleep: its one wake-up timer is what it waits for. -/
theorem WakeInv.sleep (hi : WakeInv s (some p)) (ms : Nat) :
    WakeInv (s.handle p (.sleep ms)).2 none := by
  have h1 : WakeInv (s.update p fun a => { a with status := .sleeping }) (some p) :=
    hi.update_served (fun _ h => h) (fun _ _ => rfl) (fun _ => rfl) fun _ => rfl
  have hsl : ∀ a, (s.update p fun a => { a with status := .sleeping }).find? p = some a →
      a.status = .sleeping := by
    intro a ha
    rcases find?_update_cases (f := fun a => { a with status := .sleeping }) (fun _ h => h) ha with ⟨-, b, -, rfl⟩ | ⟨hne, -⟩
    · rfl
    · exact absurd rfl hne
  exact h1.push_wake hsl _

/-- A request answered at once keeps the served process served. -/
theorem WakeInv.handle_prompt (hi : WakeInv s (some p)) {req : Request} (hreq : req.IsPrompt) :
    AfterRequest p (s.handle p req).1 (s.handle p req).2 := by
  obtain ⟨r, hr⟩ := handle_reply s p hreq
  rw [hr]
  exact (WakeInv.keeps (some p)).handle hi p hreq

/-- Every request of the served process leaves the scheduler as `AfterRequest` says. -/
theorem WakeInv.handle (hi : WakeInv s (some p)) (req : Request) :
    AfterRequest p (s.handle p req).1 (s.handle p req).2 := by
  rcases req.isPrompt_or with hreq | ⟨clauses, after, rfl⟩ | ⟨ms, rfl⟩
  · exact hi.handle_prompt hreq
  · exact hi.beginReceive clauses _
  · exact hi.sleep ms

/-- Once the answer to the served process's request is queued, or the process has parked,
nothing is served. -/
theorem WakeInv.answer (hi : WakeInv s (some p)) (req : Request) :
    WakeInv (match (s.handle p req).1 with
      | .reply r => (s.handle p req).2.enqueue p (.resume r)
      | .park => (s.handle p req).2) none := by
  have h := hi.handle req
  generalize s.handle p req = out at h ⊢
  obtain ⟨flow, s'⟩ := out
  cases flow with
  | reply r => exact h.enqueue_resume r
  | park => exact h

/-! ## Tasks -/

/-- A cancelled timer that wakes nobody. -/
theorem WakeInv.cancel (hi : WakeInv s served) {id : Nat}
    (hid : ∀ e ∈ s.timers.entries, e.seq = id → ∀ q, e.event ≠ .wake q) :
    WakeInv { s with timers := s.timers.cancel id } served :=
  hi.frame (hi.wf.of_actors rfl rfl rfl) (hi.timers.cancel hid)
    (fun p _ _ => TimerQueue.wakes_cancel hi.timers hid p) (fun e he => (TimerQueue.cancel_subset id).1 e he)
    (Nat.le_of_eq (TimerQueue.cancel_seq id).symm) (Nat.le_refl _) (Nat.le_refl _) (CalmActors.of_actors rfl)

theorem find?_update_of {f : Actor → Actor} (ha : s.find? p = some a)
    (hf : ∀ a, a.pid = p → (f a).pid = p) : (s.update p f).find? p = some (f a) := by
  rw [find?_update hf, if_pos rfl, ha, Option.map_some]

theorem update_update {f g : Actor → Actor} (hf : ∀ a, a.pid = p → (f a).pid = p) :
    (s.update p f).update p g = s.update p (g ∘ f) := by
  simp only [System.update, Actors.update, List.map_map]
  congr 1
  refine List.map_congr_left fun b _ => ?_
  by_cases hb : b.pid = p
  · simp [hb, hf b hb]
  · simp [hb]

/-- Ending a process does not read its queue. -/
theorem terminate_update_queue {a : Actor} (ha : s.find? p = some a) (rest : List Task) (r : ExitReason) :
    (s.update p fun a => { a with queue := rest }).terminate p r = s.terminate p r := by
  have h1 : (s.update p fun a => { a with queue := rest }).find? p = some { a with queue := rest } :=
    find?_update_of ha fun _ h => h
  -- the process leaves the table, and the others never saw its queue
  have hfilter : ∀ l : Actors, (l.update p fun a => { a with queue := rest }).filter (·.pid != p) =
      l.filter (·.pid != p) := by
    intro l
    induction l with
    | nil => rfl
    | cons b l ih =>
      by_cases hb : b.pid = p
      · simpa [Actors.update, hb] using ih
      · simpa [Actors.update, hb] using ih
  have hrel : (s.update p fun a => { a with queue := rest }).release p r = s.release p r := by
    rw [release_of_find? h1, release_of_find? ha]
    simp only [System.update, hfilter]
    rfl
  simp only [System.terminate, hrel]

/-- How the scheduler stands once the reply a task brings is known: a reply makes `p` the
served process. -/
def AfterTask (p : Nat) : Option Reply → System → Prop
  | some _, s => WakeInv s (some p)
  | none, s => WakeInv s none

theorem AfterTask.wakeInv {reply : Option Reply} (h : AfterTask p reply s) :
    WakeInv s (reply.map fun _ => p) := by
  cases reply <;> exact h

/-- A process waiting in a receive stops waiting: with its receive ended, it is the one the
scheduler answers. -/
theorem WakeInv.end_receive {f : Actor → Actor} (hi : WakeInv s none) (ha : s.find? p = some a)
    (hwait : a.pending.isSome = true) (hf : ∀ a, a.pid = p → (f a).pid = p)
    (hl : (f a).links = a.links) (hr : (f a).resumes = a.resumes) (hpend : (f a).pending = none) :
    WakeInv (s.update p f) (some p) := by
  refine hi.serve ha hf hl fun hw => ?_
  -- the receive was the one thing it waited for
  cases hw with
  | resume _ h₂ _ => rw [h₂] at hwait; cases hwait
  | receive h₁ _ h₃ => exact ⟨hr.trans h₁, hpend, h₃⟩
  | sleep _ h₂ _ _ => rw [h₂] at hwait; cases hwait

/-- Taking a retry and looking at the mailbox again: a selected message ends the receive, with
its timer, and makes the process served; otherwise it still waits in the receive alone. -/
theorem WakeInv.retry {s₁ : System} (hi : WakeInv s none) (h : s.popTask p = some (.retry, s₁)) :
    AfterTask p (s₁.retryReceive p).1 (s₁.retryReceive p).2 := by
  obtain ⟨a, rest, ha, hq, rfl⟩ := popTask_eq h
  have hres : ({ a with queue := rest } : Actor).resumes = a.resumes := by
    rw [Actor.resumes, Actor.resumes, hq, List.countP_cons]
    rfl
  have h1 : (s.update p fun a => { a with queue := rest }).find? p = some { a with queue := rest } :=
    find?_update_of ha fun _ h => h
  -- without the retry taken, the wait is the same as long as no message is accepted
  have hcalm : (∀ pr, a.pending = some pr → ¬ ∃ m ∈ a.mailbox.messages, pr.Accepts m) →
      WakeInv (s.update p fun a => { a with queue := rest }) none := by
    intro hna
    refine hi.update (fun _ h => h) (fun _ _ => rfl) fun b hb => ?_
    rw [ha, Option.some.injEq] at hb
    subst hb
    exact ⟨hres, rfl, rfl, fun hl pr hpr => ⟨(hl pr hpr).1, fun hm => absurd hm (hna pr hpr)⟩⟩
  rw [System.retryReceive, h1]
  dsimp only
  cases hp : a.pending with
  | none => exact hcalm fun pr hpr => by rw [hp] at hpr; cases hpr
  | some pr =>
    dsimp only
    split
    · rename_i hsel
      exact hcalm fun pr' hpr' => by
        rw [hp, Option.some.injEq] at hpr'
        exact hpr' ▸ not_accepts_of_selectMessage hsel
    · rename_i r mb hsel
      have h2 : WakeInv ((s.update p fun a => { a with queue := rest }).update p
          fun a => { a with mailbox := mb, pending := none }) (some p) := by
        rw [update_update (f := fun a => { a with queue := rest }) fun _ h => h]
        exact hi.end_receive ha (by rw [hp]; rfl) (fun _ h => h) rfl hres rfl
      cases ht : pr.timeout with
      | none => exact h2
      | some id => exact h2.cancel ((hi.pending p a pr ha hp).timer id ht).2
    · rw [terminate_update_queue ha]
      exact hi.terminate p _

/-- A run of the tasks of one process ends between steps: every process waits for exactly one
thing again. -/
theorem WakeInv.runTasks (pid : Nat) :
    ∀ (n used : Nat) (s : System), WakeInv s none → WakeInv (System.runTasks pid n used s).2 none :=
  runTasks_keeps_served WakeInv pid (fun _ _ _ h hpop => h.popTask_resume hpop)
    (fun _ _ h hpop => (h.retry hpop).wakeInv) (fun _ _ _ h hres => h.resume_none hres)
    (fun _ _ _ _ h hres => h.resume_some hres) fun _ req h => h.answer req

theorem WakeInv.runSlice (hi : WakeInv s none) (pid limit : Nat) :
    WakeInv (s.runSlice pid limit).2 none :=
  (WakeInv.runTasks pid limit 0 s hi).update (fun _ h => h) (fun _ _ => rfl)
    fun _ _ => Calm.of_eq rfl rfl rfl rfl

theorem WakeInv.tick (hi : WakeInv s none) : WakeInv s.tick.2 none :=
  tick_keeps (WakeInv · none) (fun _ pid n h => h.runSlice pid n) s hi

/-! ## Timers -/

section Timers

variable {ev : TimerEvent} {tq : TimerQueue}

theorem find?_with_timers (t : TimerQueue) : ({ s with timers := t } : System).find? p = s.find? p :=
  rfl

/-- Taking a timer event that wakes no live process keeps the invariant. -/
theorem WakeInv.pop_quiet (hi : WakeInv s served) (h : s.timers.pop = some (ev, tq))
    (hev : ∀ p, ev = .wake p → s.find? p = none) : WakeInv { s with timers := tq } served := by
  obtain ⟨-, -, -, -, -, -, hseq⟩ := TimerQueue.pop_spec h
  refine hi.frame (hi.wf.of_actors rfl rfl rfl) (hi.timers.pop h) (fun p a ha => ?_)
    (fun e he => TimerQueue.mem_of_pop h he) (Nat.le_of_eq hseq.symm) (Nat.le_refl _) (Nat.le_refl _)
    (CalmActors.of_actors rfl)
  rw [find?_with_timers] at ha
  rw [TimerQueue.wakes_pop hi.timers h p]
  cases hw : ev.isWake p with
  | false => rfl
  | true =>
    rw [hev p (TimerEvent.isWake_iff.1 hw)] at ha
    cases ha

/-- A live process whose wake-up timer is taken sleeps, waiting for that timer alone. -/
theorem WakeInv.asleep_of_pop (hi : WakeInv s none) (h : s.timers.pop = some (.wake p, tq))
    (ha : s.find? p = some a) :
    a.resumes = 0 ∧ a.pending = none ∧ a.status = .sleeping ∧ tq.wakes p = 0 := by
  have hw := hi.waits ha
  have hpop : s.timers.wakes p = tq.wakes p + 1 := by
    rw [TimerQueue.wakes_pop hi.timers h p]
    simp [TimerEvent.isWake]
  cases hw with
  | resume _ _ h₃ => omega
  | receive _ _ h₃ => omega
  | sleep h₁ h₂ h₃ h₄ => exact ⟨h₁, h₂, h₃, by omega⟩

/-- Taking the wake-up timer of a live process makes it the one the scheduler answers. -/
theorem WakeInv.pop_wake (hi : WakeInv s none) (h : s.timers.pop = some (.wake p, tq))
    (ha : s.find? p = some a) : WakeInv { s with timers := tq } (some p) := by
  obtain ⟨h₁, h₂, -, h₄⟩ := hi.asleep_of_pop h ha
  obtain ⟨-, -, -, -, -, -, hseq⟩ := TimerQueue.pop_spec h
  have hsub : ∀ e ∈ tq.entries, e ∈ s.timers.entries := fun e he => TimerQueue.mem_of_pop h he
  have hle : p ≤ s.nextPid := hi.wf.le_of_find? ha
  refine ⟨hi.wf.of_actors rfl rfl rfl, hi.timers.pop h, fun q hq => Option.some.inj hq ▸ hle,
    fun e he => hi.wake_le e (hsub e he), fun e he => hi.token_le e (hsub e he),
    fun q b pr hb hpr => (hi.pending q b pr hb hpr).frame (Nat.le_refl _) (Nat.le_of_eq hseq.symm) hsub,
    fun q b hb => ?_, hi.listening⟩
  rw [find?_with_timers] at hb
  by_cases hq : q = p
  · subst hq
    rw [ha, Option.some.injEq] at hb
    subst hb
    rw [if_pos rfl]
    exact ⟨h₁, h₂, h₄⟩
  · rw [if_neg fun h => hq (Option.some.inj h).symm]
    have hw := hi.waits hb
    have hwq : s.timers.wakes q = tq.wakes q := by
      rw [TimerQueue.wakes_pop hi.timers h q]
      simp [TimerEvent.isWake, Ne.symm hq]
    exact hwq ▸ hw

/-- A due timer event, taken and handled: a wake-up resumes the sleeping process, a timeout
ends the receive it belongs to, and a delayed message is delivered. -/
theorem WakeInv.fire (hi : WakeInv s none) (h : s.timers.pop = some (ev, tq)) :
    WakeInv ({ s with timers := tq }.fire ev) none := by
  cases ev with
  | wake p =>
    simp only [System.fire]
    cases ha : s.find? p with
    | none =>
      rw [if_neg (by simp [find?_with_timers, ha])]
      exact hi.pop_quiet h fun q hq => by cases hq; exact ha
    | some a =>
      -- a live process whose wake-up is due sleeps: the wake-up resumes it
      obtain ⟨-, -, hsl, -⟩ := hi.asleep_of_pop h ha
      rw [if_pos (by simp [find?_with_timers, ha, hsl])]
      exact (hi.pop_wake h ha).enqueue_resume _
  | receiveTimeout p tok =>
    have h1 := hi.pop_quiet h fun _ h => by cases h
    simp only [System.fire]
    split
    · rename_i hwait
      rw [find?_with_timers] at hwait
      cases ha : s.find? p with
      | none => rw [ha] at hwait; cases hwait
      | some a =>
        rw [ha, Option.any_some] at hwait
        have hsome : a.pending.isSome = true := by
          cases hp : a.pending with
          | none => rw [hp] at hwait; cases hwait
          | some _ => rfl
        exact (h1.end_receive (f := fun a => { a with pending := none })
          ((find?_with_timers tq).trans ha) hsome (fun _ h => h) rfl rfl rfl).enqueue_resume _
    · exact h1
  | deliver p m => exact (hi.pop_quiet h fun _ h => by cases h).deliver p m

end Timers

theorem WakeInv.fireTimers (hi : WakeInv s none) : WakeInv s.fireTimers none :=
  fireTimers_keeps (WakeInv · none)
    (fun _ _ _ h hpop => h.fire (TimerQueue.popDue_eq_pop hpop)) s hi

/-- Dropping a timer that can no longer have an effect: a wake-up of a live process is never
stale, since that process sleeps. -/
theorem WakeInv.pruneStaleTimers (hi : WakeInv s none) : WakeInv s.pruneStaleTimers none := by
  refine pruneStaleTimers_keeps (WakeInv · none) (fun s ev tq h hpop hdead => ?_) s hi
  refine h.pop_quiet hpop fun p hp => ?_
  subst hp
  cases ha : s.find? p with
  | none => rfl
  | some a =>
    obtain ⟨-, -, hsl, -⟩ := h.asleep_of_pop hpop ha
    simp [System.isLive, ha, hsl] at hdead

theorem WakeInv.runUntilIdle (hi : WakeInv s none) : WakeInv s.runUntilIdle none :=
  runUntilIdle_keeps (WakeInv · none) (fun _ h => h.fireTimers) (fun _ h => h.tick) s hi

theorem WakeInv.run (hi : WakeInv s none) : WakeInv s.run none :=
  run_keeps (WakeInv · none) (fun _ h => h.runUntilIdle) (fun _ h => h.pruneStaleTimers)
    (fun _ _ h => h.of_actors rfl rfl rfl rfl rfl) s hi

/-! ## Every reachable state -/

theorem WakeInv.create (c : Config) (allocate : StackAllocation) :
    WakeInv (System.createOn c allocate) none where
  wf := Wf.create c allocate
  timers := TimerQueue.Wf.empty
  served_le _ h := nomatch h
  wake_le _ h := nomatch h
  token_le _ h := nomatch h
  pending _ _ _ h := nomatch h
  wakeUp _ _ h := nomatch h
  listening _ _ h := nomatch h

theorem WakeInv.perform (hi : WakeInv s none) (call : Call) : WakeInv (s.perform call) none :=
  (WakeInv.keeps none).perform (fun _ h => h.tick) (fun _ h => h.runUntilIdle) (fun _ h => h.run)
    (fun _ _ h => h.of_actors rfl rfl rfl rfl rfl) hi call

/-! ## Replies -/

/-- A selected message is a message: selection never times out. -/
theorem selectMessage_received {mb mb' : Mailbox} {cs : List Clause} {r : Received}
    (h : selectMessage mb cs = .ok (some (r, mb'))) : ∃ i vs, r = .message i vs := by
  unfold selectMessage at h
  cases ht : mb.takeFirstE (fun msg => firstClause msg cs.zipIdx) with
  | error e =>
    rw [ht] at h
    cases h
  | ok o =>
    rw [ht] at h
    cases o with
    | none => cases h
    | some x =>
      obtain ⟨_, ⟨i, vs⟩, _⟩ := x
      simp only [Except.map, Option.map_some, Except.ok.injEq, Option.some.injEq, Prod.mk.injEq] at h
      exact ⟨i, vs, h.1.symm⟩

/-- A receive answered at once gets a selected message, or a timeout when its deadline has
passed. -/
theorem beginReceive_reply {cs : List Clause} {deadline : Option Nat} {r : Reply}
    (h : (s.beginReceive p cs deadline).1 = .reply r) :
    (∃ i vs, r = .received (.message i vs)) ∨ (r = .received .timeout ∧ deadline.isSome = true) := by
  unfold System.beginReceive at h
  split at h
  · cases h
  · split at h
    · cases h
    · rename_i rc mb hsel
      obtain ⟨i, vs, rfl⟩ := selectMessage_received hsel
      cases h
      exact .inl ⟨i, vs, rfl⟩
    · split at h
      · rename_i hdl
        cases h
        refine .inr ⟨rfl, ?_⟩
        cases deadline with
        | none => cases hdl
        | some _ => rfl
      · cases deadline with
        | none => cases h
        | some d =>
          dsimp only at h
          generalize s.timers.push d (.receiveTimeout p (s.nextToken + 1)) = out at h
          obtain ⟨_, _⟩ := out
          cases h

/-- Every reply the scheduler gives at once is of the request's own kind. -/
theorem handle_answers (pid : Nat) (req : Request) (r : Reply) (h : (s.handle pid req).1 = .reply r) :
    req.Answers r := by
  cases req with
  | receive cs after =>
    rcases beginReceive_reply h with ⟨i, vs, rfl⟩ | ⟨rfl, hd⟩
    · trivial
    · cases after with
      | none => cases hd
      | some _ => rfl
  | sleep ms => cases h
  | spawn body link monitor =>
    rw [System.handle] at h
    generalize s.spawn body = m at h
    obtain ⟨child, s1⟩ := m
    dsimp only at h
    split at h
    · rename_i hm
      generalize ((if link = true then s1.link pid child else s1).monitor pid child) = m at h
      obtain ⟨ref, s3⟩ := m
      cases h
      exact hm.symm ▸ rfl
    · rename_i hm
      cases h
      simpa [Request.Answers] using hm
  | send dest msg | register name =>
    simp only [System.handle] at h
    split at h <;> (cases h; trivial)
  | yield | sendAfter _ _ _ | link _ | unlink _ | exit _ _ | whereis _ | registered | isAlive _ | list =>
    cases h
    trivial
  | monitor _ | demonitor _ | unregister _ | processFlag _ _ | put _ _ | get _ | erase _ | getKeys
  | makeRef =>
    simp only [System.handle] at h
    cases h
    trivial

theorem Reachable.wakeInv (hs : s.Reachable) : WakeInv s none := by
  induction hs with
  | create c allocate => exact WakeInv.create c allocate
  | perform call _ ih => exact ih.perform call

/-! ## Main results -/

/-- **Every request is answered once.** In every state a host can reach, whatever the programs
of its processes: each live process waits for exactly one thing (one queued resume; or the
receive it waits in, with no resume; or, asleep, its one wake-up timer, with neither); a receive
without a deadline has no timeout event, so only a receive with a deadline is ever answered by
a timeout; and every reply the scheduler gives at once is of its request's own kind. -/
theorem wakeUp_unique (hs : s.Reachable) :
    (∀ p a, s.find? p = some a → WakeUp a (s.timers.wakes p)) ∧
    (∀ p a pr, s.find? p = some a → a.pending = some pr → pr.timeout = none →
      ∀ e ∈ s.timers.entries, e.event ≠ .receiveTimeout p pr.token) ∧
    ∀ pid req r, (s.handle pid req).1 = .reply r → req.Answers r := by
  have hi := hs.wakeInv
  exact ⟨fun p a ha => hi.waits ha, fun p a pr ha hpr hn => (hi.pending p a pr ha hpr).no_timeout hn,
    fun pid req r h => handle_answers pid req r h⟩

/-- A process that waits in a receive with no clauses and no deadline, spawned and run by the
host. -/
def waitingReceiver : System :=
  ((create .default).perform (.spawn fun _ => .call (.receive [] none) fun _ => .finish (.ok ()))).perform
    .runUntilIdle

/-- The receiver is left waiting in its receive. -/
theorem waitingReceiver_waits : (waitingReceiver.find? 1).any (·.pending.isSome) = true := by
  decide +kernel

theorem wakeUp_unique_waitingReceiver :
    waitingReceiver.Reachable ∧ (waitingReceiver.find? 1).any (·.pending.isSome) = true ∧
    ((∀ p a, waitingReceiver.find? p = some a → WakeUp a (waitingReceiver.timers.wakes p)) ∧
    (∀ p a pr, waitingReceiver.find? p = some a → a.pending = some pr → pr.timeout = none →
      ∀ e ∈ waitingReceiver.timers.entries, e.event ≠ .receiveTimeout p pr.token) ∧
    ∀ pid req r, (waitingReceiver.handle pid req).1 = .reply r → req.Answers r) := by
  have hs : waitingReceiver.Reachable := .perform _ (.perform _ (.create _ _))
  exact ⟨hs, waitingReceiver_waits, wakeUp_unique hs⟩

/-- **No lost wake-up.** In every state a host can reach, whatever the order of sends, delayed
messages, exit and down messages and timer firings, a process waiting in a receive is
suspended, and a retry is queued for it whenever a message in its mailbox is accepted by one of
the receive's clauses. -/
theorem pending_receive_listening (hs : s.Reachable) :
    ∀ p a pr, s.find? p = some a → a.pending = some pr →
      a.status = .suspended ∧ ((∃ m ∈ a.mailbox.messages, pr.Accepts m) → Task.retry ∈ a.queue) :=
  fun p a pr ha hpr => hs.wakeInv.listening p a ha pr hpr

theorem pending_receive_listening_waitingReceiver :
    waitingReceiver.Reachable ∧ (waitingReceiver.find? 1).any (·.pending.isSome) = true ∧
    ∀ p a pr, waitingReceiver.find? p = some a → a.pending = some pr →
      a.status = .suspended ∧ ((∃ m ∈ a.mailbox.messages, pr.Accepts m) → Task.retry ∈ a.queue) := by
  have hs : waitingReceiver.Reachable := .perform _ (.perform _ (.create _ _))
  exact ⟨hs, waitingReceiver_waits, pending_receive_listening hs⟩

end System

end ActorCore
