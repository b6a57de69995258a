import ActorCore.Proofs.WakeUp
import ActorCore.Proofs.TimerRefinement

/-!
# Receive timeouts never go stale

A process that waits in a receive with a deadline has one timer, whose event names the process
and the token of the receive, and the receive records that timer's sequence number. Between
scheduler steps the timers that can still fire (`TimerQueue.live`: held and not cancelled) and
these receives match one to one (`System.TimeoutsMatch`). Every way a wait ends keeps the match:
a selected message ends it and cancels its timer, the timer ends it by firing, and the end of the
process, also inside a cascade of exit signals, cancels the timer of its receive. A receive
answered at once, or whose deadline has already passed, sets no timer.

Each operation of the interface keeps the match (`TimeoutsMatch.keeps`). The scheduler keeps it
together with `WakeInv`, which says that the process it serves waits in no receive when that
process asks for a new one; a wait that starts therefore never replaces another.

Principal result: `System.timeouts_match` — in every reachable state each live timeout timer
belongs to the receive its process waits in, under the same token; each receive with a deadline
has its timer live; live timers have distinct sequence numbers; and a due timeout, taken from
the queue, answers the receive its process waits in.
-/

namespace ActorCore

namespace TimerQueue

variable {q q' : TimerQueue} {ev : TimerEvent}

/-- Taking a timer from a sound queue takes its first live timer and leaves the others live. -/
theorem Sound.pop_live (hs : q.Sound) (h : q.pop = some (ev, q')) :
    ∃ e rest, q.live = e :: rest ∧ e.event = ev ∧ q'.live = rest ∧ q'.Sound := by
  cases hq : q.entries with
  | nil =>
    rw [pop_of_nil hq] at h
    cases h
  | cons e rest =>
    rw [pop_of_cons hq, Option.some.injEq, Prod.mk.injEq] at h
    obtain ⟨rfl, rfl⟩ := h
    obtain ⟨hsound, hlive⟩ := hs.pop hq
    exact ⟨e, _, hs.live_eq_cons hq, rfl, hlive, hsound⟩

theorem Sound.live_seq_nodup (hs : q.Sound) : (q.live.map (·.seq)).Nodup :=
  hs.seq_nodup.sublist (List.filter_sublist.map _)

/-- Two live timers with one sequence number are one timer. -/
theorem Sound.eq_of_seq (hs : q.Sound) {e e' : TimerEntry} (he : e ∈ q.live) (he' : e' ∈ q.live)
    (h : e.seq = e'.seq) : e = e' :=
  List.inj_on_of_nodup_map hs.live_seq_nodup he he' h

theorem Sound.mem_live_cancel (hs : q.Sound) (id : Nat) {e : TimerEntry} :
    e ∈ (q.cancel id).live ↔ e ∈ q.live ∧ e.seq ≠ id := by
  rw [(hs.cancel id).2, List.mem_filter, bne_iff_ne]

end TimerQueue

namespace System

variable {s s' : System} {p pid : Nat} {a : Actor} {pr : PendingReceive} {tq : TimerQueue}

/-! ## Which receive a process waits in -/

/-- The receive a live process waits in. -/
def waiting (s : System) (p : Nat) : Option PendingReceive :=
  (s.find? p).bind (·.pending)

theorem waiting_eq_some : s.waiting p = some pr ↔ ∃ a, s.find? p = some a ∧ a.pending = some pr := by
  simp [waiting, Option.bind_eq_some_iff]

theorem waiting_of_find? (ha : s.find? p = some a) : s.waiting p = a.pending := by
  simp [waiting, ha]

theorem waiting_of_actors (h : s'.actors = s.actors) (q : Nat) : s'.waiting q = s.waiting q := by
  unfold waiting find?
  rw [h]

/-- A change of one process that keeps its pid and its receive keeps every wait. -/
theorem waiting_update {f : Actor → Actor} (hf : ∀ a, a.pid = pid → (f a).pid = pid)
    (hp : ∀ a, s.find? pid = some a → (f a).pending = a.pending) (q : Nat) :
    (s.update pid f).waiting q = s.waiting q := by
  unfold waiting
  rw [find?_update hf]
  split
  · rename_i hq
    subst hq
    cases ha : s.find? q with
    | none => rfl
    | some a => exact hp a ha
  · rfl

theorem waiting_update_ne {f : Actor → Actor} (hf : ∀ a, a.pid = pid → (f a).pid = pid) {q : Nat}
    (hq : q ≠ pid) : (s.update pid f).waiting q = s.waiting q := by
  unfold waiting
  rw [find?_update hf, if_neg hq]

theorem find?_spawn_of (body : Nat → Program) {q : Nat} (ha : s.find? q = some a) :
    (s.spawn body).2.find? q = some a := by
  simp only [System.spawn]
  split
  · simp only [find?, Actors.find?] at ha ⊢
    rw [List.find?_append, ha]
    rfl
  · exact ha

/-- A spawned process waits in no receive. -/
theorem waiting_spawn (body : Nat → Program) (q : Nat) : (s.spawn body).2.waiting q = s.waiting q := by
  unfold waiting
  cases hq : s.find? q with
  | some a => rw [find?_spawn_of body hq]
  | none =>
    cases h : (s.spawn body).2.find? q with
    | none => rfl
    | some a' =>
      rcases find?_spawn body h with h' | ⟨-, -, hnone⟩
      · rw [hq] at h'
        cases h'
      · exact hnone

/-- The end of a process ends its receive and leaves every other. -/
theorem waiting_release (x : Nat) (r : ExitReason) (q : Nat) :
    (s.release x r).1.waiting q = if q = x then none else s.waiting q := by
  cases hx : s.find? x with
  | none =>
    rw [release_of_find?_none hx]
    split
    · rename_i hq
      subst hq
      simp [waiting, hx]
    · rfl
  | some a =>
    obtain ⟨taken, hfind⟩ := find?_release hx r
    unfold waiting
    rw [hfind q]
    split
    · rfl
    · cases s.find? q with
      | none => rfl
      | some o => exact (calm_afterExit a r taken o).pending

/-! ## The match between live timeouts and waiting receives -/

/-- The timeout timers that can still fire and the receives that wait with a deadline match one
to one: each names a process waiting in the receive of its token, whose timer it is, and each
such receive has its timer live. The queue keeps its own bookkeeping sound. -/
structure TimeoutsMatch (s : System) : Prop where
  sound : s.timers.Sound
  timer_waits : ∀ e ∈ s.timers.live, ∀ p tok, e.event = .receiveTimeout p tok →
    ∃ pr, s.waiting p = some pr ∧ pr.token = tok ∧ pr.timeout = some e.seq
  waits_timer : ∀ p pr t, s.waiting p = some pr → pr.timeout = some t →
    ∃ e ∈ s.timers.live, e.seq = t ∧ e.event = .receiveTimeout p pr.token

/-- A change that keeps every wait and every live timeout timer keeps the match. -/
theorem TimeoutsMatch.frame (h : TimeoutsMatch s) (hsound : s'.timers.Sound)
    (hw : ∀ q, s'.waiting q = s.waiting q)
    (hlive : ∀ e q tok, e.event = .receiveTimeout q tok → (e ∈ s'.timers.live ↔ e ∈ s.timers.live)) :
    TimeoutsMatch s' where
  sound := hsound
  timer_waits e he q tok hev := by
    rw [hw]
    exact h.timer_waits e ((hlive e q tok hev).1 he) q tok hev
  waits_timer q pr t hq ht := by
    obtain ⟨e, he, hseq, hev⟩ := h.waits_timer q pr t (hw q ▸ hq) ht
    exact ⟨e, (hlive e _ _ hev).2 he, hseq, hev⟩

/-- A change of nothing a wait or a timer depends on. -/
theorem TimeoutsMatch.of_eq (h : TimeoutsMatch s) (hact : s'.actors = s.actors)
    (ht : s'.timers = s.timers) : TimeoutsMatch s' :=
  h.frame (ht ▸ h.sound) (waiting_of_actors hact) fun _ _ _ _ => by rw [ht]

/-- A process stops waiting, and the timer of its receive leaves the live timers. -/
theorem TimeoutsMatch.end_wait (h : TimeoutsMatch s) (hsound : s'.timers.Sound)
    (hp : s'.waiting p = none) (hother : ∀ q, q ≠ p → s'.waiting q = s.waiting q)
    (hlive : ∀ e, e ∈ s'.timers.live ↔
      e ∈ s.timers.live ∧ (s.waiting p).bind (·.timeout) ≠ some e.seq) :
    TimeoutsMatch s' where
  sound := hsound
  timer_waits e he q tok hev := by
    obtain ⟨he, hne⟩ := (hlive e).1 he
    obtain ⟨pr, hq, htok, ht⟩ := h.timer_waits e he q tok hev
    -- the timer is not the one of the receive that ended
    have hqp : q ≠ p := by
      rintro rfl
      exact hne (by rw [hq]; exact ht)
    exact ⟨pr, (hother q hqp).trans hq, htok, ht⟩
  waits_timer q pr t hq ht := by
    have hqp : q ≠ p := by
      rintro rfl
      rw [hp] at hq
      cases hq
    rw [hother q hqp] at hq
    obtain ⟨e, he, hseq, hev⟩ := h.waits_timer q pr t hq ht
    refine ⟨e, (hlive e).2 ⟨he, fun hpt => hqp ?_⟩, hseq, hev⟩
    -- the ended receive's timer names `p`, and live timers have distinct numbers
    obtain ⟨prp, hwp, hpt'⟩ := Option.bind_eq_some_iff.1 hpt
    obtain ⟨e', he', hseq', hev'⟩ := h.waits_timer p prp e.seq hwp hpt'
    have hee : e' = e := h.sound.eq_of_seq he' he hseq'
    subst hee
    exact (TimerEvent.receiveTimeout.inj (hev.symm.trans hev')).1

/-- Cancelling the timer of a receive takes exactly that timer out of the live ones. -/
theorem TimeoutsMatch.mem_cancel_wait (h : TimeoutsMatch s) {id : Nat}
    (hid : (s.waiting p).bind (·.timeout) = some id) (e : TimerEntry) :
    e ∈ (s.timers.cancel id).live ↔ e ∈ s.timers.live ∧ (s.waiting p).bind (·.timeout) ≠ some e.seq := by
  rw [h.sound.mem_live_cancel, hid]
  exact and_congr_right fun _ => by simp [eq_comm]

/-- A receive without a deadline has no timer to cancel. -/
theorem mem_live_of_no_timer (hid : (s.waiting p).bind (·.timeout) = none) (e : TimerEntry) :
    e ∈ s.timers.live ↔ e ∈ s.timers.live ∧ (s.waiting p).bind (·.timeout) ≠ some e.seq := by
  simp [hid]

/-- A process that waited in no receive starts to wait in one; its timer, if it has a deadline,
is the one timer the change adds. -/
theorem TimeoutsMatch.start_wait (h : TimeoutsMatch s) (hsound : s'.timers.Sound)
    (hnone : s.waiting p = none) (hp : s'.waiting p = some pr)
    (hother : ∀ q, q ≠ p → s'.waiting q = s.waiting q)
    (hlive : ∀ e ∈ s'.timers.live,
      e ∈ s.timers.live ∨ (pr.timeout = some e.seq ∧ e.event = .receiveTimeout p pr.token))
    (hold : ∀ e ∈ s.timers.live, e ∈ s'.timers.live)
    (hnew : ∀ t, pr.timeout = some t →
      ∃ e ∈ s'.timers.live, e.seq = t ∧ e.event = .receiveTimeout p pr.token) :
    TimeoutsMatch s' where
  sound := hsound
  timer_waits e he q tok hev := by
    rcases hlive e he with he | ⟨ht, hev'⟩
    · obtain ⟨pr', hq, htok, ht⟩ := h.timer_waits e he q tok hev
      have hqp : q ≠ p := by
        rintro rfl
        rw [hnone] at hq
        cases hq
      exact ⟨pr', (hother q hqp).trans hq, htok, ht⟩
    · obtain ⟨rfl, rfl⟩ := TimerEvent.receiveTimeout.inj (hev.symm.trans hev')
      exact ⟨pr, hp, rfl, ht⟩
  waits_timer q pr' t hq ht := by
    by_cases hqp : q = p
    · subst hqp
      rw [hp, Option.some.injEq] at hq
      subst hq
      exact hnew t ht
    · rw [hother q hqp] at hq
      obtain ⟨e, he, hseq, hev⟩ := h.waits_timer q pr' t hq ht
      exact ⟨e, hold e he, hseq, hev⟩

/-- A new timer that times out no receive keeps the match. -/
theorem TimeoutsMatch.push_other (h : TimeoutsMatch s) (d : Nat) {ev : TimerEvent}
    (hev : ∀ q tok, ev ≠ .receiveTimeout q tok) :
    TimeoutsMatch { s with timers := (s.timers.push d ev).2 } := by
  refine h.frame (h.sound.push d ev) (fun _ => rfl) fun e q tok he => ?_
  show e ∈ (s.timers.push d ev).2.live ↔ e ∈ s.timers.live
  rw [TimerQueue.live_push h.sound, List.mem_orderedInsert]
  constructor
  · rintro (rfl | he')
    · exact absurd he (hev q tok)
    · exact he'
  · exact .inr

/-- Taking a first timer that times out no receive keeps the match. -/
theorem TimeoutsMatch.pop_other (h : TimeoutsMatch s) (hpop : s.timers.pop = some (ev, tq))
    (hev : ∀ q tok, ev ≠ .receiveTimeout q tok) : TimeoutsMatch { s with timers := tq } := by
  obtain ⟨e, rest, hlive, he, hlive', hsound⟩ := h.sound.pop_live hpop
  refine h.frame hsound (fun _ => rfl) fun e' q tok he' => ?_
  show e' ∈ tq.live ↔ e' ∈ s.timers.live
  rw [hlive', hlive, List.mem_cons]
  constructor
  · exact .inr
  · rintro (rfl | h')
    · exact absurd (he.symm.trans he') (hev q tok)
    · exact h'

/-- A timeout taken from the front of the queue belongs to the receive its process waits in,
under the same token; ending that wait with it keeps the match. -/
theorem TimeoutsMatch.pop_timeout (h : TimeoutsMatch s) {p tok : Nat}
    (hpop : s.timers.pop = some (.receiveTimeout p tok, tq)) :
    ∃ a pr, s.find? p = some a ∧ a.pending = some pr ∧ pr.token = tok ∧
      TimeoutsMatch ({ s with timers := tq }.update p fun a => { a with pending := none }) := by
  obtain ⟨e, rest, hlive, hev, hlive', hsound⟩ := h.sound.pop_live hpop
  obtain ⟨pr, hw, htok, ht⟩ :=
    h.timer_waits e (by rw [hlive]; exact List.mem_cons.2 (.inl rfl)) p tok hev
  obtain ⟨a, ha, hpr⟩ := waiting_eq_some.1 hw
  have hf : ∀ b : Actor, b.pid = p → ({ b with pending := none } : Actor).pid = p := fun _ h => h
  refine ⟨a, pr, ha, hpr, htok, h.end_wait hsound ?_ (fun q hq => waiting_update_ne hf hq) ?_⟩
  · rw [waiting_of_find? (find?_update_of ((find?_with_timers tq).trans ha) hf)]
  · -- the live timers behind the first have numbers other than its own
    have hnd := h.sound.live_seq_nodup
    rw [hlive, List.map_cons, List.nodup_cons] at hnd
    intro e'
    show e' ∈ tq.live ↔ _
    rw [hlive', hlive, hw, Option.bind_some, ht, List.mem_cons]
    constructor
    · intro he'
      refine ⟨.inr he', fun hs => hnd.1 ?_⟩
      rw [Option.some.inj hs]
      exact List.mem_map.2 ⟨e', he', rfl⟩
    · rintro ⟨rfl | he', hne⟩
      · exact absurd rfl hne
      · exact he'

/-! ## The operations of the interface -/

/-- A change of one process that keeps its pid and its receive keeps the match. -/
theorem TimeoutsMatch.update {f : Actor → Actor} (h : TimeoutsMatch s)
    (hf : ∀ a, a.pid = pid → (f a).pid = pid)
    (hp : ∀ a, s.find? pid = some a → (f a).pending = a.pending) : TimeoutsMatch (s.update pid f) :=
  h.frame h.sound (waiting_update hf hp) fun _ _ _ _ => Iff.rfl

theorem TimeoutsMatch.deliver (h : TimeoutsMatch s) (pid : Nat) (m : Term) :
    TimeoutsMatch (s.deliver pid m) :=
  h.update (fun _ h => h) fun a _ => (calm_deliver a m).pending

theorem TimeoutsMatch.enqueue (h : TimeoutsMatch s) (pid : Nat) (t : Task) :
    TimeoutsMatch (s.enqueue pid t) :=
  h.update (fun _ h => h) fun _ _ => rfl

/-- The end of a process ends its receive, and the timer of that receive is cancelled. -/
theorem TimeoutsMatch.release (h : TimeoutsMatch s) (x : Nat) (r : ExitReason) :
    TimeoutsMatch (s.release x r).1 := by
  cases hx : s.find? x with
  | none =>
    rw [release_of_find?_none hx]
    exact h
  | some a =>
    have hw := waiting_release (s := s) x r
    have hself : (s.release x r).1.waiting x = none := by rw [hw, if_pos rfl]
    have hother : ∀ q, q ≠ x → (s.release x r).1.waiting q = s.waiting q := fun q hq => by
      rw [hw, if_neg hq]
    have hrel := release_of_find? hx r
    -- the timer of the receive it waited in, if any, is cancelled
    cases ht : a.pending.bind (·.timeout) with
    | none =>
      rw [ht] at hrel
      have hT : (s.release x r).1.timers = s.timers := by rw [hrel]
      refine h.end_wait (hT ▸ h.sound) hself hother fun e => ?_
      rw [hT]
      exact mem_live_of_no_timer (by rw [waiting_of_find? hx, ht]) e
    | some id =>
      rw [ht] at hrel
      have hT : (s.release x r).1.timers = s.timers.cancel id := by rw [hrel]
      refine h.end_wait (hT ▸ (h.sound.cancel id).1) hself hother fun e => ?_
      rw [hT]
      exact h.mem_cancel_wait (by rw [waiting_of_find? hx, ht]) e

theorem TimeoutsMatch.propagate (h : TimeoutsMatch s) (signals : List Signal) :
    TimeoutsMatch (s.propagate signals) := by
  induction s, signals using System.propagate.induct with
  | case1 s => rwa [System.propagate]
  | case2 s sg rest hf ih =>
    rw [System.propagate, hf]
    exact ih h
  | case3 s sg rest a hf hact ih =>
    rw [System.propagate, hf]
    simp only [hact]
    exact ih (h.deliver _ _)
  | case4 s sg rest a hf r hact ih =>
    rw [System.propagate, hf]
    simp only [hact]
    exact ih (h.release _ _)

theorem TimeoutsMatch.terminate (h : TimeoutsMatch s) (pid : Nat) (r : ExitReason) :
    TimeoutsMatch (s.terminate pid r) :=
  (h.release pid r).propagate _

theorem TimeoutsMatch.signalExit (h : TimeoutsMatch s) (sender : Option Nat) (target : Nat)
    (r : ExitReason) : TimeoutsMatch (s.signalExit sender target r) :=
  h.propagate _

theorem TimeoutsMatch.spawn (h : TimeoutsMatch s) (body : Nat → Program) :
    TimeoutsMatch (s.spawn body).2 :=
  h.frame (by rw [spawn_timers]; exact h.sound) (waiting_spawn body) fun _ _ _ _ => by
    rw [spawn_timers]

/-- Rewriting the links of a process. -/
theorem TimeoutsMatch.setLinks (h : TimeoutsMatch s) (g : List Nat → List Nat) :
    TimeoutsMatch (s.update pid fun x => { x with links := g x.links }) :=
  h.update (fun _ h => h) fun _ _ => rfl

theorem TimeoutsMatch.link (h : TimeoutsMatch s) (a b : Nat) : TimeoutsMatch (s.link a b) := by
  unfold System.link
  split
  · by_cases hab : a = b
    · subst hab
      exact h.of_eq (by simp [Actors.link]) rfl
    · rw [linkActors_eq hab]
      exact (h.setLinks _).setLinks _
  · exact h.signalExit _ _ _
  · exact h.signalExit _ _ _
  · exact h

theorem TimeoutsMatch.unlink (h : TimeoutsMatch s) (a b : Nat) : TimeoutsMatch (s.unlink a b) := by
  rw [unlink_eq]
  exact (h.setLinks (·.erase b)).setLinks (·.erase a)

theorem TimeoutsMatch.monitor (h : TimeoutsMatch s) (observer observed : Nat) :
    TimeoutsMatch (s.monitor observer observed).2 := by
  have h₁ : TimeoutsMatch s.makeRef.2 := h.of_eq rfl rfl
  unfold System.monitor
  generalize s.makeRef = m at h₁ ⊢
  obtain ⟨ref, s₁⟩ := m
  dsimp only at h₁ ⊢
  split
  · refine TimeoutsMatch.update ?_ (fun _ h => h) fun _ _ => rfl
    exact h₁.of_eq rfl rfl
  · exact h₁.deliver _ _

theorem TimeoutsMatch.demonitor (h : TimeoutsMatch s) (ref : Nat) :
    TimeoutsMatch (s.demonitor ref).2 := by
  unfold System.demonitor
  split
  · refine TimeoutsMatch.update ?_ (fun _ h => h) fun _ _ => rfl
    exact h.of_eq rfl rfl
  · exact h

theorem TimeoutsMatch.send (h : TimeoutsMatch s) {dest : Dest} {m : Term}
    (hs : s.send dest m = .ok s') : TimeoutsMatch s' := by
  simp only [System.send, bind, Except.bind] at hs
  split at hs
  · cases hs
  · cases hs
    exact h.deliver _ _

theorem TimeoutsMatch.sendAfter (h : TimeoutsMatch s) (pid : Nat) (m : Term) (after : Nat) :
    TimeoutsMatch (s.sendAfter pid m after) :=
  h.push_other _ fun _ _ h => nomatch h

theorem TimeoutsMatch.register (h : TimeoutsMatch s) {name : String} {pid : Nat}
    (hs : s.register name pid = .ok s') : TimeoutsMatch s' := by
  unfold System.register at hs
  split at hs
  · cases hr : s.registry.register name pid with
    | error e => simp [hr, Except.map] at hs
    | ok r =>
      simp only [hr, Except.map, Except.ok.injEq] at hs
      subst hs
      exact h.of_eq rfl rfl
  · cases hs

theorem TimeoutsMatch.processFlag (h : TimeoutsMatch s) (pid : Nat) (flag : String) (v : Term) :
    TimeoutsMatch (s.processFlag pid flag v).2 := by
  unfold System.processFlag
  split
  · rename_i a ha
    have hpid : a.pid = pid := Actors.pid_of_find? ha
    refine h.update (fun _ _ => (Actor.setFlag_pid a flag v).trans hpid) fun x hx => ?_
    rw [ha, Option.some.injEq] at hx
    subst hx
    unfold Actor.setFlag
    split <;> rfl
  · exact h

theorem TimeoutsMatch.withDictionary {α : Type} (h : TimeoutsMatch s) (pid : Nat)
    (f : TermMap → α × TermMap) : TimeoutsMatch (s.withDictionary pid f).2 := by
  unfold System.withDictionary
  split
  · exact h.update (fun _ h => h) fun _ _ => rfl
  · exact h

/-- Every operation of the interface keeps the match. -/
theorem TimeoutsMatch.keeps : Keeps TimeoutsMatch where
  spawn _ body h := h.spawn body
  link _ a b h := h.link a b
  unlink _ a b h := h.unlink a b
  monitor _ a b h := h.monitor a b
  demonitor _ ref h := h.demonitor ref
  send _ _ _ _ h hs := h.send hs
  sendAfter _ pid msg after h := h.sendAfter pid msg after
  signalExit _ sender target reason h := h.signalExit sender target reason
  register _ _ _ _ h hs := h.register hs
  unregister _ _ h := h.of_eq rfl rfl
  processFlag _ pid flag value h := h.processFlag pid flag value
  withDictionary _ pid f h := h.withDictionary pid f
  makeRef _ h := h.of_eq rfl rfl

/-! ## Receiving -/

/-- A process that waited in no receive parks in one under a fresh token, with the timer `t`
holds for it if it has a deadline. -/
theorem TimeoutsMatch.park {clauses : List Clause} {timeout : Option Nat} {t : TimerQueue}
    (h : TimeoutsMatch s) (ha : s.find? p = some a) (hnone : s.waiting p = none) (hsound : t.Sound)
    (hlive : ∀ e ∈ t.live, e ∈ s.timers.live ∨
      (timeout = some e.seq ∧ e.event = .receiveTimeout p (s.nextToken + 1)))
    (hold : ∀ e ∈ s.timers.live, e ∈ t.live)
    (hnew : ∀ n, timeout = some n →
      ∃ e ∈ t.live, e.seq = n ∧ e.event = .receiveTimeout p (s.nextToken + 1)) :
    TimeoutsMatch ({ s with nextToken := s.nextToken + 1, timers := t }.update p fun a =>
      { a with status := .suspended, pending := some ⟨clauses, s.nextToken + 1, timeout⟩ }) := by
  have hf : ∀ b : Actor, b.pid = p →
      ({ b with status := .suspended, pending := some ⟨clauses, s.nextToken + 1, timeout⟩ } : Actor).pid = p :=
    fun _ h => h
  exact h.start_wait hsound hnone (waiting_of_find? (find?_update_of ha hf))
    (fun q hq => waiting_update_ne hf hq) hlive hold hnew

/-- A process that waits in no receive asks to receive: a selected message or a passed deadline
answers it at once, and otherwise it parks with the timer of its deadline. -/
theorem TimeoutsMatch.beginReceive (h : TimeoutsMatch s) (hnone : s.waiting pid = none)
    (clauses : List Clause) (deadline : Option Nat) :
    TimeoutsMatch (s.beginReceive pid clauses deadline).2 := by
  unfold System.beginReceive
  split
  · exact h
  · rename_i a ha
    split
    · exact h.terminate _ _
    · exact h.update (fun _ h => h) fun _ _ => rfl
    · split
      · exact h
      · cases deadline with
        | none =>
          exact h.park ha hnone h.sound (fun e he => .inl he) (fun _ he => he) fun _ h => nomatch h
        | some d =>
          -- the one new timer is the receive's, under the next sequence number
          have hlive := TimerQueue.live_push h.sound d (.receiveTimeout pid (s.nextToken + 1))
          refine h.park ha hnone (h.sound.push _ _) (fun e he => ?_) (fun e he => ?_) fun n hn => ?_
          · rw [hlive, List.mem_orderedInsert] at he
            rcases he with rfl | he
            · exact .inr ⟨by rw [TimerQueue.push_fst], rfl⟩
            · exact .inl he
          · rw [hlive, List.mem_orderedInsert]
            exact .inr he
          · rw [TimerQueue.push_fst, Option.some.injEq] at hn
            subst hn
            rw [hlive]
            exact ⟨_, (List.mem_orderedInsert TimerEntry.Before).2 (.inl rfl), rfl, rfl⟩

/-- A selected message ends the wait, and the timer of the receive is cancelled. -/
theorem TimeoutsMatch.retryReceive (h : TimeoutsMatch s) (pid : Nat) :
    TimeoutsMatch (s.retryReceive pid).2 := by
  simp only [System.retryReceive]
  split
  · exact h
  · rename_i a ha
    split
    · exact h
    · rename_i pr hpr
      split
      · exact h
      · rename_i r mb _
        have hw : s.waiting pid = some pr := waiting_eq_some.2 ⟨a, ha, hpr⟩
        have hf : ∀ b : Actor, b.pid = pid →
            ({ b with mailbox := mb, pending := none } : Actor).pid = pid := fun _ h => h
        have hself : (s.update pid fun a => { a with mailbox := mb, pending := none }).waiting pid =
            none :=
          waiting_of_find? (find?_update_of ha hf)
        have hother := fun q (hq : q ≠ pid) => waiting_update_ne (s := s) hf hq
        split
        · rename_i id hid
          exact h.end_wait (h.sound.cancel id).1 hself hother
            (h.mem_cancel_wait (by rw [hw, Option.bind_some, hid]))
        · rename_i hid
          exact h.end_wait h.sound hself hother
            (mem_live_of_no_timer (by rw [hw, Option.bind_some, hid]))
      · exact h.terminate _ _

/-- A request of a process that waits in no receive keeps the match. -/
theorem TimeoutsMatch.handle (h : TimeoutsMatch s) (hnone : s.waiting pid = none) (req : Request) :
    TimeoutsMatch (s.handle pid req).2 := by
  rcases req.isPrompt_or with hreq | ⟨clauses, after, rfl⟩ | ⟨ms, rfl⟩
  · exact TimeoutsMatch.keeps.handle h pid hreq
  · exact h.beginReceive hnone clauses _
  · -- the process falls asleep, and its wake-up timer is set
    rw [System.handle]
    exact (h.update (f := fun a => { a with status := .sleeping }) (fun _ h => h) fun _ _ => rfl).push_other
      _ fun _ _ h => by cases h

/-! ## The scheduler -/

theorem TimeoutsMatch.popTask (h : TimeoutsMatch s) {t : Task} (hpop : s.popTask p = some (t, s')) :
    TimeoutsMatch s' := by
  obtain ⟨a, rest, -, -, rfl⟩ := popTask_eq hpop
  exact h.update (fun _ h => h) fun _ _ => rfl

theorem TimeoutsMatch.resume (h : TimeoutsMatch s) (pid : Nat) (r : Reply) :
    TimeoutsMatch (s.resume pid r).2 := by
  simp only [System.resume]
  split
  · exact h
  · rename_i a _
    -- the notes are collected and the process marks itself running
    have h₁ : TimeoutsMatch ({ s with trace := s.trace ++ ((a.cont r).advance.1.map fun n =>
        ({ pid, note := n } : Entry)) }.update pid fun a => { a with status := .running }) := by
      refine TimeoutsMatch.update ?_ (fun _ h => h) fun _ _ => rfl
      exact h.of_eq rfl rfl
    split
    · exact h₁.update (fun _ h => h) fun _ _ => rfl
    · exact h₁.terminate _ _
    · exact h₁.terminate _ _
    · exact h₁

/-- The served process waits in no receive. -/
theorem WakeInv.waiting_served (hi : WakeInv s (some p)) : s.waiting p = none := by
  cases ha : s.find? p with
  | none => simp [waiting, ha]
  | some a => rw [waiting_of_find? ha, (hi.idle ha).pending]

/-- The tasks of one process keep the match, taken together with `WakeInv`: whenever the served
process asks to receive, it waits in no receive yet. -/
theorem TimeoutsMatch.runTasks (h : TimeoutsMatch s) (hi : WakeInv s none) (pid n used : Nat) :
    TimeoutsMatch (System.runTasks pid n used s).2 := by
  refine (runTasks_keeps_served (fun s served => WakeInv s served ∧ TimeoutsMatch s) pid
    ?_ ?_ ?_ ?_ ?_ n used s ⟨hi, h⟩).2
  · rintro s s' r ⟨hi, h⟩ hpop
    exact ⟨hi.popTask_resume hpop, h.popTask hpop⟩
  · rintro s s' ⟨hi, h⟩ hpop
    exact ⟨(hi.retry hpop).wakeInv, (h.popTask hpop).retryReceive pid⟩
  · rintro s s' r ⟨hi, h⟩ hres
    have h' := h.resume pid r
    rw [hres] at h'
    exact ⟨hi.resume_none hres, h'⟩
  · rintro s s' r req ⟨hi, h⟩ hres
    have h' := h.resume pid r
    rw [hres] at h'
    exact ⟨hi.resume_some hres, h'⟩
  · rintro s req ⟨hi, h⟩
    refine ⟨hi.answer req, ?_⟩
    have ht := h.handle hi.waiting_served req
    split
    · exact ht.enqueue pid _
    · exact ht

theorem TimeoutsMatch.runSlice (h : TimeoutsMatch s) (hi : WakeInv s none) (pid limit : Nat) :
    TimeoutsMatch (s.runSlice pid limit).2 :=
  (h.runTasks hi pid limit 0).update (fun _ h => h) fun _ _ => rfl

theorem TimeoutsMatch.tick (h : TimeoutsMatch s) (hi : WakeInv s none) : TimeoutsMatch s.tick.2 :=
  (tick_keeps (fun s => WakeInv s none ∧ TimeoutsMatch s)
    (fun _ pid n h => ⟨h.1.runSlice pid n, h.2.runSlice h.1 pid n⟩) s ⟨hi, h⟩).2

/-! ## Timers -/

/-- A timer taken from the queue and handled keeps the match: a wake-up or a delayed message
times out no receive, and a timeout ends the receive it belongs to. -/
theorem TimeoutsMatch.fire (h : TimeoutsMatch s) {ev : TimerEvent} (hpop : s.timers.pop = some (ev, tq)) :
    TimeoutsMatch ({ s with timers := tq }.fire ev) := by
  cases ev with
  | wake p =>
    have h₁ := h.pop_other hpop fun _ _ h => by cases h
    simp only [System.fire]
    split
    · exact h₁.enqueue _ _
    · exact h₁
  | receiveTimeout p tok =>
    obtain ⟨a, pr, ha, hpr, htok, h₁⟩ := h.pop_timeout hpop
    simp only [System.fire]
    rw [if_pos (by simp [find?_with_timers, ha, hpr, htok])]
    exact h₁.enqueue _ _
  | deliver p m => exact (h.pop_other hpop fun _ _ h => by cases h).deliver p m

theorem TimeoutsMatch.fireTimers (h : TimeoutsMatch s) : TimeoutsMatch s.fireTimers :=
  fireTimers_keeps TimeoutsMatch (fun _ _ _ h hpop => h.fire (TimerQueue.popDue_eq_pop hpop)) s h

/-- A timer dropped as stale is no timeout: a live timeout belongs to a waiting receive. -/
theorem TimeoutsMatch.pruneStaleTimers (h : TimeoutsMatch s) : TimeoutsMatch s.pruneStaleTimers := by
  refine pruneStaleTimers_keeps TimeoutsMatch (fun s ev tq h hpop hdead => ?_) s h
  refine h.pop_other hpop fun p tok hev => ?_
  subst hev
  obtain ⟨a, pr, ha, hpr, htok, -⟩ := h.pop_timeout hpop
  simp [System.isLive, ha, hpr, htok] at hdead

theorem TimeoutsMatch.runUntilIdle (h : TimeoutsMatch s) (hi : WakeInv s none) :
    TimeoutsMatch s.runUntilIdle :=
  (runUntilIdle_keeps (fun s => WakeInv s none ∧ TimeoutsMatch s)
    (fun _ h => ⟨h.1.fireTimers, h.2.fireTimers⟩) (fun _ h => ⟨h.1.tick, h.2.tick h.1⟩) s ⟨hi, h⟩).2

theorem TimeoutsMatch.run (h : TimeoutsMatch s) (hi : WakeInv s none) : TimeoutsMatch s.run :=
  (run_keeps (fun s => WakeInv s none ∧ TimeoutsMatch s)
    (fun _ h => ⟨h.1.runUntilIdle, h.2.runUntilIdle h.1⟩)
    (fun _ h => ⟨h.1.pruneStaleTimers, h.2.pruneStaleTimers⟩)
    (fun _ _ h => ⟨h.1.of_actors rfl rfl rfl rfl rfl, h.2.of_eq rfl rfl⟩) s ⟨hi, h⟩).2

/-! ## Every reachable state -/

/-- Two invariants that the operations of the interface keep are kept together. -/
theorem Keeps.and {P Q : System → Prop} (hP : Keeps P) (hQ : Keeps Q) : Keeps fun s => P s ∧ Q s where
  spawn s body h := ⟨hP.spawn s body h.1, hQ.spawn s body h.2⟩
  link s a b h := ⟨hP.link s a b h.1, hQ.link s a b h.2⟩
  unlink s a b h := ⟨hP.unlink s a b h.1, hQ.unlink s a b h.2⟩
  monitor s a b h := ⟨hP.monitor s a b h.1, hQ.monitor s a b h.2⟩
  demonitor s ref h := ⟨hP.demonitor s ref h.1, hQ.demonitor s ref h.2⟩
  send s s' dest msg h hs := ⟨hP.send s s' dest msg h.1 hs, hQ.send s s' dest msg h.2 hs⟩
  sendAfter s pid msg after h := ⟨hP.sendAfter s pid msg after h.1, hQ.sendAfter s pid msg after h.2⟩
  signalExit s sender target reason h :=
    ⟨hP.signalExit s sender target reason h.1, hQ.signalExit s sender target reason h.2⟩
  register s s' name pid h hs := ⟨hP.register s s' name pid h.1 hs, hQ.register s s' name pid h.2 hs⟩
  unregister s name h := ⟨hP.unregister s name h.1, hQ.unregister s name h.2⟩
  processFlag s pid flag value h :=
    ⟨hP.processFlag s pid flag value h.1, hQ.processFlag s pid flag value h.2⟩
  withDictionary s pid f h := ⟨hP.withDictionary s pid f h.1, hQ.withDictionary s pid f h.2⟩
  makeRef s h := ⟨hP.makeRef s h.1, hQ.makeRef s h.2⟩

theorem TimeoutsMatch.perform (h : TimeoutsMatch s) (hi : WakeInv s none) (call : Call) :
    TimeoutsMatch (s.perform call) :=
  (((WakeInv.keeps none).and TimeoutsMatch.keeps).perform (fun _ h => ⟨h.1.tick, h.2.tick h.1⟩)
    (fun _ h => ⟨h.1.runUntilIdle, h.2.runUntilIdle h.1⟩) (fun _ h => ⟨h.1.run, h.2.run h.1⟩)
    (fun _ _ h => ⟨h.1.of_actors rfl rfl rfl rfl rfl, h.2.of_eq rfl rfl⟩) ⟨hi, h⟩ call).2

theorem TimeoutsMatch.create (c : Config) (allocate : StackAllocation) :
    TimeoutsMatch (System.createOn c allocate) where
  sound := TimerQueue.Sound.empty
  timer_waits _ h := nomatch h
  waits_timer _ _ _ h := nomatch h

theorem Reachable.timeoutsMatch (hs : s.Reachable) : TimeoutsMatch s := by
  induction hs with
  | create c allocate => exact TimeoutsMatch.create c allocate
  | perform call hs ih => exact ih.perform hs.wakeInv call

/-! ## Main result -/

/-- **Receive timeouts never go stale.** In every state a host can reach, whatever the programs
of its processes: each live timeout timer names a live process that waits in a receive under
the timer's token, and that receive's timeout is this timer; each receive with a timeout has
that timer live, naming its process and token; live timers have distinct sequence numbers, so
the match is one to one; and a due timeout taken from the queue answers the receive its
process waits in. A receive ended by a message or by the end of its process therefore
leaves no live timeout behind. -/
theorem timeouts_match (hs : s.Reachable) :
    (∀ e ∈ s.timers.live, ∀ p tok, e.event = .receiveTimeout p tok →
      ∃ a pr, s.find? p = some a ∧ a.pending = some pr ∧ pr.token = tok ∧ pr.timeout = some e.seq) ∧
    (∀ p a pr t, s.find? p = some a → a.pending = some pr → pr.timeout = some t →
      ∃ e ∈ s.timers.live, e.seq = t ∧ e.event = .receiveTimeout p pr.token) ∧
    (s.timers.live.map (·.seq)).Nodup ∧
    (∀ now p tok q, s.timers.popDue now = some (.receiveTimeout p tok, q) →
      ∃ a pr, s.find? p = some a ∧ a.pending = some pr ∧ pr.token = tok) := by
  have h := hs.timeoutsMatch
  refine ⟨fun e he p tok hev => ?_, fun p a pr t ha hpr ht => ?_, h.sound.live_seq_nodup,
    fun now p tok q hpop => ?_⟩
  · obtain ⟨pr, hw, htok, ht⟩ := h.timer_waits e he p tok hev
    obtain ⟨a, ha, hpr⟩ := waiting_eq_some.1 hw
    exact ⟨a, pr, ha, hpr, htok, ht⟩
  · exact h.waits_timer p pr t (waiting_eq_some.2 ⟨a, ha, hpr⟩) ht
  · obtain ⟨a, pr, ha, hpr, htok, -⟩ := h.pop_timeout (TimerQueue.popDue_eq_pop hpop)
    exact ⟨a, pr, ha, hpr, htok⟩

/-- A process that waits in a receive with no clauses and a deadline 100 ms away, spawned and
run by the host. -/
def timedReceiver : System :=
  ((create .default).perform (.spawn fun _ => .call (.receive [] (some 100)) fun _ => .finish (.ok ()))).perform
    .runUntilIdle

/-- The receiver is left waiting in its receive, with a timeout. -/
theorem timedReceiver_waits : (timedReceiver.find? 1).any (·.pending.any (·.timeout.isSome)) = true := by
  decide +kernel

theorem timeouts_match_timedReceiver :
    timedReceiver.Reachable ∧ (timedReceiver.find? 1).any (·.pending.any (·.timeout.isSome)) = true ∧
    ((∀ e ∈ timedReceiver.timers.live, ∀ p tok, e.event = .receiveTimeout p tok →
      ∃ a pr, timedReceiver.find? p = some a ∧ a.pending = some pr ∧ pr.token = tok ∧
        pr.timeout = some e.seq) ∧
    (∀ p a pr t, timedReceiver.find? p = some a → a.pending = some pr → pr.timeout = some t →
      ∃ e ∈ timedReceiver.timers.live, e.seq = t ∧ e.event = .receiveTimeout p pr.token) ∧
    (timedReceiver.timers.live.map (·.seq)).Nodup ∧
    (∀ now p tok q, timedReceiver.timers.popDue now = some (.receiveTimeout p tok, q) →
      ∃ a pr, timedReceiver.find? p = some a ∧ a.pending = some pr ∧ pr.token = tok)) := by
  have hs : timedReceiver.Reachable := .perform _ (.perform _ (.create _ _))
  exact ⟨hs, timedReceiver_waits, timeouts_match hs⟩

end System

end ActorCore
