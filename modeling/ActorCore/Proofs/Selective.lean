import ActorCore.Proofs.Lifecycle

/-!
# Selective receive

A receive takes the oldest message of the mailbox that one of its clauses selects, together with
the first clause that selects it, and leaves every other message where it was. `selectMessage`
searches the messages oldest first and, for each message, the clauses in order: the first clause
that selects a message ends the search, and so does the first guard that panics, with its panic.

* `Mailbox.pick_eq_some_iff`, `pick_eq_none_iff`, `pick_eq_error_iff` — the search over the
  messages: it finds the first message the selector does not reject, and the others in order.
* `firstClause_eq_some_iff`, `firstClause_eq_none_iff`, `firstClause_eq_error_iff` — the same
  search over the clauses of a receive, with their positions.
* `Mailbox.after` — a mailbox after a delivery or a receive. Deliveries append and a receive
  removes one message, so over any sequence of them a mailbox stays an order-preserving
  subsequence of the messages delivered to it (`after_sublist`).
* `System.Leads.mailbox_events` — the scheduler changes a mailbox by such events only: along
  every run from a reachable state, each live process's mailbox is the one its pid had at the
  start after a sequence of deliveries and receives.

Principal result: `selectMessage_oldest`.
-/

namespace ActorCore

/-- No clause selects the message, and no guard panics on it: with guards that never panic,
no clause accepts it. -/
def Rejected (cs : List Clause) (m : Term) : Prop :=
  ∀ c ∈ cs, c.select [m] = .ok none

/-- Clause `i` is the first clause to select `m`, binding `vs`: every clause before it rejects
`m` without panicking. -/
def FirstSelecting (cs : List Clause) (m : Term) (i : Nat) (vs : List Term) : Prop :=
  ∃ pre c post, cs = pre ++ c :: post ∧ i = pre.length ∧ Rejected pre m ∧ c.select [m] = .ok (some vs)

theorem Rejected.nil (m : Term) : Rejected [] m :=
  fun _ h => by cases h

theorem rejected_cons {c : Clause} {cs : List Clause} {m : Term} :
    Rejected (c :: cs) m ↔ c.select [m] = .ok none ∧ Rejected cs m := by
  simp [Rejected]

namespace Mailbox

variable {ε α : Type} {select : Term → Except ε (Option α)} {x m : Term} {xs l rest : List Term}
  {a : α} {e : ε}

/-! ## The search over messages -/

theorem pick_cons_of_error (h : select x = .error e) : pick select (x :: xs) = .error e := by
  simp [pick, h]

theorem pick_cons_of_some (h : select x = .ok (some a)) :
    pick select (x :: xs) = .ok (some (x, a, xs)) := by
  simp [pick, h]

theorem pick_cons_of_none (h : select x = .ok none) :
    pick select (x :: xs) =
      (pick select xs).map (Option.map fun (m', a, rest) => (m', a, x :: rest)) := by
  simp [pick, h]

/-- The search finds `m` when every older message is rejected and `m` is selected; it returns
the other messages in order. -/
theorem pick_eq_some_iff :
    pick select l = .ok (some (m, a, rest)) ↔
      ∃ pre post, l = pre ++ m :: post ∧ rest = pre ++ post ∧ (∀ y ∈ pre, select y = .ok none) ∧
        select m = .ok (some a) := by
  induction l generalizing rest with
  | nil => simp [pick]
  | cons x xs ih =>
    cases hx : select x with
    | error e' =>
      rw [pick_cons_of_error hx]
      refine ⟨(fun h => by cases h), ?_⟩
      rintro ⟨pre, post, hl, -, hpre, hm⟩
      -- the first message is rejected (when older ones exist) or selected, never a panic
      cases pre with
      | nil =>
        cases hl
        rw [hx] at hm
        cases hm
      | cons y pre =>
        cases hl
        rw [hpre x List.mem_cons_self] at hx
        cases hx
    | ok o =>
      cases o with
      | some a' =>
        rw [pick_cons_of_some hx]
        constructor
        · intro h
          cases h
          exact ⟨[], xs, rfl, rfl, (fun _ h => by cases h), hx⟩
        · rintro ⟨pre, post, hl, hrest, hpre, hm⟩
          cases pre with
          | nil =>
            cases hl
            rw [hx] at hm
            cases hm
            rw [hrest]
            rfl
          | cons y pre =>
            cases hl
            rw [hpre x List.mem_cons_self] at hx
            cases hx
      | none =>
        rw [pick_cons_of_none hx]
        constructor
        · intro h
          cases hp : pick select xs with
          | error e' =>
            rw [hp] at h
            cases h
          | ok o' =>
            rw [hp] at h
            cases o' with
            | none => cases h
            | some t =>
            obtain ⟨m', a'', rest'⟩ := t
            simp only [Except.map, Option.map_some, Except.ok.injEq, Option.some.injEq,
              Prod.mk.injEq] at h
            obtain ⟨rfl, rfl, rfl⟩ := h
            obtain ⟨pre, post, hl, hrest, hpre, hm⟩ := ih.1 hp
            refine ⟨x :: pre, post, by rw [hl]; rfl, by rw [hrest]; rfl, ?_, hm⟩
            intro y hy
            rcases List.mem_cons.1 hy with rfl | hy
            · exact hx
            · exact hpre y hy
        · rintro ⟨pre, post, hl, hrest, hpre, hm⟩
          cases pre with
          | nil =>
            cases hl
            rw [hx] at hm
            cases hm
          | cons y pre =>
            cases hl
            rw [ih.2 ⟨pre, post, rfl, rfl, fun z hz => hpre z (List.mem_cons_of_mem _ hz), hm⟩,
              hrest]
            rfl

/-- The search finds nothing exactly when every message is rejected. -/
theorem pick_eq_none_iff : pick select l = .ok none ↔ ∀ y ∈ l, select y = .ok none := by
  induction l with
  | nil => simp [pick]
  | cons x xs ih =>
    cases hx : select x with
    | error e' =>
      rw [pick_cons_of_error hx]
      exact ⟨(fun h => by cases h), fun h => by rw [h x List.mem_cons_self] at hx; cases hx⟩
    | ok o =>
      cases o with
      | some a' =>
        rw [pick_cons_of_some hx]
        exact ⟨(fun h => by cases h), fun h => by rw [h x List.mem_cons_self] at hx; cases hx⟩
      | none =>
        rw [pick_cons_of_none hx, List.forall_mem_cons]
        cases hp : pick select xs with
        | error e' =>
          refine ⟨(fun h => by cases h), fun h => ?_⟩
          rw [ih.2 h.2] at hp
          cases hp
        | ok o' =>
          cases o' with
          | none => exact ⟨fun _ => ⟨hx, ih.1 hp⟩, fun _ => rfl⟩
          | some t =>
            refine ⟨(fun h => by cases h), fun h => ?_⟩
            rw [ih.2 h.2] at hp
            cases hp

/-- The search panics exactly when the selector panics on a message whose older messages are
all rejected. -/
theorem pick_eq_error_iff :
    pick select l = .error e ↔
      ∃ pre m post, l = pre ++ m :: post ∧ (∀ y ∈ pre, select y = .ok none) ∧ select m = .error e := by
  induction l with
  | nil => simp [pick]
  | cons x xs ih =>
    cases hx : select x with
    | error e' =>
      rw [pick_cons_of_error hx]
      constructor
      · intro h
        cases h
        exact ⟨[], x, xs, rfl, (fun _ h => by cases h), hx⟩
      · rintro ⟨pre, m, post, hl, hpre, hm⟩
        cases pre with
        | nil =>
          cases hl
          rw [hx] at hm
          cases hm
          rfl
        | cons y pre =>
          cases hl
          rw [hpre x List.mem_cons_self] at hx
          cases hx
    | ok o =>
      cases o with
      | some a' =>
        rw [pick_cons_of_some hx]
        refine ⟨(fun h => by cases h), ?_⟩
        rintro ⟨pre, m, post, hl, hpre, hm⟩
        cases pre with
        | nil =>
          cases hl
          rw [hx] at hm
          cases hm
        | cons y pre =>
          cases hl
          rw [hpre x List.mem_cons_self] at hx
          cases hx
      | none =>
        rw [pick_cons_of_none hx]
        constructor
        · intro h
          cases hp : pick select xs with
          | error e' =>
            rw [hp] at h
            cases h
            obtain ⟨pre, m, post, hl, hpre, hm⟩ := ih.1 hp
            refine ⟨x :: pre, m, post, by rw [hl]; rfl, ?_, hm⟩
            intro y hy
            rcases List.mem_cons.1 hy with rfl | hy
            · exact hx
            · exact hpre y hy
          | ok o' =>
            rw [hp] at h
            cases h
        · rintro ⟨pre, m, post, hl, hpre, hm⟩
          cases pre with
          | nil =>
            cases hl
            rw [hx] at hm
            cases hm
          | cons y pre =>
            cases hl
            rw [ih.2 ⟨pre, m, post, rfl, fun z hz => hpre z (List.mem_cons_of_mem _ hz), hm⟩]
            rfl

end Mailbox

/-! ## The search over clauses -/

section Clauses

variable {msg : Term} {i : Nat} {vs : List Term} {e : Panic}

theorem firstClause_cons (c : Clause) (n : Nat) (rest : List (Clause × Nat)) :
    firstClause msg ((c, n) :: rest) =
      (c.select [msg]).bind fun o => match o with
        | some values => .ok (some (n, values))
        | none => firstClause msg rest := by
  rw [firstClause]
  rfl

/-- The clauses from position `n` on select `msg` first at clause `i`, binding `vs`. -/
theorem firstClause_eq_some_iff {cs : List Clause} {n : Nat} :
    firstClause msg (cs.zipIdx n) = .ok (some (i, vs)) ↔
      ∃ pre c post, cs = pre ++ c :: post ∧ i = n + pre.length ∧ Rejected pre msg ∧
        c.select [msg] = .ok (some vs) := by
  induction cs generalizing n with
  | nil => simp [firstClause]
  | cons c cs ih =>
    rw [List.zipIdx_cons, firstClause_cons]
    cases hc : c.select [msg] with
    | error e' =>
      refine ⟨(fun h => by cases h), ?_⟩
      rintro ⟨pre, c', post, hl, -, hpre, hsel⟩
      cases pre with
      | nil =>
        cases hl
        rw [hc] at hsel
        cases hsel
      | cons d pre =>
        cases hl
        rw [(rejected_cons.1 hpre).1] at hc
        cases hc
    | ok o =>
      cases o with
      | some values =>
        constructor
        · intro h
          cases h
          exact ⟨[], c, cs, rfl, by simp, Rejected.nil msg, hc⟩
        · rintro ⟨pre, c', post, hl, hi, hpre, hsel⟩
          cases pre with
          | nil =>
            cases hl
            rw [hc] at hsel
            cases hsel
            simp only [List.length_nil, Nat.add_zero] at hi
            rw [hi]
            rfl
          | cons d pre =>
            cases hl
            rw [(rejected_cons.1 hpre).1] at hc
            cases hc
      | none =>
        simp only [Except.bind]
        rw [ih]
        constructor
        · rintro ⟨pre, c', post, hl, hi, hpre, hsel⟩
          refine ⟨c :: pre, c', post, by rw [hl]; rfl, by simp [hi]; omega,
            rejected_cons.2 ⟨hc, hpre⟩, hsel⟩
        · rintro ⟨pre, c', post, hl, hi, hpre, hsel⟩
          cases pre with
          | nil =>
            cases hl
            rw [hc] at hsel
            cases hsel
          | cons d pre =>
            cases hl
            exact ⟨pre, c', post, rfl, by simp at hi; omega, (rejected_cons.1 hpre).2, hsel⟩

/-- No clause from position `n` on selects `msg` and none panics. -/
theorem firstClause_eq_none_iff {cs : List Clause} {n : Nat} :
    firstClause msg (cs.zipIdx n) = .ok none ↔ Rejected cs msg := by
  induction cs generalizing n with
  | nil => simp [firstClause, Rejected.nil]
  | cons c cs ih =>
    rw [List.zipIdx_cons, firstClause_cons, rejected_cons]
    cases hc : c.select [msg] with
    | error e' => exact ⟨(fun h => by cases h), fun h => by cases h.1⟩
    | ok o =>
      cases o with
      | some values => exact ⟨(fun h => by cases h), fun h => by cases h.1⟩
      | none =>
        simp only [Except.bind, true_and]
        exact ih

/-- A guard panics on `msg` at a clause all of whose predecessors reject it. -/
theorem firstClause_eq_error_iff {cs : List Clause} {n : Nat} :
    firstClause msg (cs.zipIdx n) = .error e ↔
      ∃ pre c post, cs = pre ++ c :: post ∧ Rejected pre msg ∧ c.select [msg] = .error e := by
  induction cs generalizing n with
  | nil => simp [firstClause]
  | cons c cs ih =>
    rw [List.zipIdx_cons, firstClause_cons]
    cases hc : c.select [msg] with
    | error e' =>
      constructor
      · intro h
        cases h
        exact ⟨[], c, cs, rfl, Rejected.nil msg, hc⟩
      · rintro ⟨pre, c', post, hl, hpre, hsel⟩
        cases pre with
        | nil =>
          cases hl
          rw [hc] at hsel
          cases hsel
          rfl
        | cons d pre =>
          cases hl
          rw [(rejected_cons.1 hpre).1] at hc
          cases hc
    | ok o =>
      cases o with
      | some values =>
        refine ⟨(fun h => by cases h), ?_⟩
        rintro ⟨pre, c', post, hl, hpre, hsel⟩
        cases pre with
        | nil =>
          cases hl
          rw [hc] at hsel
          cases hsel
        | cons d pre =>
          cases hl
          rw [(rejected_cons.1 hpre).1] at hc
          cases hc
      | none =>
        simp only [Except.bind]
        rw [ih]
        constructor
        · rintro ⟨pre, c', post, hl, hpre, hsel⟩
          exact ⟨c :: pre, c', post, by rw [hl]; rfl, rejected_cons.2 ⟨hc, hpre⟩, hsel⟩
        · rintro ⟨pre, c', post, hl, hpre, hsel⟩
          cases pre with
          | nil =>
            cases hl
            rw [hc] at hsel
            cases hsel
          | cons d pre =>
            cases hl
            exact ⟨pre, c', post, rfl, (rejected_cons.1 hpre).2, hsel⟩

/-- The first clause of a receive to select a message, found by position. -/
theorem firstClause_zipIdx_eq_some_iff {cs : List Clause} :
    firstClause msg cs.zipIdx = .ok (some (i, vs)) ↔ FirstSelecting cs msg i vs := by
  rw [firstClause_eq_some_iff]
  simp only [Nat.zero_add]
  rfl

end Clauses

/-! ## Selecting a message -/

section Select

variable {mb mb' : Mailbox} {cs : List Clause}

theorem selectMessage_eq (mb : Mailbox) (cs : List Clause) :
    selectMessage mb cs =
      (Mailbox.pick (fun msg => firstClause msg cs.zipIdx) mb.messages).map
        (Option.map fun (_, (i, values), rest) => (.message i values, ⟨rest⟩)) := by
  unfold selectMessage Mailbox.takeFirstE
  cases Mailbox.pick (fun msg => firstClause msg cs.zipIdx) mb.messages with
  | error e => rfl
  | ok o => cases o <;> rfl

theorem selectMessage_eq_none_iff :
    selectMessage mb cs = .ok none ↔ ∀ m ∈ mb.messages, Rejected cs m := by
  rw [selectMessage_eq]
  cases hp : Mailbox.pick (fun msg => firstClause msg cs.zipIdx) mb.messages with
  | error e =>
    refine ⟨(fun h => by cases h), fun h => ?_⟩
    rw [Mailbox.pick_eq_none_iff.2 fun m hm => firstClause_eq_none_iff.2 (h m hm)] at hp
    cases hp
  | ok o =>
    cases o with
    | none =>
      exact ⟨fun _ m hm => firstClause_eq_none_iff.1 (Mailbox.pick_eq_none_iff.1 hp m hm),
        fun _ => rfl⟩
    | some t =>
      refine ⟨(fun h => by cases h), fun h => ?_⟩
      rw [Mailbox.pick_eq_none_iff.2 fun m hm => firstClause_eq_none_iff.2 (h m hm)] at hp
      cases hp

theorem selectMessage_eq_some_iff {r : Received} :
    selectMessage mb cs = .ok (some (r, mb')) ↔
      ∃ pre m post i vs, mb.messages = pre ++ m :: post ∧ (∀ x ∈ pre, Rejected cs x) ∧
        FirstSelecting cs m i vs ∧ r = .message i vs ∧ mb'.messages = pre ++ post := by
  rw [selectMessage_eq]
  constructor
  · intro h
    cases hp : Mailbox.pick (fun msg => firstClause msg cs.zipIdx) mb.messages with
    | error e =>
      rw [hp] at h
      cases h
    | ok o =>
      rw [hp] at h
      cases o with
      | none => cases h
      | some t =>
        obtain ⟨m, ⟨i, vs⟩, rest⟩ := t
        cases h
        obtain ⟨pre, post, hl, hrest, hpre, hm⟩ := Mailbox.pick_eq_some_iff.1 hp
        exact ⟨pre, m, post, i, vs, hl, fun x hx => firstClause_eq_none_iff.1 (hpre x hx),
          firstClause_zipIdx_eq_some_iff.1 hm, rfl, hrest⟩
  · rintro ⟨pre, m, post, i, vs, hl, hpre, hfirst, rfl, hmb⟩
    have hp : Mailbox.pick (fun msg => firstClause msg cs.zipIdx) mb.messages =
        .ok (some (m, (i, vs), pre ++ post)) :=
      Mailbox.pick_eq_some_iff.2 ⟨pre, post, hl, rfl,
        fun x hx => firstClause_eq_none_iff.2 (hpre x hx), firstClause_zipIdx_eq_some_iff.2 hfirst⟩
    rw [hp]
    cases mb'
    simp only at hmb
    rw [hmb]
    rfl

theorem selectMessage_eq_error_iff {e : Panic} :
    selectMessage mb cs = .error e ↔
      ∃ pre m post, mb.messages = pre ++ m :: post ∧ (∀ x ∈ pre, Rejected cs x) ∧
        ∃ cpre c cpost, cs = cpre ++ c :: cpost ∧ Rejected cpre m ∧ c.select [m] = .error e := by
  rw [selectMessage_eq]
  cases hp : Mailbox.pick (fun msg => firstClause msg cs.zipIdx) mb.messages with
  | error e' =>
    obtain ⟨pre, m, post, hl, hpre, hm⟩ := Mailbox.pick_eq_error_iff.1 hp
    constructor
    · intro h
      cases h
      exact ⟨pre, m, post, hl, fun x hx => firstClause_eq_none_iff.1 (hpre x hx),
        firstClause_eq_error_iff.1 hm⟩
    · rintro ⟨pre', m', post', hl', hpre', hm'⟩
      have hp' : Mailbox.pick (fun msg => firstClause msg cs.zipIdx) mb.messages = .error e :=
        Mailbox.pick_eq_error_iff.2 ⟨pre', m', post', hl',
        fun x hx => firstClause_eq_none_iff.2 (hpre' x hx), firstClause_eq_error_iff.2 hm'⟩
      rw [hp] at hp'
      cases hp'
      rfl
  | ok o =>
    refine ⟨(fun h => by cases h), fun ⟨pre, m, post, hl, hpre, hm⟩ => ?_⟩
    have hp' : Mailbox.pick (fun msg => firstClause msg cs.zipIdx) mb.messages = .error e :=
      Mailbox.pick_eq_error_iff.2 ⟨pre, m, post, hl,
      fun x hx => firstClause_eq_none_iff.2 (hpre x hx), firstClause_eq_error_iff.2 hm⟩
    rw [hp] at hp'
    cases hp'

end Select

/-! ## Mailboxes over a run -/

/-- What happens to a mailbox: a message is delivered, or a receive with some clauses looks for
a message. -/
inductive MailboxEvent where
  | arrive (m : Term)
  | receive (cs : List Clause)

namespace MailboxEvent

/-- The messages the events deliver, in order. -/
def delivered : List MailboxEvent → List Term
  | [] => []
  | .arrive m :: evs => m :: delivered evs
  | .receive _ :: evs => delivered evs

end MailboxEvent

namespace Mailbox

/-- The mailbox after an event: a delivery appends the message, a receive removes the message
it selects; a receive that selects nothing, or whose guard panics, removes nothing. -/
def after (mb : Mailbox) : MailboxEvent → Mailbox
  | .arrive m => mb.deliver m
  | .receive cs =>
    match selectMessage mb cs with
    | .ok (some (_, mb')) => mb'
    | _ => mb

/-- One event: the mailbox is a subsequence of the old one followed by what it delivers. -/
theorem after_step_sublist (mb : Mailbox) (ev : MailboxEvent) :
    (mb.after ev).messages.Sublist (mb.messages ++ MailboxEvent.delivered [ev]) := by
  cases ev with
  | arrive m => exact List.Sublist.refl _
  | receive cs =>
    simp only [after, MailboxEvent.delivered, List.append_nil]
    split
    · rename_i r mb' hsel
      obtain ⟨pre, m, post, -, -, hl, -, -, -, hmb⟩ := selectMessage_eq_some_iff.1 hsel
      rw [hmb, hl]
      exact List.Sublist.append_left (List.sublist_cons_self m post) pre
    · exact List.Sublist.refl _

open List in
/-- Over any sequence of deliveries and receives, a mailbox is an order-preserving subsequence
of the messages it held and those delivered to it. -/
theorem after_sublist (mb : Mailbox) (evs : List MailboxEvent) :
    (evs.foldl after mb).messages.Sublist (mb.messages ++ MailboxEvent.delivered evs) := by
  induction evs generalizing mb with
  | nil => simp
  | cons ev evs ih =>
    rw [List.foldl_cons]
    have hstep := after_step_sublist mb ev
    calc (evs.foldl after (mb.after ev)).messages
        _ <+ (mb.after ev).messages ++ MailboxEvent.delivered evs := ih (mb.after ev)
        _ <+ (mb.messages ++ MailboxEvent.delivered [ev]) ++ MailboxEvent.delivered evs :=
          hstep.append_right _
        _ = mb.messages ++ MailboxEvent.delivered (ev :: evs) := by
          cases ev <;> simp [MailboxEvent.delivered]

end Mailbox

/-- A change the scheduler makes to a process leaves its mailbox as it was or applies one event
to it. -/
theorem Actor.Changes.mailbox_after {a b : Actor} (h : a.Changes b) :
    ∃ evs : List MailboxEvent, b.mailbox = evs.foldl Mailbox.after a.mailbox := by
  rcases h.mailbox with hm | ⟨m, hm⟩ | ⟨cs, r, hsel⟩
  · exact ⟨[], hm⟩
  · exact ⟨[.arrive m], hm⟩
  · refine ⟨[.receive cs], ?_⟩
    simp [Mailbox.after, hsel]

namespace System

variable {s s' : System}

/-- The mailbox of a pid: that of its live process, or an empty one. -/
def mailboxOf (s : System) (p : Nat) : Mailbox :=
  ((s.find? p).map (·.mailbox)).getD {}

/-- From `s₀` on, every live process has the mailbox its pid had in `s₀`, after a sequence of
deliveries and receives; the pid counter only grows alongside. -/
theorem mailboxes_stable (s₀ : System) (hw₀ : s₀.Wf) :
    Stable fun s => Grows s₀ s ∧ ∀ a ∈ s.actors,
      ∃ evs : List MailboxEvent, a.mailbox = evs.foldl Mailbox.after (s₀.mailboxOf a.pid) := by
  refine (grows_stable s₀).forall_actors (fun a b hpid hc ⟨evs, he⟩ => ?_) fun s _ _ hg => ?_
  · -- one more event, or none
    obtain ⟨evs', he'⟩ := hc.mailbox_after
    exact ⟨evs ++ evs', by rw [hpid, List.foldl_append, ← he, he']⟩
  · -- a new pid was no live pid of `s₀`, whose mailbox for it is empty
    have hfresh : s₀.find? (s.nextPid + 1) = none := by
      cases hf : s₀.find? (s.nextPid + 1) with
      | none => rfl
      | some a =>
        have := hw₀.le_of_alive (alive_iff.2 ⟨a, hf⟩)
        have := hg.nextPid
        omega
    exact ⟨[], by simp [mailboxOf, hfresh]⟩

/-- Along every run from a reachable state, the mailbox of a process live at the end is the one
its pid had at the start (an empty one for a process spawned on the way) after a sequence of
deliveries and receives: the scheduler changes a mailbox by nothing else. -/
theorem Leads.mailbox_events (hs : s.Reachable) (hl : s.Leads s') {a : Actor} (ha : a ∈ s'.actors) :
    ∃ evs : List MailboxEvent, a.mailbox = evs.foldl Mailbox.after (s.mailboxOf a.pid) := by
  have hw := hs.wf
  have h₀ : ∀ a ∈ s.actors, ∃ evs : List MailboxEvent,
      a.mailbox = evs.foldl Mailbox.after (s.mailboxOf a.pid) := fun a ha => by
    have hf : s.find? a.pid = some a := (Actors.find?_eq_some_iff hw.nodup).2 ⟨ha, rfl⟩
    exact ⟨[], by simp [mailboxOf, hf]⟩
  exact ((mailboxes_stable s hw).leads hs ⟨⟨List.prefix_refl _, Nat.le_refl _⟩, h₀⟩ hl).2 a ha

end System

/-! ## Main result -/

/-- **Selective receive takes the oldest selected message.** A receive with clauses `cs` finds
nothing exactly when every clause rejects every message (with guards that never panic: when no
clause accepts any message). Otherwise it takes the oldest message `m` some clause selects,
with the least position `i` of such a clause and the values `vs` that clause binds, and the
mailbox loses exactly that message, the others keeping their order. A guard that panics ends
the search, and no mailbox is returned. Hence, over any sequence of deliveries and receives, a
mailbox is an order-preserving subsequence of the messages delivered to it; and a run of the
system changes a mailbox by such events only, so along every run from a reachable state the
mailbox of each live process is an order-preserving subsequence of the one its pid had at the
start followed by the messages delivered to it. -/
theorem selectMessage_oldest (mb : Mailbox) (cs : List Clause) :
    (selectMessage mb cs = .ok none ↔ ∀ m ∈ mb.messages, Rejected cs m) ∧
    (∀ r mb', selectMessage mb cs = .ok (some (r, mb')) ↔
      ∃ pre m post i vs, mb.messages = pre ++ m :: post ∧ (∀ x ∈ pre, Rejected cs x) ∧
        FirstSelecting cs m i vs ∧ r = .message i vs ∧ mb'.messages = pre ++ post) ∧
    (∀ e, selectMessage mb cs = .error e ↔
      ∃ pre m post, mb.messages = pre ++ m :: post ∧ (∀ x ∈ pre, Rejected cs x) ∧
        ∃ cpre c cpost, cs = cpre ++ c :: cpost ∧ Rejected cpre m ∧ c.select [m] = .error e) ∧
    (∀ evs : List MailboxEvent,
      (evs.foldl Mailbox.after {}).messages.Sublist (MailboxEvent.delivered evs)) ∧
    (∀ s s' : System, s.Reachable → s.Leads s' → ∀ a ∈ s'.actors, ∃ evs : List MailboxEvent,
      a.mailbox = evs.foldl Mailbox.after (s.mailboxOf a.pid) ∧
        a.mailbox.messages.Sublist ((s.mailboxOf a.pid).messages ++ MailboxEvent.delivered evs)) :=
  ⟨selectMessage_eq_none_iff, fun _ _ => selectMessage_eq_some_iff,
    fun _ => selectMessage_eq_error_iff, fun evs => by simpa using Mailbox.after_sublist {} evs,
    fun _ _ hs hl _ ha => by
      obtain ⟨evs, he⟩ := System.Leads.mailbox_events hs hl ha
      exact ⟨evs, he, he ▸ Mailbox.after_sublist _ evs⟩⟩

end ActorCore
