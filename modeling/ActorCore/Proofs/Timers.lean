import ActorCore.Actor.Timer

/-!
# Timer queues

What the operations of a timer queue do to the events it holds. Pushing inserts one event;
taking the next event removes it and drops the marked events right behind it; cancelling marks
one event and may drop marked events. A marked event never fires, so the count of events of a
kind that no mark falls on changes only by pushes and by taking events of that kind.

* `TimerQueue.countP_push`, `countP_pop`, `countP_cancel` — counts of the events that satisfy a
  test no marked event passes.
* `TimerQueue.Wf` — sequence numbers and marks are at most the counter, and no wake-up is marked;
  pushing, taking and cancelling an event other than a wake-up keep it.
* `TimerQueue.wakes` — the wake-up events of a process, with one equation per operation.
-/

namespace ActorCore

namespace TimerEvent

/-- The event wakes process `p`. -/
def isWake (p : Nat) : TimerEvent → Bool
  | .wake q => q == p
  | _ => false

theorem isWake_iff {p : Nat} {ev : TimerEvent} : ev.isWake p = true ↔ ev = .wake p := by
  cases ev <;> simp [isWake]

end TimerEvent

namespace TimerQueue

variable {q q' : TimerQueue} {f : TimerEntry → Bool} {e : TimerEntry} {ev : TimerEvent}

/-! ## Pushing -/

theorem insertSorted_perm (e : TimerEntry) (l : List TimerEntry) : (insertSorted e l).Perm (e :: l) := by
  induction l with
  | nil => exact List.Perm.refl _
  | cons x xs ih =>
    simp only [insertSorted]
    split
    · exact List.Perm.refl _
    · exact (ih.cons x).trans (List.Perm.swap e x xs)

@[simp] theorem push_entries (d : Nat) (ev : TimerEvent) :
    (q.push d ev).2.entries = insertSorted ⟨d, q.seq + 1, ev⟩ q.entries := rfl

@[simp] theorem push_seq (d : Nat) (ev : TimerEvent) : (q.push d ev).2.seq = q.seq + 1 := rfl

@[simp] theorem push_cancelled (d : Nat) (ev : TimerEvent) :
    (q.push d ev).2.cancelled = q.cancelled := rfl

@[simp] theorem push_fst (d : Nat) (ev : TimerEvent) : (q.push d ev).1 = q.seq + 1 := rfl

theorem mem_push {d : Nat} : e ∈ (q.push d ev).2.entries ↔ e = ⟨d, q.seq + 1, ev⟩ ∨ e ∈ q.entries := by
  rw [push_entries, (insertSorted_perm _ _).mem_iff, List.mem_cons]

theorem countP_push (d : Nat) (ev : TimerEvent) :
    (q.push d ev).2.entries.countP f = q.entries.countP f + if f ⟨d, q.seq + 1, ev⟩ then 1 else 0 := by
  rw [push_entries, (insertSorted_perm _ _).countP_eq, List.countP_cons]

/-! ## Dropping marked events -/

theorem skipCancelled_sublist (l : List TimerEntry) (c : List Nat) :
    (skipCancelled l c).1.Sublist l ∧ (skipCancelled l c).2.Sublist c := by
  induction l generalizing c with
  | nil => simp [skipCancelled]
  | cons x xs ih =>
    simp only [skipCancelled]
    split
    · obtain ⟨h₁, h₂⟩ := ih (c.erase x.seq)
      exact ⟨h₁.cons x, h₂.trans (List.erase_sublist)⟩
    · exact ⟨List.Sublist.refl _, List.Sublist.refl _⟩

/-- Dropping marked events keeps every event that no mark falls on. -/
theorem countP_skipCancelled {l : List TimerEntry} {c : List Nat}
    (h : ∀ e ∈ l, f e = true → e.seq ∉ c) : (skipCancelled l c).1.countP f = l.countP f := by
  induction l generalizing c with
  | nil => simp [skipCancelled]
  | cons x xs ih =>
    simp only [skipCancelled]
    split
    · rename_i hx
      have hfx : f x = false := by
        cases hf : f x
        · rfl
        · exact absurd (List.elem_iff.1 hx) (h x List.mem_cons_self hf)
      rw [ih fun e he hf => fun hc => h e (List.mem_cons_of_mem _ he) hf (List.mem_of_mem_erase hc),
        List.countP_cons, hfx]
      simp
    · rfl

/-! ## Taking the next event -/

theorem pop_spec (h : q.pop = some (ev, q')) :
    ∃ e rest, q.entries = e :: rest ∧ e.event = ev ∧
      q'.entries = (skipCancelled rest q.cancelled).1 ∧
      q'.cancelled = (skipCancelled rest q.cancelled).2 ∧ q'.seq = q.seq := by
  unfold pop at h
  split at h
  · cases h
  · rename_i e rest hq
    simp only [Option.some.injEq, Prod.mk.injEq] at h
    obtain ⟨rfl, rfl⟩ := h
    exact ⟨e, rest, hq, rfl, rfl, rfl, rfl⟩

theorem popDue_eq_pop {now : Nat} {x : TimerEvent × TimerQueue} (h : q.popDue now = some x) :
    q.pop = some x := by
  unfold popDue at h
  split at h
  · split at h
    · cases h
    · exact h
  · cases h

theorem mem_of_pop (h : q.pop = some (ev, q')) (he : e ∈ q'.entries) : e ∈ q.entries := by
  obtain ⟨x, rest, hq, -, hent, -, -⟩ := pop_spec h
  rw [hq]
  rw [hent] at he
  exact List.mem_cons_of_mem _ ((skipCancelled_sublist rest q.cancelled).1.subset he)

/-- Taking the next event removes it, and no other event that no mark falls on. -/
theorem countP_pop (hf : ∀ e ∈ q.entries, f e = true → e.seq ∉ q.cancelled)
    (h : q.pop = some (ev, q')) :
    ∃ e, e.event = ev ∧ q.entries.countP f = q'.entries.countP f + if f e then 1 else 0 := by
  obtain ⟨x, rest, hq, hx, hent, -, -⟩ := pop_spec h
  refine ⟨x, hx, ?_⟩
  rw [hq] at hf
  rw [hq, hent, countP_skipCancelled fun e he => hf e (List.mem_cons_of_mem _ he), List.countP_cons]

/-! ## Cancelling -/

/-- What cancelling does: nothing; or, with marks `c` that are the old marks and `id`, it drops
every marked event, or the marked events at the front. -/
theorem cancel_cases (id : Nat) :
    q.cancel id = q ∨
      0 < id ∧ id ≤ q.seq ∧ ∃ c : List Nat, (∀ x ∈ c, x ∈ q.cancelled ∨ x = id) ∧
        (q.cancel id = { q with entries := q.entries.filter (fun e => !c.contains e.seq),
                                cancelled := [] } ∨
         q.cancel id = { q with entries := (skipCancelled q.entries c).1,
                                cancelled := (skipCancelled q.entries c).2 }) := by
  unfold cancel
  split
  · exact .inl rfl
  · rename_i hid
    simp only [not_or, Nat.not_lt] at hid
    have hmarks : ∀ x ∈ (if q.cancelled.contains id then q.cancelled else q.cancelled ++ [id]),
        x ∈ q.cancelled ∨ x = id := by
      intro x hx
      split at hx
      · exact .inl hx
      · simpa using hx
    generalize (if q.cancelled.contains id then q.cancelled else q.cancelled ++ [id]) = c at hmarks ⊢
    refine .inr ⟨Nat.pos_of_ne_zero hid.1, hid.2.1, c, hmarks, ?_⟩
    dsimp only
    split
    · exact .inl rfl
    · exact .inr rfl

theorem cancel_seq (id : Nat) : (q.cancel id).seq = q.seq := by
  rcases cancel_cases (q := q) id with h | ⟨-, -, c, -, h | h⟩ <;> rw [h]

/-- Cancelling keeps a subset of the events, and the marks are old marks or the cancelled one. -/
theorem cancel_subset (id : Nat) :
    (∀ e ∈ (q.cancel id).entries, e ∈ q.entries) ∧
      (∀ c ∈ (q.cancel id).cancelled, c ∈ q.cancelled ∨ c = id ∧ id ≤ q.seq) := by
  rcases cancel_cases (q := q) id with h | ⟨-, hle, c, hmarks, h | h⟩ <;> rw [h]
  · exact ⟨fun _ h => h, fun c h => .inl h⟩
  · exact ⟨fun e he => (List.mem_filter.1 he).1, fun c hc => nomatch hc⟩
  · obtain ⟨h₁, h₂⟩ := skipCancelled_sublist q.entries c
    refine ⟨fun e he => h₁.subset he, fun x hx => ?_⟩
    rcases hmarks x (h₂.subset hx) with hx | rfl
    · exact .inl hx
    · exact .inr ⟨rfl, hle⟩

/-- Cancelling an event that fails a test keeps every event that passes it and that no mark
falls on. -/
theorem countP_cancel {id : Nat} (hf : ∀ e ∈ q.entries, f e = true → e.seq ∉ q.cancelled)
    (hid : ∀ e ∈ q.entries, e.seq = id → f e = false) :
    (q.cancel id).entries.countP f = q.entries.countP f := by
  rcases cancel_cases (q := q) id with h | ⟨-, -, c, hmarks, h | h⟩ <;> rw [h]
  all_goals
    have hunmarked : ∀ e ∈ q.entries, f e = true → e.seq ∉ c := by
      intro e he hfe hc
      rcases hmarks _ hc with hc | hc
      · exact hf e he hfe hc
      · rw [hid e he hc] at hfe
        cases hfe
  · rw [List.countP_filter]
    apply List.countP_congr
    intro e he
    cases hfe : f e
    · simp
    · simp [hunmarked e he hfe]
  · exact countP_skipCancelled hunmarked

/-! ## The invariant -/

/-- Sequence numbers and marks are at most the counter, and no wake-up is marked. -/
structure Wf (q : TimerQueue) : Prop where
  seq_le : ∀ e ∈ q.entries, e.seq ≤ q.seq
  cancelled_le : ∀ c ∈ q.cancelled, c ≤ q.seq
  wake_unmarked : ∀ e ∈ q.entries, ∀ p, e.event = .wake p → e.seq ∉ q.cancelled

theorem Wf.empty : ({} : TimerQueue).Wf where
  seq_le _ h := nomatch h
  cancelled_le _ h := nomatch h
  wake_unmarked _ h := nomatch h

theorem Wf.push (hq : q.Wf) (d : Nat) (ev : TimerEvent) : (q.push d ev).2.Wf where
  seq_le e he := by
    rcases mem_push.1 he with rfl | he
    · simp
    · exact Nat.le_succ_of_le (hq.seq_le e he)
  cancelled_le c hc := Nat.le_succ_of_le (hq.cancelled_le c hc)
  wake_unmarked e he p hp hc := by
    rcases mem_push.1 he with rfl | he
    · exact absurd (hq.cancelled_le _ hc) (by simp)
    · exact hq.wake_unmarked e he p hp hc

theorem Wf.pop (hq : q.Wf) (h : q.pop = some (ev, q')) : q'.Wf := by
  obtain ⟨x, rest, hent₀, -, hent, hcan, hseq⟩ := pop_spec h
  obtain ⟨h₁, h₂⟩ := skipCancelled_sublist rest q.cancelled
  have hmem : ∀ e ∈ q'.entries, e ∈ q.entries := fun e he => mem_of_pop h he
  refine ⟨fun e he => hseq ▸ hq.seq_le e (hmem e he), fun c hc => ?_, fun e he p hp hc => ?_⟩
  · rw [hcan] at hc
    exact hseq ▸ hq.cancelled_le c (h₂.subset hc)
  · rw [hcan] at hc
    exact hq.wake_unmarked e (hmem e he) p hp (h₂.subset hc)

/-- Cancelling anything but a wake-up keeps the invariant. -/
theorem Wf.cancel (hq : q.Wf) {id : Nat} (hid : ∀ e ∈ q.entries, e.seq = id → ∀ p, e.event ≠ .wake p) :
    (q.cancel id).Wf := by
  obtain ⟨hsub, hmarks⟩ := cancel_subset (q := q) id
  refine ⟨fun e he => cancel_seq (q := q) id ▸ hq.seq_le e (hsub e he), fun c hc => ?_,
    fun e he p hp hc => ?_⟩
  · rw [cancel_seq]
    rcases hmarks c hc with hc | ⟨rfl, hle⟩
    · exact hq.cancelled_le c hc
    · exact hle
  · rcases hmarks _ hc with hc | ⟨hc, -⟩
    · exact hq.wake_unmarked e (hsub e he) p hp hc
    · exact hid e (hsub e he) hc p hp

/-! ## Wake-ups -/

/-- The wake-up events of process `p`. -/
def wakes (q : TimerQueue) (p : Nat) : Nat :=
  q.entries.countP (·.event.isWake p)

theorem Wf.wake_unmarked' (hq : q.Wf) (p : Nat) :
    ∀ e ∈ q.entries, (·.event.isWake p) e = true → e.seq ∉ q.cancelled :=
  fun e he hw => hq.wake_unmarked e he p (TimerEvent.isWake_iff.1 hw)

theorem wakes_push (p d : Nat) (ev : TimerEvent) :
    (q.push d ev).2.wakes p = q.wakes p + if ev.isWake p then 1 else 0 :=
  countP_push d ev

theorem wakes_pop (hq : q.Wf) (h : q.pop = some (ev, q')) (p : Nat) :
    q.wakes p = q'.wakes p + if ev.isWake p then 1 else 0 := by
  obtain ⟨e, rfl, he⟩ := countP_pop (hq.wake_unmarked' p) h
  exact he

theorem wakes_cancel (hq : q.Wf) {id : Nat}
    (hid : ∀ e ∈ q.entries, e.seq = id → ∀ p, e.event ≠ .wake p) (p : Nat) :
    (q.cancel id).wakes p = q.wakes p := by
  refine countP_cancel (hq.wake_unmarked' p) fun e he hs => ?_
  cases hw : e.event.isWake p
  · rfl
  · exact absurd (TimerEvent.isWake_iff.1 hw) (hid e he hs p)

end TimerQueue

end ActorCore
