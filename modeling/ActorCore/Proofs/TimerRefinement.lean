import ActorCore.Proofs.Timers
import Mathlib.Data.List.Sort

/-!
# Timer queues refine a sorted queue of live timers

A timer queue marks cancelled timers instead of removing them; marked timers are dropped when
they reach the front, and all at once when they are more than half of the queue. What its user
sees is simpler: the timers that have neither fired nor been cancelled, due first first, ties in
push order (`TimerQueue.live`). `TimerSpec` is that view as a queue of its own: a push inserts
the timer at its place under the next identifier, a cancel removes the timer of an identifier if
it is there, a pop takes the first timer, and the count is the number of timers.

Behind the view the queue keeps `TimerQueue.Sound`: its entries are in order, with distinct
sequence numbers from 1 up to its counter; every mark names an entry still held, no number is
marked twice, and the first entry is never marked. Each operation keeps it and does to the
live timers what the same operation of `TimerSpec` does, one lemma per operation
(`Refines.push`, `Refines.cancel`, `Refines.pop`, …).

Principal result: `TimerQueue.refines_spec` — over every sequence of calls from the empty
queue, a timer queue gives the same answers as `TimerSpec`, holds the same live timers, and
keeps its bookkeeping sound; so its count never underflows and a cancelled timer never fires.
-/

namespace ActorCore

namespace TimerEntry

/-- `e` is due before `f`: an earlier deadline, or the same deadline and an earlier push. -/
def Before (e f : TimerEntry) : Prop :=
  e.deadline < f.deadline ∨ (e.deadline = f.deadline ∧ e.seq < f.seq)

instance : DecidableRel Before := fun e f =>
  inferInstanceAs (Decidable (e.deadline < f.deadline ∨ (e.deadline = f.deadline ∧ e.seq < f.seq)))

theorem Before.deadline_le {e f : TimerEntry} (h : e.Before f) : e.deadline ≤ f.deadline := by
  rcases h with h | ⟨h, -⟩ <;> omega

end TimerEntry

/-- A timer queue as its user sees it: the timers that have neither fired nor been cancelled,
each with its deadline, identifier and event, the first due first; and how many timers were
pushed. -/
structure TimerSpec where
  timers : List TimerEntry := []
  issued : Nat := 0

namespace TimerSpec

/-- A push gets the next identifier, and goes after every timer due no later. -/
def push (A : TimerSpec) (deadline : Nat) (event : TimerEvent) : Nat × TimerSpec :=
  (A.issued + 1,
    ⟨A.timers.orderedInsert TimerEntry.Before ⟨deadline, A.issued + 1, event⟩, A.issued + 1⟩)

/-- A cancel removes the timer of the identifier, if there is one. -/
def cancel (A : TimerSpec) (id : Nat) : TimerSpec :=
  { A with timers := A.timers.filter (·.seq != id) }

/-- Takes the first timer. -/
def pop (A : TimerSpec) : Option (TimerEvent × TimerSpec) :=
  match A.timers with
  | [] => none
  | e :: rest => some (e.event, { A with timers := rest })

/-- Takes the first timer if it is due at `now`. -/
def popDue (A : TimerSpec) (now : Nat) : Option (TimerEvent × TimerSpec) :=
  match A.timers with
  | e :: _ => if e.deadline ≤ now then A.pop else none
  | [] => none

def peek (A : TimerSpec) : Option TimerEvent :=
  A.timers.head?.map (·.event)

def nextDeadline (A : TimerSpec) : Option Nat :=
  A.timers.head?.map (·.deadline)

def len (A : TimerSpec) : Nat :=
  A.timers.length

end TimerSpec

/-! ## Calls -/

/-- A call on a timer queue. -/
inductive TimerCall where
  | push (deadline : Nat) (event : TimerEvent)
  | cancel (id : Nat)
  | pop
  | popDue (now : Nat)
  | peek
  | nextDeadline
  | len

/-- The answer to a call. -/
inductive TimerAnswer where
  | id (n : Nat)
  | done
  | event (ev : Option TimerEvent)
  | deadline (d : Option Nat)
  | count (n : Nat)

/-- The operations of a timer queue on states `σ`. -/
structure TimerOps (σ : Type) where
  push : σ → Nat → TimerEvent → Nat × σ
  cancel : σ → Nat → σ
  pop : σ → Option (TimerEvent × σ)
  popDue : σ → Nat → Option (TimerEvent × σ)
  peek : σ → Option TimerEvent
  nextDeadline : σ → Option Nat
  len : σ → Nat

namespace TimerOps

variable {σ : Type}

/-- The answer to a pop and the state after it: a pop that finds nothing changes nothing. -/
def popAnswer (s : σ) : Option (TimerEvent × σ) → TimerAnswer × σ
  | some (ev, s') => (.event (some ev), s')
  | none => (.event none, s)

/-- One call. -/
def call (ops : TimerOps σ) (s : σ) : TimerCall → TimerAnswer × σ
  | .push d ev =>
    let (id, s) := ops.push s d ev
    (.id id, s)
  | .cancel id => (.done, ops.cancel s id)
  | .pop => popAnswer s (ops.pop s)
  | .popDue now => popAnswer s (ops.popDue s now)
  | .peek => (.event (ops.peek s), s)
  | .nextDeadline => (.deadline (ops.nextDeadline s), s)
  | .len => (.count (ops.len s), s)

/-- Calls one after another: the answers in order, and the final state. -/
def run (ops : TimerOps σ) (s : σ) : List TimerCall → List TimerAnswer × σ
  | [] => ([], s)
  | c :: cs =>
    let (a, s) := ops.call s c
    let (as, s) := ops.run s cs
    (a :: as, s)

end TimerOps

def TimerQueue.ops : TimerOps TimerQueue :=
  ⟨TimerQueue.push, TimerQueue.cancel, TimerQueue.pop, TimerQueue.popDue, TimerQueue.peek,
    TimerQueue.nextDeadline, TimerQueue.len⟩

def TimerSpec.ops : TimerOps TimerSpec :=
  ⟨TimerSpec.push, TimerSpec.cancel, TimerSpec.pop, TimerSpec.popDue, TimerSpec.peek,
    TimerSpec.nextDeadline, TimerSpec.len⟩

namespace TimerQueue

variable {q q' : TimerQueue} {A : TimerSpec} {e x : TimerEntry} {l rest : List TimerEntry}
  {c : List Nat}

/-! ## The live timers -/

/-- The entries no mark falls on: the timers that have neither fired nor been cancelled. -/
def live (q : TimerQueue) : List TimerEntry :=
  q.entries.filter fun e => !q.cancelled.contains e.seq

theorem mem_live : e ∈ q.live ↔ e ∈ q.entries ∧ e.seq ∉ q.cancelled := by
  simp [live]

/-- What keeps the view right: entries in order with distinct sequence numbers from 1 to the
counter, marks that name held entries once each, and a first entry that is not marked. -/
structure Sound (q : TimerQueue) : Prop where
  sorted : q.entries.Pairwise TimerEntry.Before
  seq_nodup : (q.entries.map (·.seq)).Nodup
  seq_pos : ∀ e ∈ q.entries, 0 < e.seq
  seq_le : ∀ e ∈ q.entries, e.seq ≤ q.seq
  cancelled_nodup : q.cancelled.Nodup
  cancelled_held : ∀ n ∈ q.cancelled, ∃ e ∈ q.entries, e.seq = n
  head_unmarked : ∀ e ∈ q.entries.head?, e.seq ∉ q.cancelled

theorem Sound.empty : ({} : TimerQueue).Sound where
  sorted := List.Pairwise.nil
  seq_nodup := List.nodup_nil
  seq_pos _ h := nomatch h
  seq_le _ h := nomatch h
  cancelled_nodup := List.nodup_nil
  cancelled_held _ h := nomatch h
  head_unmarked _ h := nomatch h

/-- A queue whose entries are kept from a sound one, with marks that are sound on their own. -/
theorem Sound.of_sublist (hs : q.Sound) (he : q'.entries.Sublist q.entries) (hseq : q'.seq = q.seq)
    (hn : q'.cancelled.Nodup) (hheld : ∀ n ∈ q'.cancelled, ∃ e ∈ q'.entries, e.seq = n)
    (hhead : ∀ e ∈ q'.entries.head?, e.seq ∉ q'.cancelled) : q'.Sound where
  sorted := hs.sorted.sublist he
  seq_nodup := hs.seq_nodup.sublist (he.map _)
  seq_pos e h := hs.seq_pos e (he.subset h)
  seq_le e h := hseq ▸ hs.seq_le e (he.subset h)
  cancelled_nodup := hn
  cancelled_held := hheld
  head_unmarked := hhead

/-- The first live timer is the first entry. -/
theorem Sound.live_eq_cons (hs : q.Sound) (h : q.entries = e :: rest) :
    q.live = e :: rest.filter fun x => !q.cancelled.contains x.seq := by
  have he : e.seq ∉ q.cancelled := hs.head_unmarked e (by rw [h]; rfl)
  rw [live, h, List.filter_cons_of_pos (by simpa [List.contains_iff_mem] using he)]

theorem Sound.live_eq_nil (h : q.entries = []) : q.live = [] := by
  rw [live, h]
  rfl

/-- The marks count the marked entries, so the count of a queue is its number of live timers. -/
theorem Sound.length_live (hs : q.Sound) : q.live.length + q.cancelled.length = q.entries.length := by
  have hsplit := List.length_eq_length_filter_add (l := q.entries) fun e => !q.cancelled.contains e.seq
  simp only [Bool.not_not] at hsplit
  -- the sequence numbers of the marked entries are the marks, each once
  have hperm : ((q.entries.filter fun e => q.cancelled.contains e.seq).map (·.seq)).Perm q.cancelled := by
    refine (List.perm_ext_iff_of_nodup ?_ hs.cancelled_nodup).2 fun n => ?_
    · exact hs.seq_nodup.sublist ((List.filter_sublist).map _)
    · simp only [List.mem_map, List.mem_filter, List.contains_iff_mem]
      constructor
      · rintro ⟨e, ⟨-, he⟩, rfl⟩
        exact he
      · intro hn
        obtain ⟨e, he, rfl⟩ := hs.cancelled_held n hn
        exact ⟨e, ⟨he, hn⟩, rfl⟩
  rw [hsplit, live, ← hperm.length_eq, List.length_map]

/-! ## Dropping marked entries from the front -/

/-- Dropping a marked entry from the front keeps the live timers behind it: no other entry has
its sequence number. -/
theorem filter_skipCancelled (hl : (l.map (·.seq)).Nodup) (c : List Nat) :
    (skipCancelled l c).1.filter (fun e => !(skipCancelled l c).2.contains e.seq) =
      l.filter fun e => !c.contains e.seq := by
  induction l generalizing c with
  | nil => simp [skipCancelled]
  | cons x xs ih =>
    simp only [List.map_cons, List.nodup_cons, List.mem_map] at hl
    simp only [skipCancelled]
    split
    · rename_i hx
      rw [ih hl.2, List.filter_cons_of_neg (by simp only [hx, Bool.not_true, Bool.false_eq_true,
        not_false_eq_true])]
      apply List.filter_congr
      intro y hy
      have hne : y.seq ≠ x.seq := fun h => hl.1 ⟨y, hy, h⟩
      simp [List.mem_erase_of_ne hne]
    · rfl

theorem skipCancelled_head (l : List TimerEntry) (c : List Nat) :
    ∀ e ∈ (skipCancelled l c).1.head?, e.seq ∉ (skipCancelled l c).2 := by
  induction l generalizing c with
  | nil => intro e h; cases h
  | cons x xs ih =>
    simp only [skipCancelled]
    split
    · exact ih _
    · rename_i hx
      intro e he
      cases he
      simpa [List.contains_iff_mem] using hx

/-- Every mark still names a held entry after marked entries are dropped from the front. -/
theorem skipCancelled_held (hc : c.Nodup) (h : ∀ n ∈ c, ∃ e ∈ l, e.seq = n) :
    ∀ n ∈ (skipCancelled l c).2, ∃ e ∈ (skipCancelled l c).1, e.seq = n := by
  induction l generalizing c with
  | nil =>
    intro n hn
    obtain ⟨e, he, -⟩ := h n hn
    cases he
  | cons x xs ih =>
    simp only [skipCancelled]
    split
    · refine ih (hc.erase _) fun n hn => ?_
      obtain ⟨hne, hn⟩ := (hc.mem_erase_iff).1 hn
      obtain ⟨e, he, rfl⟩ := h n hn
      rcases List.mem_cons.1 he with rfl | he
      · exact absurd rfl hne
      · exact ⟨e, he, rfl⟩
    · exact h

/-- Dropping the marked entries at the front of a sublist of a sound queue's entries, with marks
that name entries of the sublist once each, leaves a sound queue. -/
theorem Sound.skip (hs : q.Sound) (hl : l.Sublist q.entries) (hc : c.Nodup)
    (hheld : ∀ n ∈ c, ∃ e ∈ l, e.seq = n) :
    ({ q with entries := (skipCancelled l c).1, cancelled := (skipCancelled l c).2 } : TimerQueue).Sound :=
  hs.of_sublist ((skipCancelled_sublist l c).1.trans hl) rfl
    (hc.sublist (skipCancelled_sublist l c).2) (skipCancelled_held hc hheld)
    (skipCancelled_head l c)

/-! ## Pushing -/

/-- A timer pushed after every other keeps the entries in order. -/
theorem insertSorted_pairwise (hl : l.Pairwise TimerEntry.Before) (he : ∀ y ∈ l, y.seq < e.seq) :
    (insertSorted e l).Pairwise TimerEntry.Before := by
  induction l with
  | nil => exact List.pairwise_singleton _ _
  | cons x xs ih =>
    rw [List.pairwise_cons] at hl
    simp only [insertSorted]
    split
    · rename_i hlt
      refine List.Pairwise.cons (fun y hy => ?_) (List.Pairwise.cons hl.1 hl.2)
      rcases List.mem_cons.1 hy with rfl | hy
      · exact .inl hlt
      · exact .inl (Nat.lt_of_lt_of_le hlt (hl.1 y hy).deadline_le)
    · rename_i hge
      refine List.Pairwise.cons (fun y hy => ?_) (ih hl.2 fun y hy => he y (List.mem_cons_of_mem _ hy))
      rcases List.mem_cons.1 ((insertSorted_perm e xs).mem_iff.1 hy) with rfl | hy
      · have := he x List.mem_cons_self
        by_cases hd : x.deadline < y.deadline
        · exact .inl hd
        · exact .inr ⟨by omega, this⟩
      · exact hl.1 y hy

theorem orderedInsert_eq_cons {L : List TimerEntry} (h : ∀ y ∈ L, e.Before y) :
    L.orderedInsert TimerEntry.Before e = e :: L := by
  cases L with
  | nil => rfl
  | cons y ys => exact List.orderedInsert_cons_of_le _ ys (h y List.mem_cons_self)

/-- Pushing a timer after every other and then keeping the unmarked entries is inserting it into
the unmarked entries at its place. -/
theorem filter_insertSorted {P : TimerEntry → Bool} (hl : l.Pairwise TimerEntry.Before)
    (he : ∀ y ∈ l, y.seq < e.seq) (hP : P e = true) :
    (insertSorted e l).filter P = (l.filter P).orderedInsert TimerEntry.Before e := by
  induction l with
  | nil => simp [insertSorted, hP]
  | cons x xs ih =>
    rw [List.pairwise_cons] at hl
    simp only [insertSorted]
    split
    · rename_i hlt
      -- the timer goes before `x`, and so before everything after it
      rw [List.filter_cons_of_pos hP, orderedInsert_eq_cons]
      intro y hy
      rcases List.mem_cons.1 (List.mem_of_mem_filter hy) with rfl | hy
      · exact .inl hlt
      · exact .inl (Nat.lt_of_lt_of_le hlt (hl.1 y hy).deadline_le)
    · rename_i hge
      have hnb : ¬ e.Before x := by
        have := he x List.mem_cons_self
        rintro (h | ⟨-, h⟩) <;> omega
      have ih' := ih hl.2 fun y hy => he y (List.mem_cons_of_mem _ hy)
      by_cases hx : P x = true
      · rw [List.filter_cons_of_pos hx, List.filter_cons_of_pos hx,
          List.orderedInsert_of_not_le _ _ hnb, ih']
      · rw [List.filter_cons_of_neg hx, List.filter_cons_of_neg hx, ih']

theorem head?_insertSorted (e : TimerEntry) (l : List TimerEntry) :
    ∀ x ∈ (insertSorted e l).head?, x = e ∨ x ∈ l.head? := by
  cases l with
  | nil =>
    intro x hx
    cases hx
    exact .inl rfl
  | cons y ys =>
    simp only [insertSorted]
    split
    · intro x hx
      cases hx
      exact .inl rfl
    · intro x hx
      cases hx
      exact .inr rfl

theorem Sound.push (hs : q.Sound) (d : Nat) (ev : TimerEvent) : (q.push d ev).2.Sound := by
  have hfresh : ∀ y ∈ q.entries, y.seq < q.seq + 1 := fun y hy => Nat.lt_succ_of_le (hs.seq_le y hy)
  have hunmarked : q.seq + 1 ∉ q.cancelled := fun h => by
    obtain ⟨y, hy, hys⟩ := hs.cancelled_held _ h
    have := hs.seq_le y hy
    omega
  refine ⟨insertSorted_pairwise hs.sorted hfresh, ?_, fun y hy => ?_, fun y hy => ?_,
    hs.cancelled_nodup, fun n hn => ?_, fun y hy => ?_⟩
  · rw [push_entries, ((insertSorted_perm _ _).map _).nodup_iff, List.map_cons, List.nodup_cons]
    refine ⟨fun h => ?_, hs.seq_nodup⟩
    obtain ⟨y, hy, hys⟩ := List.mem_map.1 h
    exact absurd hys (Nat.ne_of_lt (hfresh y hy))
  · rcases mem_push.1 hy with rfl | hy
    · exact Nat.succ_pos _
    · exact hs.seq_pos y hy
  · rcases mem_push.1 hy with rfl | hy
    · exact Nat.le_refl _
    · exact Nat.le_succ_of_le (hs.seq_le y hy)
  · obtain ⟨y, hy, rfl⟩ := hs.cancelled_held n hn
    exact ⟨y, mem_push.2 (.inr hy), rfl⟩
  · rcases head?_insertSorted _ _ y hy with rfl | hy
    · exact hunmarked
    · exact hs.head_unmarked y hy

theorem live_push (hs : q.Sound) (d : Nat) (ev : TimerEvent) :
    (q.push d ev).2.live = q.live.orderedInsert TimerEntry.Before ⟨d, q.seq + 1, ev⟩ := by
  have hunmarked : q.seq + 1 ∉ q.cancelled := fun h => by
    obtain ⟨y, hy, hys⟩ := hs.cancelled_held _ h
    have := hs.seq_le y hy
    omega
  rw [live, push_entries, push_cancelled, live]
  exact filter_insertSorted hs.sorted (fun y hy => Nat.lt_succ_of_le (hs.seq_le y hy))
    (by simpa [List.contains_iff_mem] using hunmarked)

/-! ## Cancelling -/

/-- Cancelling a number no entry has changes nothing. -/
theorem cancel_of_not_held {id : Nat} (h : ∀ e ∈ q.entries, e.seq ≠ id) : q.cancel id = q := by
  unfold cancel
  rw [if_pos]
  refine .inr (.inr ?_)
  simpa using h

/-- The marks after cancelling a held entry: the old ones and its number, once. -/
def marksWith (q : TimerQueue) (id : Nat) : List Nat :=
  if q.cancelled.contains id then q.cancelled else q.cancelled ++ [id]

theorem mem_marksWith {id n : Nat} : n ∈ q.marksWith id ↔ n ∈ q.cancelled ∨ n = id := by
  unfold marksWith
  split
  · rename_i h
    have h : id ∈ q.cancelled := by simpa [List.contains_iff_mem] using h
    constructor
    · exact .inl
    · rintro (h' | rfl)
      · exact h'
      · exact h
  · simp

theorem Sound.marksWith_nodup (hs : q.Sound) (id : Nat) : (q.marksWith id).Nodup := by
  unfold marksWith
  split
  · exact hs.cancelled_nodup
  · rename_i h
    refine List.nodup_append.2 ⟨hs.cancelled_nodup, List.nodup_singleton _, ?_⟩
    intro a ha b hb hab
    rw [List.mem_singleton] at hb
    subst hb hab
    exact h (by simpa [List.contains_iff_mem] using ha)

/-- Cancelling a held entry: its number joins the marks; then every marked entry is dropped, or
the marked entries at the front. -/
theorem cancel_of_held {id : Nat} (he : e ∈ q.entries) (hid : e.seq = id) (hs : q.Sound) :
    q.cancel id =
      if q.entries.length < (q.marksWith id).length * 2 then
        { q with entries := q.entries.filter (fun e => !(q.marksWith id).contains e.seq),
                 cancelled := [] }
      else
        { q with entries := (skipCancelled q.entries (q.marksWith id)).1,
                 cancelled := (skipCancelled q.entries (q.marksWith id)).2 } := by
  unfold cancel
  rw [if_neg]
  · rfl
  · have hpos := hs.seq_pos e he
    have hle := hs.seq_le e he
    simp only [not_or, Bool.not_eq_true', Nat.not_lt]
    refine ⟨by omega, by omega, ?_⟩
    simpa using ⟨e, he, hid⟩

/-- The entries no new mark falls on are the live timers other than the cancelled one. -/
theorem filter_marksWith (id : Nat) :
    q.entries.filter (fun e => !(q.marksWith id).contains e.seq) = q.live.filter (·.seq != id) := by
  rw [live, List.filter_filter]
  apply List.filter_congr
  intro y _
  by_cases hc : y.seq ∈ q.cancelled <;> by_cases hy : y.seq = id <;>
    simp [mem_marksWith, hc, hy]

theorem Sound.cancel (hs : q.Sound) (id : Nat) :
    (q.cancel id).Sound ∧ (q.cancel id).live = q.live.filter (·.seq != id) := by
  by_cases hheld : ∃ e ∈ q.entries, e.seq = id
  · obtain ⟨e, he, hid⟩ := hheld
    have hmarks : ∀ n ∈ q.marksWith id, ∃ e ∈ q.entries, e.seq = n := by
      intro n hn
      rcases mem_marksWith.1 hn with hn | rfl
      · exact hs.cancelled_held n hn
      · exact ⟨e, he, hid⟩
    rw [cancel_of_held he hid hs]
    split
    · -- every marked entry is dropped, and no mark is left
      refine ⟨hs.of_sublist List.filter_sublist rfl List.nodup_nil (fun _ h => nomatch h)
        (fun _ _ h => nomatch h), ?_⟩
      rw [← filter_marksWith, live]
      simp
    · exact ⟨hs.skip (List.Sublist.refl _) (hs.marksWith_nodup id) hmarks,
        (filter_skipCancelled hs.seq_nodup _).trans (filter_marksWith id)⟩
  · have hnot : ∀ e ∈ q.entries, e.seq ≠ id := fun e he h => hheld ⟨e, he, h⟩
    rw [cancel_of_not_held hnot]
    refine ⟨hs, ?_⟩
    symm
    rw [List.filter_eq_self]
    intro y hy
    simpa using hnot y (mem_live.1 hy).1

/-! ## Taking the first timer -/

theorem pop_of_cons (h : q.entries = e :: rest) :
    q.pop = some (e.event, { q with entries := (skipCancelled rest q.cancelled).1,
                                    cancelled := (skipCancelled rest q.cancelled).2 }) := by
  unfold pop
  rw [h]

theorem pop_of_nil (h : q.entries = []) : q.pop = none := by
  unfold pop
  rw [h]

/-- After the first timer is taken, the live timers are the ones behind it. -/
theorem Sound.pop (hs : q.Sound) (h : q.entries = e :: rest) :
    let q' : TimerQueue := { q with entries := (skipCancelled rest q.cancelled).1,
                                    cancelled := (skipCancelled rest q.cancelled).2 }
    q'.Sound ∧ q'.live = rest.filter fun x => !q.cancelled.contains x.seq := by
  intro q'
  have hrest : (rest.map (·.seq)).Nodup := by
    have := hs.seq_nodup
    rw [h, List.map_cons, List.nodup_cons] at this
    exact this.2
  -- every mark names an entry behind the first, which is not marked
  have hheld : ∀ n ∈ q.cancelled, ∃ y ∈ rest, y.seq = n := by
    intro n hn
    obtain ⟨y, hy, rfl⟩ := hs.cancelled_held n hn
    rw [h] at hy
    rcases List.mem_cons.1 hy with rfl | hy
    · exact absurd hn (hs.head_unmarked y (by rw [h]; rfl))
    · exact ⟨y, hy, rfl⟩
  exact ⟨hs.skip (h ▸ List.sublist_cons_self e rest) hs.cancelled_nodup hheld,
    filter_skipCancelled hrest _⟩

/-! ## Refinement -/

/-- The queue is sound, holds the live timers of the view, and has issued as many identifiers. -/
structure Refines (q : TimerQueue) (A : TimerSpec) : Prop where
  sound : q.Sound
  live : q.live = A.timers
  seq : q.seq = A.issued

theorem Refines.empty : Refines {} {} :=
  ⟨Sound.empty, rfl, rfl⟩

theorem Refines.push (h : Refines q A) (d : Nat) (ev : TimerEvent) :
    (q.push d ev).1 = (A.push d ev).1 ∧ Refines (q.push d ev).2 (A.push d ev).2 := by
  refine ⟨by rw [push_fst, h.seq]; rfl, h.sound.push d ev, ?_, by rw [push_seq, h.seq]; rfl⟩
  rw [live_push h.sound, h.live, h.seq]
  rfl

theorem Refines.cancel (h : Refines q A) (id : Nat) : Refines (q.cancel id) (A.cancel id) := by
  obtain ⟨hsound, hlive⟩ := h.sound.cancel id
  exact ⟨hsound, by rw [hlive, h.live]; rfl, by rw [cancel_seq, h.seq]; rfl⟩

/-- Two pops agree: both find nothing, or both the same event, leaving related states. -/
def PopAgrees : Option (TimerEvent × TimerQueue) → Option (TimerEvent × TimerSpec) → Prop :=
  Option.Rel fun x y => x.1 = y.1 ∧ Refines x.2 y.2

theorem Refines.pop (h : Refines q A) : PopAgrees q.pop A.pop := by
  cases hq : q.entries with
  | nil =>
    have hA : A.timers = [] := h.live ▸ Sound.live_eq_nil hq
    rw [pop_of_nil hq, TimerSpec.pop, hA]
    exact .none
  | cons e rest =>
    have hA : A.timers = e :: rest.filter fun x => !q.cancelled.contains x.seq :=
      h.live ▸ h.sound.live_eq_cons hq
    obtain ⟨hsound, hlive⟩ := h.sound.pop hq
    rw [pop_of_cons hq, TimerSpec.pop, hA]
    exact .some ⟨rfl, hsound, hlive, h.seq⟩

theorem Refines.popDue (h : Refines q A) (now : Nat) : PopAgrees (q.popDue now) (A.popDue now) := by
  cases hq : q.entries with
  | nil =>
    have hA : A.timers = [] := h.live ▸ Sound.live_eq_nil hq
    rw [TimerQueue.popDue, TimerSpec.popDue, hq, hA]
    exact .none
  | cons e rest =>
    have hA : A.timers = e :: rest.filter fun x => !q.cancelled.contains x.seq :=
      h.live ▸ h.sound.live_eq_cons hq
    rw [TimerQueue.popDue, TimerSpec.popDue, hq, hA]
    dsimp only
    by_cases hdue : now < e.deadline
    · rw [if_pos hdue, if_neg (by omega)]
      exact .none
    · rw [if_neg hdue, if_pos (by omega)]
      exact h.pop

theorem Refines.head? (h : Refines q A) : q.entries.head? = A.timers.head? := by
  rw [← h.live]
  cases hq : q.entries with
  | nil => rw [Sound.live_eq_nil hq]
  | cons e rest => rw [h.sound.live_eq_cons hq]; rfl

theorem Refines.len (h : Refines q A) : q.len = A.len := by
  have := h.sound.length_live
  rw [TimerQueue.len, TimerSpec.len, ← h.live]
  omega

theorem Refines.popAnswer {o : Option (TimerEvent × TimerQueue)} {o' : Option (TimerEvent × TimerSpec)}
    (h : Refines q A) (ho : PopAgrees o o') :
    (TimerOps.popAnswer q o).1 = (TimerOps.popAnswer A o').1 ∧
      Refines (TimerOps.popAnswer q o).2 (TimerOps.popAnswer A o').2 := by
  cases ho with
  | none => exact ⟨rfl, h⟩
  | some hxy =>
    rename_i x y
    obtain ⟨ev, q'⟩ := x
    obtain ⟨ev', A'⟩ := y
    obtain ⟨rfl, hr⟩ := hxy
    exact ⟨rfl, hr⟩

/-- One call: the same answer, and related states after it. -/
theorem Refines.call (h : Refines q A) (c : TimerCall) :
    (TimerQueue.ops.call q c).1 = (TimerSpec.ops.call A c).1 ∧
      Refines (TimerQueue.ops.call q c).2 (TimerSpec.ops.call A c).2 := by
  cases c with
  | push d ev =>
    obtain ⟨hid, hr⟩ := h.push d ev
    exact ⟨by simp only [TimerOps.call, TimerQueue.ops, TimerSpec.ops, hid], hr⟩
  | cancel id => exact ⟨rfl, h.cancel id⟩
  | pop => exact h.popAnswer h.pop
  | popDue now => exact h.popAnswer (h.popDue now)
  | peek =>
    refine ⟨?_, h⟩
    simp only [TimerOps.call, TimerQueue.ops, TimerSpec.ops, TimerQueue.peek, TimerSpec.peek,
      h.head?]
  | nextDeadline =>
    refine ⟨?_, h⟩
    simp only [TimerOps.call, TimerQueue.ops, TimerSpec.ops, TimerQueue.nextDeadline,
      TimerSpec.nextDeadline, h.head?]
  | len =>
    refine ⟨?_, h⟩
    simp only [TimerOps.call, TimerQueue.ops, TimerSpec.ops, h.len]

/-- A run of calls: the same answers, and related states at the end. -/
theorem Refines.run (h : Refines q A) (calls : List TimerCall) :
    (TimerQueue.ops.run q calls).1 = (TimerSpec.ops.run A calls).1 ∧
      Refines (TimerQueue.ops.run q calls).2 (TimerSpec.ops.run A calls).2 := by
  induction calls generalizing q A with
  | nil => exact ⟨rfl, h⟩
  | cons c cs ih =>
    obtain ⟨ha, hr⟩ := h.call c
    obtain ⟨has, hrs⟩ := ih hr
    exact ⟨by simp only [TimerOps.run, ha, has], hrs⟩

/-! ## Main result -/

/-- **Timer queues refine a sorted queue of live timers.** Over every sequence of pushes,
cancels, pops, pops of due timers, peeks, deadline queries and counts from the empty queue, a
timer queue gives the same answers as `TimerSpec`: a push returns the next identifier, from 1
on; a cancel removes the live timer of its identifier and does nothing to any other; a pop and a
pop of a due timer take the first live timer (the latter only when it is due); peek and the
next deadline report the first live timer; and the count is the number of live timers. Its live
timers are those of the view, and its bookkeeping stays sound: every mark names an entry still
held, and the first entry is never marked, so a marked timer never fires and the count never
underflows. -/
theorem refines_spec (calls : List TimerCall) :
    (TimerQueue.ops.run {} calls).1 = (TimerSpec.ops.run {} calls).1 ∧
      (TimerQueue.ops.run {} calls).2.live = (TimerSpec.ops.run {} calls).2.timers ∧
      (TimerQueue.ops.run {} calls).2.Sound := by
  obtain ⟨hans, hr⟩ := Refines.empty.run calls
  exact ⟨hans, hr.live, hr.sound⟩

end TimerQueue

end ActorCore
