import Mathlib.Data.List.Induction
import ActorCore.Dispatch

/-!
# Optional parameters are filled from the right

A parameter that is a top-level variable with a default is optional. A call `g` arguments short of
a clause's arity, with `g` at most the number of optionals, gets the defaults of the last `g`
optionals, inserted one after another, in ascending order of position, into the growing list of
arguments. Each insertion lands inside the list built so far: the optionals still to come sit at
larger positions below the arity, which leaves room for them on its right (`Insertable`). The
result has the clause's arity, holds each default used at its parameter's position, and holds the
caller's arguments, in order, everywhere else.

* `insertAll` — the insertions, one after another; `insertAll_append_singleton` peels off the
  last one, and every proof here runs over the insertions from the last one back.
* `Insertable` — positions ascending and below the final length; it passes to every prefix
  (`Insertable.of_append_singleton`), and each insertion is at most at the end of the list built
  so far (`Insertable.getElem_le`).
* `getElem?_insertAll`, `withoutPositions_insertAll` — each value ends at its position, and the
  other positions hold the original items in order.
* `Clause.mem_optionals`, `Clause.optionals_ascending` — the optionals are the parameters with a
  default, in order of position.

Principal result: `Clause.fillDefaults_spec`.
-/

namespace ActorCore

/-! ## Inserting at ascending positions -/

section Insert

variable {α : Type}

/-- Inserts each value at its position, one after another, in the order of the list. -/
def insertAll (ps : List (Nat × α)) (xs : List α) : List α :=
  ps.foldl (fun acc (i, d) => insertAt i d acc) xs

/-- The items of `xs` away from the positions `ps`, in order. -/
def withoutPositions (ps : List Nat) (xs : List α) : List α :=
  (xs.zipIdx.filter fun e => e.2 ∉ ps).map Prod.fst

@[simp] theorem length_insertAt (i : Nat) (x : α) (xs : List α) :
    (insertAt i x xs).length = xs.length + 1 := by
  simp only [insertAt, List.length_append, List.length_take, List.length_cons, List.length_drop]
  omega

theorem getElem?_insertAt_of_lt {i j : Nat} {xs : List α} (hi : i ≤ xs.length) (h : j < i)
    (x : α) : (insertAt i x xs)[j]? = xs[j]? := by
  rw [insertAt, List.getElem?_append_left (by simp; omega), List.getElem?_take, if_pos h]

theorem getElem?_insertAt_self {i : Nat} {xs : List α} (hi : i ≤ xs.length) (x : α) :
    (insertAt i x xs)[i]? = some x := by
  have hlen : (xs.take i).length = i := List.length_take_of_le hi
  rw [insertAt, List.getElem?_append_right (by omega), hlen, Nat.sub_self]
  rfl

/-- Positions from `k` on, none of them in `ps`, are all kept. -/
theorem filter_zipIdx_of_lt {ps : List Nat} {k : Nat} (hps : ∀ q ∈ ps, q < k) (l : List α) :
    (l.zipIdx k).filter (fun e => e.2 ∉ ps) = l.zipIdx k := by
  refine List.filter_eq_self.2 fun ⟨x, i⟩ he => ?_
  have hk := (List.mem_zipIdx he).1
  simpa using fun hm => Nat.lt_irrefl _ (Nat.lt_of_lt_of_le (hps _ hm) hk)

/-- Inserting at `p`, past every position of `ps`, and then leaving out `p` as well, leaves the
items as they were. -/
theorem withoutPositions_insertAt {ps : List Nat} {p : Nat} {xs : List α} (hp : p ≤ xs.length)
    (hps : ∀ q ∈ ps, q < p) (x : α) :
    withoutPositions (ps ++ [p]) (insertAt p x xs) = withoutPositions ps xs := by
  have hlen : (xs.take p).length = p := List.length_take_of_le hp
  -- the positions before `p` are filtered alike on both sides
  have hbefore : (xs.take p).zipIdx.filter (fun e => e.2 ∉ ps ++ [p]) =
      (xs.take p).zipIdx.filter (fun e => e.2 ∉ ps) := by
    refine List.filter_congr fun ⟨y, i⟩ he => ?_
    have hlt := (List.mem_zipIdx he).2.1
    rw [hlen] at hlt
    have hne : i ≠ p := by omega
    simp [hne]
  -- after `p`, nothing is left out on either side
  have hafter : ∀ q ∈ ps ++ [p], q < p + 1 := by
    intro q hq
    rcases List.mem_append.1 hq with hq | hq
    · exact Nat.lt_succ_of_lt (hps q hq)
    · rw [List.mem_singleton.1 hq]
      exact Nat.lt_succ_self p
  have hxs : withoutPositions ps xs = withoutPositions ps (xs.take p ++ xs.drop p) := by
    rw [List.take_append_drop]
  rw [hxs]
  unfold withoutPositions insertAt
  rw [List.zipIdx_append, List.zipIdx_append, List.zipIdx_cons, List.filter_append,
    List.filter_append, List.filter_cons, hbefore, hlen, Nat.zero_add, filter_zipIdx_of_lt hafter,
    filter_zipIdx_of_lt hps]
  simp [List.zipIdx_map_fst]

theorem insertAll_append_singleton (ps : List (Nat × α)) (p : Nat) (d : α) (xs : List α) :
    insertAll (ps ++ [(p, d)]) xs = insertAt p d (insertAll ps xs) := by
  simp [insertAll, List.foldl_append]

@[simp] theorem length_insertAll (ps : List (Nat × α)) (xs : List α) :
    (insertAll ps xs).length = xs.length + ps.length := by
  induction ps using List.reverseRecOn with
  | nil => rfl
  | append_singleton ps e ih =>
    obtain ⟨p, d⟩ := e
    rw [insertAll_append_singleton, length_insertAt, ih, List.length_append, List.length_singleton,
      Nat.add_assoc]

/-- Insertions into a list of length `len` that each land inside the list built so far: the
positions ascend, and each is below the length the list has at the end. -/
structure Insertable (ps : List (Nat × α)) (len : Nat) : Prop where
  ascending : (ps.map Prod.fst).Pairwise (· < ·)
  lt_length : ∀ e ∈ ps, e.1 < len + ps.length

/-- Dropping the last insertion keeps the rest insertable: they all come before it, and it is
at most at the end of the list they build. -/
theorem Insertable.of_append_singleton {ps : List (Nat × α)} {len p : Nat} {d : α}
    (h : Insertable (ps ++ [(p, d)]) len) :
    Insertable ps len ∧ p ≤ len + ps.length ∧ ∀ e ∈ ps, e.1 < p := by
  have hasc := h.ascending
  rw [List.map_append, List.pairwise_append] at hasc
  have hbefore : ∀ e ∈ ps, e.1 < p := fun e he =>
    hasc.2.2 e.1 (List.mem_map_of_mem he) p (by simp)
  have hp : p < len + (ps.length + 1) := by
    simpa using h.lt_length (p, d) (by simp)
  refine ⟨⟨hasc.1, fun e he => ?_⟩, by omega, hbefore⟩
  have := hbefore e he
  omega

/-- **Each insertion is at most at the end of the list built so far**: the `k`-th goes into a
list of length `len + k`. -/
theorem Insertable.getElem_le {ps : List (Nat × α)} {len : Nat} (h : Insertable ps len) :
    ∀ k (hk : k < ps.length), ps[k].1 ≤ len + k := by
  induction ps using List.reverseRecOn with
  | nil => intro k hk; simp at hk
  | append_singleton ps e ih =>
    obtain ⟨p, d⟩ := e
    obtain ⟨hps, hp, -⟩ := h.of_append_singleton
    intro k hk
    rw [List.getElem_append]
    split
    · rename_i hk'
      exact ih hps k hk'
    · -- the last insertion
      rename_i hk'
      simp only [List.length_append, List.length_singleton] at hk
      have hk : k = ps.length := by omega
      subst hk
      simpa using hp

/-- **Every inserted value ends at its position**: later insertions are all to its right. -/
theorem getElem?_insertAll {ps : List (Nat × α)} {xs : List α} (h : Insertable ps xs.length) :
    ∀ e ∈ ps, (insertAll ps xs)[e.1]? = some e.2 := by
  induction ps using List.reverseRecOn with
  | nil => simp
  | append_singleton ps e ih =>
    obtain ⟨p, d⟩ := e
    obtain ⟨hps, hp, hbefore⟩ := h.of_append_singleton
    have hlen : p ≤ (insertAll ps xs).length := by
      rw [length_insertAll]
      exact hp
    intro e he
    rw [insertAll_append_singleton]
    rcases List.mem_append.1 he with he | he
    · -- an earlier value, left of the new one, stays where it is
      rw [getElem?_insertAt_of_lt hlen (hbefore e he), ih hps e he]
    · obtain rfl := List.mem_singleton.1 he
      exact getElem?_insertAt_self hlen d

/-- **Away from the positions inserted at, the items are the original ones, in order.** -/
theorem withoutPositions_insertAll {ps : List (Nat × α)} {xs : List α}
    (h : Insertable ps xs.length) : withoutPositions (ps.map Prod.fst) (insertAll ps xs) = xs := by
  induction ps using List.reverseRecOn with
  | nil =>
    show withoutPositions [] xs = xs
    unfold withoutPositions
    rw [filter_zipIdx_of_lt (fun q hq => absurd hq List.not_mem_nil), List.zipIdx_map_fst]
  | append_singleton ps e ih =>
    obtain ⟨p, d⟩ := e
    obtain ⟨hps, hp, hbefore⟩ := h.of_append_singleton
    have hlen : p ≤ (insertAll ps xs).length := by
      rw [length_insertAll]
      exact hp
    have hbefore' : ∀ q ∈ ps.map Prod.fst, q < p := by
      intro q hq
      obtain ⟨e, he, rfl⟩ := List.mem_map.1 hq
      exact hbefore e he
    rw [insertAll_append_singleton, List.map_append, List.map_singleton,
      withoutPositions_insertAt hlen hbefore', ih hps]

end Insert

/-! ## The optionals of a clause -/

namespace Clause

/-- The optionals are the parameters with a default, each with its position and default. -/
theorem mem_optionals {c : Clause} {i : Nat} {d : Term} :
    (i, d) ∈ c.optionals ↔ ∃ p, c.params[i]? = some p ∧ p.default? = some d := by
  unfold optionals
  rw [List.mem_filterMap]
  constructor
  · rintro ⟨⟨p, j⟩, hmem, hsome⟩
    obtain ⟨d', hd', hpair⟩ := Option.map_eq_some_iff.1 hsome
    cases hpair
    exact ⟨p, List.mem_zipIdx_iff_getElem?.1 hmem, hd'⟩
  · rintro ⟨p, hp, hd⟩
    exact ⟨(p, i), List.mem_zipIdx_iff_getElem?.2 hp, by simp [hd]⟩

theorem lt_arity_of_mem_optionals {c : Clause} {e : Nat × Term} (he : e ∈ c.optionals) :
    e.1 < c.arity := by
  obtain ⟨p, hp, -⟩ := mem_optionals.1 he
  exact (List.getElem?_eq_some_iff.1 hp).1

/-- The optionals come in ascending order of position. -/
theorem optionals_ascending (c : Clause) : (c.optionals.map Prod.fst).Pairwise (· < ·) := by
  -- the positions of all the parameters ascend, and the optionals keep some of them
  have hpos : c.params.zipIdx.Pairwise (fun a b => a.2 < b.2) := by
    have h : (List.range' 0 c.params.length).Pairwise (· < ·) := List.pairwise_lt_range'
    rw [← List.zipIdx_map_snd, List.pairwise_map] at h
    exact h
  unfold optionals
  rw [List.map_filterMap]
  refine List.pairwise_filterMap.2 (hpos.imp ?_)
  rintro ⟨p, i⟩ ⟨q, j⟩ hij b hb b' hb'
  simp only [Option.map_map, Function.comp_def, Option.map_eq_some_iff] at hb hb'
  obtain ⟨-, -, rfl⟩ := hb
  obtain ⟨-, -, rfl⟩ := hb'
  exact hij

/-- The optionals whose defaults a call of `n` arguments gets: the last `arity - n`. -/
def usedOptionals (c : Clause) (n : Nat) : List (Nat × Term) :=
  c.optionals.drop (c.optionals.length - (c.arity - n))

theorem length_usedOptionals {c : Clause} {n : Nat} (hmin : c.minArity ≤ n) :
    (c.usedOptionals n).length = c.arity - n := by
  unfold usedOptionals minArity at *
  rw [List.length_drop]
  omega

/-- The defaults a call takes can be inserted into its arguments one after another. -/
theorem insertable_usedOptionals {c : Clause} {args : List Term} (hmin : c.minArity ≤ args.length)
    (hmax : args.length ≤ c.arity) : Insertable (c.usedOptionals args.length) args.length where
  ascending := by
    unfold usedOptionals
    rw [List.map_drop]
    exact c.optionals_ascending.sublist (List.drop_sublist _ _)
  lt_length := fun e he => by
    rw [length_usedOptionals hmin]
    have := lt_arity_of_mem_optionals (List.mem_of_mem_drop he)
    omega

theorem fillDefaults_eq_insertAll {c : Clause} {args : List Term}
    (hmin : c.minArity ≤ args.length) :
    c.fillDefaults args = insertAll (c.usedOptionals args.length) args := by
  dsimp only [fillDefaults, usedOptionals]
  unfold minArity at hmin
  split
  · rename_i hshort
    -- a call of full arity uses no default
    have hfull : c.arity - args.length = 0 := by omega
    rw [hfull, Nat.sub_zero, List.drop_length]
    rfl
  · rfl

/-- **Optional parameters are filled from the right.** A call of a clause with at least as many
arguments as the clause's parameters without a default, and at most as many as it has
parameters, gets the defaults of its last `arity - n` optionals: they are inserted one after
another, each at most at the end of the list built so far; the result has the clause's arity,
holds each of these defaults at its parameter's position, and holds the arguments, in order, at
the other positions. A call of full arity keeps its arguments. -/
theorem fillDefaults_spec (c : Clause) (args : List Term) (hmin : c.minArity ≤ args.length)
    (hmax : args.length ≤ c.arity) :
    c.fillDefaults args = insertAll (c.usedOptionals args.length) args ∧
      (∀ k (hk : k < (c.usedOptionals args.length).length),
        (c.usedOptionals args.length)[k].1 ≤
          (insertAll ((c.usedOptionals args.length).take k) args).length) ∧
      (c.fillDefaults args).length = c.arity ∧
      (∀ i d, (i, d) ∈ c.usedOptionals args.length →
        (∃ p, c.params[i]? = some p ∧ p.default? = some d) ∧ (c.fillDefaults args)[i]? = some d) ∧
      withoutPositions ((c.usedOptionals args.length).map Prod.fst) (c.fillDefaults args) = args ∧
      (args.length = c.arity → c.fillDefaults args = args) := by
  have hins := insertable_usedOptionals hmin hmax
  have hfill := fillDefaults_eq_insertAll hmin
  have hused := length_usedOptionals hmin
  refine ⟨hfill, ?inRange, ?length, ?defaults, ?others, ?full⟩
  case inRange =>
    intro k hk
    rw [length_insertAll, List.length_take, Nat.min_eq_left (Nat.le_of_lt hk)]
    exact hins.getElem_le k hk
  case length =>
    rw [hfill, length_insertAll, hused]
    omega
  case defaults =>
    intro i d hmem
    refine ⟨mem_optionals.1 (List.mem_of_mem_drop hmem), ?_⟩
    rw [hfill]
    exact getElem?_insertAll hins (i, d) hmem
  case others =>
    rw [hfill]
    exact withoutPositions_insertAll hins
  case full =>
    intro hn
    have hnone : c.usedOptionals args.length = [] := by
      rw [← List.length_eq_zero_iff, hused, hn, Nat.sub_self]
    rw [hfill, hnone]
    rfl

/-- A clause of one plain parameter and two optionals, defaulting to 10 and 20. -/
def twoTrailingOptionals : Clause where
  params := [.var (some "a") false none, .var (some "b") false (some (.int 10)),
    .var (some "c") false (some (.int 20))]
  body := fun vs => .ok (.list vs)

/-- Called with its plain argument only, the clause gets both defaults, after the argument. -/
theorem fillDefaults_spec_twoTrailingOptionals :
    twoTrailingOptionals.minArity ≤ [Term.int 1].length ∧
      [Term.int 1].length ≤ twoTrailingOptionals.arity ∧
      (twoTrailingOptionals.fillDefaults [.int 1])[1]? = some (.int 10) ∧
      (twoTrailingOptionals.fillDefaults [.int 1])[2]? = some (.int 20) ∧
      withoutPositions [1, 2] (twoTrailingOptionals.fillDefaults [.int 1]) = [.int 1] := by
  have hmin : twoTrailingOptionals.minArity ≤ [Term.int 1].length := by decide
  have hmax : [Term.int 1].length ≤ twoTrailingOptionals.arity := by decide
  obtain ⟨-, -, -, hdefaults, hothers, -⟩ :=
    fillDefaults_spec twoTrailingOptionals [.int 1] hmin hmax
  have hused : twoTrailingOptionals.usedOptionals [Term.int 1].length =
      [(1, .int 10), (2, .int 20)] := rfl
  rw [hused] at hdefaults hothers
  exact ⟨hmin, hmax, (hdefaults 1 (.int 10) (by simp)).2, (hdefaults 2 (.int 20) (by simp)).2,
    hothers⟩

end Clause

end ActorCore
