import Mathlib
import ActorCore.Dispatch

/-!
# Arity buckets agree with a scan of every clause

`defmatch` indexes the clauses of a function once: two nested loops add each clause's position to
the bucket of every arity it accepts. A call then tries only the bucket of its number of
arguments. This module shows that the index loses nothing: the bucket of `n` holds exactly the
positions of the clauses that accept `n`, in declaration order, and there is a bucket exactly
when some clause accepts `n`. A call therefore resolves to what a scan of every clause in order
would find.

* `lookup_pushBucket`, `lookup_pushArities`, `lookup_foldBuckets` — one bucket operation, the loop
  over a clause's arities, and the loop over the clauses, each seen through `List.lookup`.
* `lookup_defmatch` — the bucket of `n` is the positions of the clauses that accept `n`.
* `firstSelected_eq_ok_some`, `firstSelected_eq_ok_none` — trying the positions of a sorted
  bucket in order finds the first clause that selects the arguments.
* `arities_defmatch` — the arities are ascending, without repeats, and are the numbers some
  clause accepts.

Principal result: `ClauseFunction.resolve_agrees_with_scan`.
-/

namespace ActorCore

/-! ## The bucket index -/

section Buckets

variable {n : Nat}

theorem lookup_pushBucket (bs : List (Nat × List (Fin n))) (k k' : Nat) (i : Fin n) :
    (pushBucket bs k i).lookup k' =
      if k' = k then some ((bs.lookup k).getD [] ++ [i]) else bs.lookup k' := by
  induction bs with
  | nil =>
    by_cases h : k' = k
    · simp [pushBucket, List.lookup, h]
    · have hb : (k' == k) = false := by simpa using h
      simp [pushBucket, List.lookup, h, hb]
  | cons e rest ih =>
    obtain ⟨a, is⟩ := e
    by_cases ha : a = k
    · subst ha
      by_cases h : k' = a
      · simp [pushBucket, List.lookup, h]
      · have hb : (k' == a) = false := by simpa using h
        simp [pushBucket, List.lookup, h, hb]
    · by_cases h : k' = k
      · subst h
        have hne : (k' == a) = false := by simpa using fun e => ha e.symm
        simp [pushBucket, List.lookup, ha, hne, ih]
      · simp only [pushBucket, ha, if_false, List.lookup, ih, h]

/-- The loop over the arities of one clause adds its position to the bucket of each of them. -/
theorem lookup_pushArities (arities : List Nat) (hnodup : arities.Nodup)
    (bs : List (Nat × List (Fin n))) (i : Fin n) (k : Nat) :
    (arities.foldl (fun bs a => pushBucket bs a i) bs).lookup k =
      if k ∈ arities then some ((bs.lookup k).getD [] ++ [i]) else bs.lookup k := by
  induction arities generalizing bs with
  | nil => simp
  | cons a rest ih =>
    obtain ⟨ha, hrest⟩ := List.nodup_cons.mp hnodup
    rw [List.foldl_cons, ih hrest, lookup_pushBucket]
    by_cases hk : k ∈ rest
    · have hka : k ≠ a := fun e => ha (e ▸ hk)
      simp [hk, hka]
    · by_cases hka : k = a <;> simp [hk, hka, ha]

/-- The arities a clause accepts, as the loop of `defmatch` enumerates them. -/
theorem mem_arityRange (c : Clause) (k : Nat) :
    k ∈ List.range' c.minArity (c.arity + 1 - c.minArity) ↔ c.accepts k = true := by
  have : c.minArity ≤ c.arity := Nat.sub_le _ _
  simp only [List.mem_range', Clause.accepts, Bool.and_eq_true, decide_eq_true_eq]
  constructor
  · rintro ⟨j, hj, rfl⟩
    omega
  · rintro ⟨hlo, hhi⟩
    exact ⟨k - c.minArity, by omega, by omega⟩

/-- The loop over the clauses: each position goes, in order, into the buckets of the arities its
clause accepts. -/
theorem lookup_foldBuckets (cs : List Clause) (positions : List (Fin cs.length))
    (bs : List (Nat × List (Fin cs.length))) (k : Nat) :
    (positions.foldl (fun bs i =>
        (List.range' (cs.get i).minArity ((cs.get i).arity + 1 - (cs.get i).minArity)).foldl
          (fun bs a => pushBucket bs a i) bs) bs).lookup k =
      if positions.any (fun i => (cs.get i).accepts k) then
        some ((bs.lookup k).getD [] ++ positions.filter (fun i => (cs.get i).accepts k))
      else bs.lookup k := by
  induction positions generalizing bs with
  | nil => simp
  | cons i rest ih =>
    rw [List.foldl_cons, ih, lookup_pushArities _ List.nodup_range']
    simp only [mem_arityRange, List.any_cons, List.filter_cons]
    have hnil : rest.any (fun i => (cs.get i).accepts k) = false →
        rest.filter (fun i => (cs.get i).accepts k) = [] := by
      intro h
      rw [List.filter_eq_nil_iff]
      intro j hj
      simpa using List.any_eq_false.mp h j hj
    cases hi : (cs.get i).accepts k <;> cases hrest : rest.any (fun i => (cs.get i).accepts k)
    case true.false => rw [hnil hrest]; simp
    all_goals simp

/-- **The bucket of an arity holds the positions of exactly the clauses that accept it, in
declaration order**, and it exists exactly when one does. -/
theorem lookup_defmatch (cs : List Clause) (k : Nat) :
    (defmatch cs).buckets.lookup k =
      if (List.finRange (defmatch cs).clauses.length).any
          (fun i => ((defmatch cs).clauses.get i).accepts k) then
        some ((List.finRange (defmatch cs).clauses.length).filter
          (fun i => ((defmatch cs).clauses.get i).accepts k))
      else none := by
  simp only [defmatch]
  rw [lookup_foldBuckets]
  simp

/-- A position is in the bucket of `k` exactly when its clause accepts `k`. -/
theorem mem_accepting {cs : List Clause} {k : Nat} {j : Fin cs.length} :
    j ∈ (List.finRange cs.length).filter (fun i => (cs.get i).accepts k) ↔
      (cs.get j).accepts k = true := by
  simp [List.mem_finRange]

theorem pairwise_accepting (cs : List Clause) (k : Nat) :
    ((List.finRange cs.length).filter (fun i => (cs.get i).accepts k)).Pairwise (· < ·) :=
  (List.pairwise_lt_finRange _).filter _

theorem any_accepting_iff (cs : List Clause) (k : Nat) :
    (List.finRange cs.length).any (fun i => (cs.get i).accepts k) = true ↔
      ∃ c ∈ cs, c.accepts k = true := by
  simp only [List.any_eq_true, List.mem_finRange, true_and]
  constructor
  · rintro ⟨i, hi⟩
    exact ⟨cs.get i, List.get_mem cs i, hi⟩
  · rintro ⟨c, hc, hacc⟩
    obtain ⟨i, rfl⟩ := List.get_of_mem hc
    exact ⟨i, hacc⟩

/-! ### The keys of the index -/

theorem mem_keys_iff_isSome_lookup (bs : List (Nat × List (Fin n))) (k : Nat) :
    k ∈ bs.map Prod.fst ↔ (bs.lookup k).isSome := by
  induction bs with
  | nil => simp
  | cons e rest ih =>
    obtain ⟨a, is⟩ := e
    by_cases h : k = a
    · simp [List.lookup, h]
    · have hb : (k == a) = false := by simpa using h
      simp [List.lookup, h, hb, ih]

theorem nodup_keys_pushBucket (bs : List (Nat × List (Fin n))) (k : Nat) (i : Fin n)
    (h : (bs.map Prod.fst).Nodup) : ((pushBucket bs k i).map Prod.fst).Nodup := by
  induction bs with
  | nil => simp [pushBucket]
  | cons e rest ih =>
    obtain ⟨a, is⟩ := e
    obtain ⟨ha, hrest⟩ := List.nodup_cons.mp h
    by_cases hak : a = k
    · simpa [pushBucket, hak] using h
    · simp only [pushBucket, hak, if_false, List.map_cons]
      refine List.nodup_cons.mpr ⟨?_, ih hrest⟩
      rw [mem_keys_iff_isSome_lookup, lookup_pushBucket]
      have hak' : a ≠ k := hak
      simpa [hak', ← mem_keys_iff_isSome_lookup] using ha

/-- Every arity has one bucket at most. -/
theorem nodup_keys_defmatch (cs : List Clause) : ((defmatch cs).buckets.map Prod.fst).Nodup := by
  have step : ∀ (bs : List (Nat × List (Fin cs.length))) (i : Fin cs.length) (arities : List Nat),
      (bs.map Prod.fst).Nodup →
        ((arities.foldl (fun bs a => pushBucket bs a i) bs).map Prod.fst).Nodup := by
    intro bs i arities
    induction arities generalizing bs with
    | nil => exact id
    | cons a rest ih => exact fun h => ih _ (nodup_keys_pushBucket bs a i h)
  have outer : ∀ (positions : List (Fin cs.length)) (bs : List (Nat × List (Fin cs.length))),
      (bs.map Prod.fst).Nodup →
        ((positions.foldl (fun bs i =>
          (List.range' (cs.get i).minArity ((cs.get i).arity + 1 - (cs.get i).minArity)).foldl
            (fun bs a => pushBucket bs a i) bs) bs).map Prod.fst).Nodup := by
    intro positions
    induction positions with
    | nil => exact fun _ => id
    | cons i rest ih => exact fun bs h => ih _ (step bs i _ h)
  exact outer _ [] List.nodup_nil

/-- **The arities are ascending, without repeats, and are the numbers of arguments some clause
accepts.** -/
theorem arities_defmatch (cs : List Clause) :
    (defmatch cs).arities.Pairwise (· < ·) ∧
      ∀ k, k ∈ (defmatch cs).arities ↔ ∃ c ∈ cs, c.accepts k = true := by
  have hsorted : (defmatch cs).arities.Pairwise (fun a b => decide (a ≤ b) = true) :=
    List.pairwise_mergeSort
      (fun a b c hab hbc => by simp only [decide_eq_true_eq] at *; omega)
      (fun a b => by simp only [Bool.or_eq_true, decide_eq_true_eq]; omega) _
  have hnodup : (defmatch cs).arities.Nodup :=
    (nodup_keys_defmatch cs).perm (List.mergeSort_perm _ _).symm
  refine ⟨?_, fun k => ?_⟩
  · refine (hsorted.and hnodup).imp ?_
    rintro a b ⟨hle, hne⟩
    simp only [decide_eq_true_eq] at hle
    omega
  · -- the clauses of `defmatch cs` are `cs`, which the bucket lemmas index by
    show _ ↔ ∃ c ∈ (defmatch cs).clauses, c.accepts k = true
    rw [ClauseFunction.arities, List.mem_mergeSort, mem_keys_iff_isSome_lookup, lookup_defmatch,
      ← any_accepting_iff]
    by_cases hany : (List.finRange (defmatch cs).clauses.length).any
        (fun i => ((defmatch cs).clauses.get i).accepts k) = true
    · rw [if_pos hany]
      exact ⟨fun _ => hany, fun _ => rfl⟩
    · rw [if_neg hany]
      exact ⟨(fun h => nomatch h), fun h => absurd h hany⟩

end Buckets

/-! ## Trying a bucket in order -/

section First

variable (f : ClauseFunction) (args : List Term)

theorem firstSelected_eq_ok_none (l : List (Fin f.clauses.length)) :
    f.firstSelected args l = .ok none ↔
      ∀ j ∈ l, (f.clauses.get j).select ((f.clauses.get j).fillDefaults args) = .ok none := by
  induction l with
  | nil => simp [ClauseFunction.firstSelected, pure, Except.pure]
  | cons j rest ih =>
    simp only [ClauseFunction.firstSelected, List.forall_mem_cons]
    cases h : (f.clauses.get j).select ((f.clauses.get j).fillDefaults args) with
    | error p =>
      constructor
      · intro hc; cases hc
      · rintro ⟨hc, -⟩; cases hc
    | ok r =>
      cases r with
      | none =>
        rw [ih]
        exact ⟨fun hrest => ⟨rfl, hrest⟩, fun hall => hall.2⟩
      | some vs =>
        constructor
        · intro hc; cases hc
        · rintro ⟨hc, -⟩; cases hc

theorem firstSelected_eq_error {l : List (Fin f.clauses.length)} {e : Fault}
    (h : f.firstSelected args l = .error e) : ∃ p, e = .panic p := by
  induction l with
  | nil => simp [ClauseFunction.firstSelected, pure, Except.pure] at h
  | cons j rest ih =>
    simp only [ClauseFunction.firstSelected] at h
    cases hs : (f.clauses.get j).select ((f.clauses.get j).fillDefaults args) with
    | error p =>
      rw [hs] at h
      exact ⟨p, (Except.error.inj h).symm⟩
    | ok r =>
      cases r with
      | none => rw [hs] at h; exact ih h
      | some vs => rw [hs] at h; cases h

/-- In a bucket sorted by position, the clause found is the first that selects the arguments:
every position before it is tried and selects nothing. -/
theorem firstSelected_eq_ok_some {l : List (Fin f.clauses.length)} (hl : l.Pairwise (· < ·))
    {i : Nat} {c : Clause} {vs : List Term} :
    f.firstSelected args l = .ok (some (i, c, vs)) ↔
      ∃ j ∈ l, j.val = i ∧ f.clauses.get j = c ∧
        (f.clauses.get j).select ((f.clauses.get j).fillDefaults args) = .ok (some vs) ∧
        ∀ j' ∈ l, j' < j →
          (f.clauses.get j').select ((f.clauses.get j').fillDefaults args) = .ok none := by
  induction l with
  | nil => simp [ClauseFunction.firstSelected, pure, Except.pure]
  | cons j rest ih =>
    obtain ⟨hj, hrest⟩ := List.pairwise_cons.mp hl
    simp only [ClauseFunction.firstSelected]
    cases h : (f.clauses.get j).select ((f.clauses.get j).fillDefaults args) with
    | error p =>
      -- neither `j` itself nor a later position can be the one found
      refine ⟨(fun hc => by cases hc), ?_⟩
      rintro ⟨j0, hj0, -, -, hsel, hbefore⟩
      rcases List.mem_cons.mp hj0 with rfl | hin
      · rw [h] at hsel; cases hsel
      · have := hbefore j (List.mem_cons_self ..) (hj j0 hin)
        rw [h] at this; cases this
    | ok r =>
      cases r with
      | none =>
        rw [ih hrest]
        constructor
        · rintro ⟨j0, hin, hval, hget, hsel, hbefore⟩
          refine ⟨j0, List.mem_cons_of_mem _ hin, hval, hget, hsel, fun j' hj' hlt => ?_⟩
          rcases List.mem_cons.mp hj' with rfl | hin'
          · exact h
          · exact hbefore j' hin' hlt
        · rintro ⟨j0, hj0, hval, hget, hsel, hbefore⟩
          rcases List.mem_cons.mp hj0 with rfl | hin
          · rw [h] at hsel; cases hsel
          · exact ⟨j0, hin, hval, hget, hsel,
              fun j' hj' hlt => hbefore j' (List.mem_cons_of_mem _ hj') hlt⟩
      | some found =>
        simp only [pure, Except.pure, Except.ok.injEq, Option.some.injEq, Prod.mk.injEq]
        constructor
        · rintro ⟨rfl, rfl, rfl⟩
          refine ⟨j, List.mem_cons_self .., rfl, rfl, h, fun j' hj' hlt => ?_⟩
          rcases List.mem_cons.mp hj' with rfl | hin
          · exact absurd hlt (Nat.lt_irrefl _)
          · exact absurd (hj j' hin) (Fin.lt_asymm hlt)
        · rintro ⟨j0, hj0, hval, hget, hsel, hbefore⟩
          rcases List.mem_cons.mp hj0 with rfl | hin
          · rw [h] at hsel
            cases hsel
            exact ⟨hval, hget, rfl⟩
          · have := hbefore j (List.mem_cons_self ..) (hj j0 hin)
            rw [h] at this; cases this

end First

/-! ## Resolving a call -/

namespace ClauseFunction

section Resolve

variable (cs : List Clause) (args : List Term)

/-- The clause found in the bucket of a call, named by its position in the clause list. -/
theorem firstSelected_accepting_eq_ok_some {i : Nat} {c : Clause} {vs : List Term} :
    (defmatch cs).firstSelected args
        ((List.finRange (defmatch cs).clauses.length).filter
          (fun j => ((defmatch cs).clauses.get j).accepts args.length)) =
      .ok (some (i, c, vs)) ↔
      cs[i]? = some c ∧ c.accepts args.length = true ∧
        c.select (c.fillDefaults args) = .ok (some vs) ∧
        ∀ j c', j < i → cs[j]? = some c' → c'.accepts args.length = true →
          c'.select (c'.fillDefaults args) = .ok none := by
  rw [firstSelected_eq_ok_some _ _ (pairwise_accepting (defmatch cs).clauses _)]
  constructor
  · rintro ⟨j, hj, rfl, rfl, hsel, hbefore⟩
    refine ⟨List.getElem?_eq_some_iff.mpr ⟨j.isLt, rfl⟩, mem_accepting.mp hj, hsel,
      fun j' c' hlt hget hacc => ?_⟩
    obtain ⟨hj', rfl⟩ := List.getElem?_eq_some_iff.mp hget
    exact hbefore ⟨j', hj'⟩ (mem_accepting.mpr hacc) hlt
  · rintro ⟨hget, hacc, hsel, hbefore⟩
    obtain ⟨hi, rfl⟩ := List.getElem?_eq_some_iff.mp hget
    refine ⟨⟨i, hi⟩, mem_accepting.mpr hacc, rfl, rfl, hsel, fun j' hj' hlt => ?_⟩
    exact hbefore j'.val _ hlt (List.getElem?_eq_some_iff.mpr ⟨j'.isLt, rfl⟩) (mem_accepting.mp hj')

/-- No clause of the bucket of a call selects the arguments. -/
theorem firstSelected_accepting_eq_ok_none :
    (defmatch cs).firstSelected args
        ((List.finRange (defmatch cs).clauses.length).filter
          (fun j => ((defmatch cs).clauses.get j).accepts args.length)) = .ok none ↔
      ∀ c ∈ cs, c.accepts args.length = true → c.select (c.fillDefaults args) = .ok none := by
  rw [firstSelected_eq_ok_none]
  constructor
  · intro h c hc hacc
    obtain ⟨j, rfl⟩ := List.get_of_mem hc
    exact h j (mem_accepting.mpr hacc)
  · intro h j hj
    exact h _ (List.get_mem cs j) (mem_accepting.mp hj)

/-- Without a bucket a call is an arity error; with one, it is the first clause of the bucket
that selects the arguments, or a function-clause error when there is none. -/
theorem resolveClause_defmatch :
    (defmatch cs).resolveClause args =
      if (List.finRange (defmatch cs).clauses.length).any
          (fun i => ((defmatch cs).clauses.get i).accepts args.length) then
        match (defmatch cs).firstSelected args
            ((List.finRange (defmatch cs).clauses.length).filter
          (fun i => ((defmatch cs).clauses.get i).accepts args.length)) with
        | .ok (some found) => .ok found
        | .ok none => .error (.error (.functionClause args))
        | .error e => .error e
      else .error (.error (.arity args.length)) := by
  unfold resolveClause
  rw [lookup_defmatch]
  by_cases hany : (List.finRange (defmatch cs).clauses.length).any
          (fun i => ((defmatch cs).clauses.get i).accepts args.length) = true
  · rw [if_pos hany, if_pos hany]
    cases hfs : (defmatch cs).firstSelected args
        ((List.finRange (defmatch cs).clauses.length).filter
          (fun i => ((defmatch cs).clauses.get i).accepts args.length)) with
    | error e => simp only [hfs]; rfl
    | ok r => cases r <;> simp only [hfs] <;> rfl
  · rw [if_neg hany, if_neg hany]
    rfl

theorem resolve_eq_arity_iff :
    (defmatch cs).resolve args = .error (.error (.arity args.length)) ↔
      ∀ c ∈ cs, c.accepts args.length = false := by
  show _ ↔ ∀ c ∈ (defmatch cs).clauses, c.accepts args.length = false
  have hnone : (∀ c ∈ (defmatch cs).clauses, c.accepts args.length = false) ↔
      ¬ (List.finRange (defmatch cs).clauses.length).any
          (fun i => ((defmatch cs).clauses.get i).accepts args.length) = true := by
    rw [any_accepting_iff]
    simp
  rw [hnone, resolve, resolveClause_defmatch]
  split
  · rename_i hany
    simp only [hany, not_true_eq_false, iff_false]
    cases hfs : (defmatch cs).firstSelected args
        ((List.finRange (defmatch cs).clauses.length).filter
          (fun i => ((defmatch cs).clauses.get i).accepts args.length)) with
    | error e =>
      obtain ⟨p, rfl⟩ := firstSelected_eq_error _ _ hfs
      simp [Except.map]
    | ok r => cases r <;> simp [Except.map]
  · rename_i hany
    exact iff_of_true rfl hany

theorem resolveClause_eq_ok_iff {i : Nat} {c : Clause} {vs : List Term} :
    (defmatch cs).resolveClause args = .ok (i, c, vs) ↔
      cs[i]? = some c ∧ c.accepts args.length = true ∧
        c.select (c.fillDefaults args) = .ok (some vs) ∧
        ∀ j c', j < i → cs[j]? = some c' → c'.accepts args.length = true →
          c'.select (c'.fillDefaults args) = .ok none := by
  rw [resolveClause_defmatch]
  split
  · rw [← firstSelected_accepting_eq_ok_some]
    cases (defmatch cs).firstSelected args
        ((List.finRange (defmatch cs).clauses.length).filter
          (fun i => ((defmatch cs).clauses.get i).accepts args.length)) with
    | error e => simp
    | ok r => cases r <;> simp
  · rename_i hany
    simp only [reduceCtorEq, false_iff, not_and]
    intro hget hacc
    exact absurd ((any_accepting_iff (defmatch cs).clauses _).mpr ⟨c, List.mem_of_getElem? hget, hacc⟩) hany

theorem resolve_eq_functionClause_iff :
    (defmatch cs).resolve args = .error (.error (.functionClause args)) ↔
      (∃ c ∈ cs, c.accepts args.length = true) ∧
        ∀ c ∈ cs, c.accepts args.length = true → c.select (c.fillDefaults args) = .ok none := by
  rw [← any_accepting_iff, ← firstSelected_accepting_eq_ok_none, resolve, resolveClause_defmatch]
  split
  · rename_i hany
    have hany' : (List.finRange cs.length).any (fun i => (cs.get i).accepts args.length) = true :=
      hany
    simp only [hany', true_and]
    cases hfs : (defmatch cs).firstSelected args
        ((List.finRange (defmatch cs).clauses.length).filter
          (fun i => ((defmatch cs).clauses.get i).accepts args.length)) with
    | error e =>
      obtain ⟨p, rfl⟩ := firstSelected_eq_error _ _ hfs
      simp [Except.map]
    | ok r => cases r <;> simp [Except.map]
  · rename_i hany
    exact iff_of_false (by simp [Except.map]) (fun h => hany h.1)

theorem call_of_resolve_ok {i : Nat} {vs : List Term} {c : Clause}
    (hres : (defmatch cs).resolve args = .ok (i, vs)) (hget : cs[i]? = some c) :
    (defmatch cs).call args = c.invoke vs := by
  cases hrc : (defmatch cs).resolveClause args with
  | error e => simp [resolve, hrc, Except.map] at hres
  | ok found =>
    obtain ⟨i', c', vs'⟩ := found
    simp only [resolve, hrc, Except.map, Except.ok.injEq, Prod.mk.injEq] at hres
    obtain ⟨rfl, rfl⟩ := hres
    obtain ⟨hget', -⟩ := (resolveClause_eq_ok_iff cs args).mp hrc
    rw [hget] at hget'
    cases hget'
    simp [call, hrc, bind, Except.bind]

theorem call_of_resolve_error {e : Fault} (hres : (defmatch cs).resolve args = .error e) :
    (defmatch cs).call args = .error e := by
  cases hrc : (defmatch cs).resolveClause args with
  | error e' =>
    simp only [resolve, hrc, Except.map, Except.error.injEq] at hres
    subst hres
    simp [call, hrc, bind, Except.bind]
  | ok found => simp [resolve, hrc, Except.map] at hres

end Resolve

/-- **The arity-bucketed dispatcher agrees with a scan of every clause in declaration order.** A
call is an arity error exactly when no clause accepts its number of arguments; it resolves to
position `i` and values `vs` exactly when clause `i` is the first accepting clause whose patterns
and guard select the arguments (every accepting clause before it selects nothing), and it is a
function-clause error exactly when some clause accepts the number of arguments and none of them
selects. The call runs the body of the clause it resolves to, or fails as resolution does, and the
arities are the numbers some clause accepts, ascending and without repeats. -/
theorem resolve_agrees_with_scan (cs : List Clause) (args : List Term) :
    ((defmatch cs).resolve args = .error (.error (.arity args.length)) ↔
        ∀ c ∈ cs, c.accepts args.length = false) ∧
    (∀ i vs, (defmatch cs).resolve args = .ok (i, vs) ↔
        ∃ c, cs[i]? = some c ∧ c.accepts args.length = true ∧
          c.select (c.fillDefaults args) = .ok (some vs) ∧
          ∀ j c', j < i → cs[j]? = some c' → c'.accepts args.length = true →
            c'.select (c'.fillDefaults args) = .ok none) ∧
    ((defmatch cs).resolve args = .error (.error (.functionClause args)) ↔
        (∃ c ∈ cs, c.accepts args.length = true) ∧
          ∀ c ∈ cs, c.accepts args.length = true → c.select (c.fillDefaults args) = .ok none) ∧
    (∀ i vs c, (defmatch cs).resolve args = .ok (i, vs) → cs[i]? = some c →
        (defmatch cs).call args = c.invoke vs) ∧
    (∀ e, (defmatch cs).resolve args = .error e → (defmatch cs).call args = .error e) ∧
    (defmatch cs).arities.Pairwise (· < ·) ∧
    ∀ k, k ∈ (defmatch cs).arities ↔ ∃ c ∈ cs, c.accepts k = true := by
  refine ⟨resolve_eq_arity_iff cs args, fun i vs => ?_, resolve_eq_functionClause_iff cs args,
    fun i vs c => call_of_resolve_ok cs args, fun e => call_of_resolve_error cs args,
    (arities_defmatch cs).1, (arities_defmatch cs).2⟩
  constructor
  · intro hres
    cases hrc : (defmatch cs).resolveClause args with
    | error e => simp [resolve, hrc, Except.map] at hres
    | ok found =>
      obtain ⟨i', c, vs'⟩ := found
      simp only [resolve, hrc, Except.map, Except.ok.injEq, Prod.mk.injEq] at hres
      obtain ⟨rfl, rfl⟩ := hres
      exact ⟨c, (resolveClause_eq_ok_iff cs args).mp hrc⟩
  · rintro ⟨c, hc⟩
    simp [resolve, (resolveClause_eq_ok_iff cs args).mpr hc, Except.map]

end ClauseFunction

end ActorCore
