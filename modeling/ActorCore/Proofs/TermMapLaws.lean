import ActorCore.Proofs.StrictEquality
import ActorCore.Proofs.Frame

/-!
# Term maps are finite maps under strict equality

A term map keeps its entries in insertion order and looks a key up by scanning for the first key
strictly equal to it. On built maps and keys it behaves as a finite map whose keys are compared
by strict equality: a lookup after an insertion finds the new value exactly under the keys equal
to the inserted one and what it found before under the others (`TermMap.get?_insert`), a lookup
after a removal finds nothing under the keys equal to the removed one (`TermMap.get?_erase`),
and an insertion grows the map by one entry exactly when the key was not found
(`TermMap.length_insert`). The order in which pairs with distinct keys are inserted does not
matter to strict equality (`TermMap.beq_ofList_perm`).

Insertion needs only that strict equality be symmetric and transitive on the keys involved.
Removal also needs the map's keys to be distinct: it drops the first entry of an equal key, and a
second one would still be found.

A process keeps its dictionary and its flags in term maps, and its requests act on them through
these operations: a `put` answers with what a `get` of its key answered before, and a later `get`
sees the law of insertion; an `erase` likewise; setting a flag answers with its value before.

Principal result: `TermMap.finite_map_laws`.
-/

namespace ActorCore

namespace Term

theorem Built.reached {m : TermMap} (h : (map m).Built) : m.Reached :=
  h.self m rfl

theorem Built.keys_distinctKeys {m : TermMap} (h : (map m).Built) :
    ∀ e ∈ m, e.1.DistinctKeys := fun e he => Built.distinctKeys (h.entries rfl e he).1

theorem distinctKeys_atom (n : String) : (atom n).DistinctKeys :=
  .intro (fun _ h => by cases h) (fun _ hc => by cases hc)

end Term

namespace TermMap

variable {P : Term → Prop} {m : TermMap} {k k' v : Term}

/-- A lookup after an insertion: the inserted value under the keys equal to the inserted key, and
what the map held before under the others. -/
theorem get?_insert (hP : Term.PartialEquivOn P) (hm : ∀ e ∈ m, P e.1) (hk : P k) (hk' : P k') :
    (m.insert k v).get? k' = if k'.beq k then some v else m.get? k' := by
  induction m with
  | nil => simp [insert, get?_cons, hP.beq_comm hk hk']
  | cons e m ih =>
    obtain ⟨k₀, v₀⟩ := e
    have hk₀ : P k₀ := hm _ List.mem_cons_self
    have ih := ih fun e he => hm e (List.mem_cons_of_mem _ he)
    by_cases h₀ : k₀.beq k = true
    · -- the value of `k₀` is replaced, and `k₀` is equal to `k'` exactly when `k` is
      have hsame : k₀.beq k' = k'.beq k := by
        rw [hP.beq_comm hk₀ hk', hP.beq_congr hk' hk₀ hk h₀]
      simp only [insert, h₀, if_true, get?_cons, hsame]
      cases k'.beq k <;> rfl
    · simp only [insert, h₀, Bool.false_eq_true, if_false, get?_cons, ih]
      by_cases h : k'.beq k = true
      · -- `k'` is equal to `k`, which `k₀` is not
        have : k₀.beq k' = false := by rw [hP.beq_congr hk₀ hk' hk h]; simpa using h₀
        simp [h, this]
      · simp [h]

/-- A lookup after a removal: nothing under the keys equal to the removed key, and what the map
held before under the others, when the map's keys are distinct. -/
theorem get?_erase (hP : Term.PartialEquivOn P) (hm : ∀ e ∈ m, P e.1) (hd : m.KeysDistinct)
    (hk : P k) (hk' : P k') : (m.erase k).get? k' = if k'.beq k then none else m.get? k' := by
  induction m with
  | nil => simp [erase]
  | cons e m ih =>
    obtain ⟨k₀, v₀⟩ := e
    obtain ⟨hhead, hd⟩ := keysDistinct_cons.1 hd
    have hk₀ : P k₀ := hm _ List.mem_cons_self
    have ih := ih (fun e he => hm e (List.mem_cons_of_mem _ he)) hd
    by_cases h₀ : k₀.beq k = true
    · simp only [erase, h₀, if_true, get?_cons]
      by_cases h : k'.beq k = true
      · -- no later key is equal to `k'`: like `k₀`, it would be equal to `k`
        have hnone : get? m k' = none := by
          refine get?_eq_none_iff.2 fun a ha => ?_
          obtain ⟨e, he, rfl⟩ := List.mem_map.1 ha
          have he₁ : P e.1 := hm e (List.mem_cons_of_mem _ he)
          rw [hP.beq_congr he₁ hk' hk h, ← hP.beq_congr he₁ hk₀ hk h₀, hP.beq_comm he₁ hk₀]
          exact hhead e he
        simp [h, hnone]
      · have : k₀.beq k' = false := by
          rw [hP.beq_comm hk₀ hk', hP.beq_congr hk' hk₀ hk h₀]
          simpa using h
        simp [h, this]
    · simp only [erase, h₀, Bool.false_eq_true, if_false, get?_cons, ih]
      by_cases h : k'.beq k = true
      · have : k₀.beq k' = false := by rw [hP.beq_congr hk₀ hk' hk h]; simpa using h₀
        simp [h, this]
      · simp [h]

/-- Distinct keys stay distinct in any order, strict equality being symmetric on them. -/
theorem KeysDistinct.perm {p q : TermMap} (hpq : p.Perm q) (hkeys : ∀ e ∈ p, e.1.DistinctKeys)
    (hd : p.KeysDistinct) : q.KeysDistinct := by
  have hP := Term.partialEquivOn_distinctKeys
  -- unequal in both directions, which is a symmetric relation
  let R : Term → Term → Prop := fun a b => a.DistinctKeys → b.DistinctKeys → a.beq b = false
  have hR : ∀ {a b}, R a b → R b a := fun hab hb ha =>
    Bool.eq_false_iff.2 fun hba => by
      have h := hab ha hb
      rw [hP.symm hb ha hba] at h
      cases h
  have hkeys' : ∀ a ∈ p.keys, a.DistinctKeys := by
    intro a ha
    obtain ⟨e, he, rfl⟩ := List.mem_map.1 ha
    exact hkeys e he
  have hperm : p.keys.Perm q.keys := hpq.map _
  have hq : q.keys.Pairwise R := (hperm.pairwise_iff hR).1 (hd.imp fun h _ _ => h)
  exact hq.imp_of_mem fun ha hb h => h (hkeys' _ (hperm.mem_iff.2 ha)) (hkeys' _ (hperm.mem_iff.2 hb))

/-- Pairs with distinct keys, no NaN in the keys and values equal to themselves build strictly
equal maps in any order. -/
theorem beq_ofList_perm {p q : List (Term × Term)} (hpq : p.Perm q)
    (hpairs : ∀ e ∈ p, e.1.Built ∧ e.1.NanFree ∧ e.2.beq e.2 = true) (hd : KeysDistinct p) :
    (Term.map (ofList p)).beq (Term.map (ofList q)) = true := by
  have hkeys : ∀ e ∈ p, e.1.DistinctKeys := fun e he => (hpairs e he).1.distinctKeys
  have hq : KeysDistinct q := hd.perm hpq hkeys
  rw [ofList_of_keysDistinct hd, ofList_of_keysDistinct hq, Term.beq_map]
  refine ⟨hpq.length_eq, fun e he => ⟨e.2, ?_, (hpairs e he).2.2⟩⟩
  -- each key finds its own entry in the other order
  exact get?_of_mem Term.partialEquivOn_distinctKeys
    (fun f hf => hkeys f (hpq.mem_iff.2 hf)) (hkeys e he) hq (hpq.mem_iff.1 he)
    (Term.beq_self (hkeys e he) (hpairs e he).2.1)

end TermMap

namespace System

/-! ## The dictionary and the flags of a process -/

variable {s : System} {pid : Nat} {a : Actor}

theorem find?_with_dictionary (ha : s.find? pid = some a) (d : TermMap) :
    (s.update pid fun b => { b with dictionary := d }).find? pid = some { a with dictionary := d } := by
  have hf : ∀ b : Actor, b.pid = pid → ({ b with dictionary := d } : Actor).pid = pid :=
    fun _ h => h
  rw [find?_update hf, if_pos rfl, ha]
  rfl

theorem handle_put (ha : s.find? pid = some a) (k v : Term) :
    s.handle pid (.put k v) = (.reply (.term ((a.dictionary.get? k).getD .nil)),
      s.update pid fun b => { b with dictionary := a.dictionary.insert k v }) := by
  simp only [handle, withDictionary, ha, Option.bind_some, id]

theorem handle_get (ha : s.find? pid = some a) (k : Term) :
    (s.handle pid (.get k)).1 = .reply (.term ((a.dictionary.get? k).getD .nil)) := by
  simp only [handle, withDictionary, ha, Option.bind_some, id]

theorem handle_erase (ha : s.find? pid = some a) (k : Term) :
    s.handle pid (.erase k) = (.reply (.term ((a.dictionary.get? k).getD .nil)),
      s.update pid fun b => { b with dictionary := a.dictionary.erase k }) := by
  simp only [handle, withDictionary, ha, Option.bind_some, id]

theorem handle_getKeys (ha : s.find? pid = some a) :
    (s.handle pid .getKeys).1 = .reply (.terms a.dictionary.keys) := by
  simp only [handle, withDictionary, ha, Option.getD_some]

/-- Setting a flag other than `trap_exit` stores it in the flags under its atom and answers with
the value stored there before. -/
theorem handle_processFlag (ha : s.find? pid = some a) {f : String} (hf : f ≠ "trap_exit")
    (v : Term) :
    s.handle pid (.processFlag f v) = (.reply (.term ((a.flags.get? (.atom f)).getD .nil)),
      s.update pid fun _ => { a with flags := a.flags.insert (.atom f) v }) := by
  simp only [handle, processFlag, ha, Actor.setFlag, hf, if_false, Option.getD_some]

theorem find?_with_flags (ha : s.find? pid = some a) (fl : TermMap) :
    (s.update pid fun _ => { a with flags := fl }).find? pid = some { a with flags := fl } := by
  have hpid : a.pid = pid := Actors.pid_of_find? ha
  have hf : ∀ b : Actor, b.pid = pid → ({ a with flags := fl } : Actor).pid = pid :=
    fun _ _ => hpid
  rw [find?_update hf, if_pos rfl, ha]
  rfl

/-- A `get` after a `put` sees the law of insertion. -/
theorem get_after_put (ha : s.find? pid = some a) (hd : (Term.map a.dictionary).Built)
    {k k' : Term} (hk : k.Built) (hk' : k'.Built) (v : Term) :
    ((s.handle pid (.put k v)).2.handle pid (.get k')).1 =
      .reply (.term (if k'.beq k then v else (a.dictionary.get? k').getD .nil)) := by
  rw [handle_put ha, handle_get (find?_with_dictionary ha _),
    TermMap.get?_insert Term.partialEquivOn_distinctKeys hd.keys_distinctKeys hk.distinctKeys
      hk'.distinctKeys]
  split <;> rfl

/-- A `get` after an `erase` sees the law of removal. -/
theorem get_after_erase (ha : s.find? pid = some a) (hd : (Term.map a.dictionary).Built)
    {k k' : Term} (hk : k.Built) (hk' : k'.Built) :
    ((s.handle pid (.erase k)).2.handle pid (.get k')).1 =
      .reply (.term (if k'.beq k then .nil else (a.dictionary.get? k').getD .nil)) := by
  rw [handle_erase ha, handle_get (find?_with_dictionary ha _),
    TermMap.get?_erase Term.partialEquivOn_distinctKeys hd.keys_distinctKeys
      hd.reached.keysDistinct hk.distinctKeys hk'.distinctKeys]
  split <;> rfl

/-- The keys after a `put`: a key that was not found comes last. -/
theorem getKeys_after_put (ha : s.find? pid = some a) (k v : Term) :
    ((s.handle pid (.put k v)).2.handle pid .getKeys).1 = .reply (.terms
      (if (a.dictionary.get? k).isSome then a.dictionary.keys else a.dictionary.keys ++ [k])) := by
  rw [handle_put ha, handle_getKeys (find?_with_dictionary ha _), TermMap.keys_insert]

/-- Setting a flag after another answers with the first value when the names agree, and with the
flag's value before otherwise. -/
theorem processFlag_after_processFlag (ha : s.find? pid = some a) (hfl : (Term.map a.flags).Built)
    {f f' : String} (hf : f ≠ "trap_exit") (hf' : f' ≠ "trap_exit") (v w : Term) :
    ((s.handle pid (.processFlag f v)).2.handle pid (.processFlag f' w)).1 =
      .reply (.term (if f' = f then v else (a.flags.get? (.atom f')).getD .nil)) := by
  rw [handle_processFlag ha hf, handle_processFlag (find?_with_flags ha _) hf',
    TermMap.get?_insert Term.partialEquivOn_distinctKeys hfl.keys_distinctKeys
      (Term.distinctKeys_atom f) (Term.distinctKeys_atom f')]
  by_cases h : f' = f
  · simp [h, Term.beq]
  · simp [h, Term.beq]

end System

namespace TermMap

/-- **Term maps are finite maps under strict equality.** On maps reached from the empty map by
insertions and removals, with built keys: a lookup after an insertion finds the new value under
the keys equal to the inserted one and what was there before under the others; a lookup after a
removal finds nothing under the keys equal to the removed one; an insertion adds an entry exactly
when its key was not found; and pairs with distinct keys without NaNs, and values equal to
themselves, build equal maps in any order. A process's dictionary and flags follow these laws: a
`put` or an `erase` answers with what a `get` answered before, a later `get` or `get_keys` sees
the change, and setting a flag answers with its value before. -/
theorem finite_map_laws :
    (∀ (m : TermMap) (k k' v : Term), (Term.map m).Built → k.Built → k'.Built →
      (m.insert k v).get? k' = if k'.beq k then some v else m.get? k') ∧
    (∀ (m : TermMap) (k k' : Term), (Term.map m).Built → k.Built → k'.Built →
      (m.erase k).get? k' = if k'.beq k then none else m.get? k') ∧
    (∀ (m : TermMap) (k v : Term),
      (m.insert k v).length = m.length + if (m.get? k).isSome then 0 else 1) ∧
    (∀ p q : List (Term × Term), p.Perm q →
      (∀ e ∈ p, e.1.Built ∧ e.1.NanFree ∧ e.2.beq e.2 = true) → KeysDistinct p →
      (Term.map (ofList p)).beq (Term.map (ofList q)) = true) ∧
    (∀ (s : System) (pid : Nat) (a : Actor) (k k' v : Term), s.find? pid = some a →
      (Term.map a.dictionary).Built → k.Built → k'.Built →
      (s.handle pid (.put k v)).1 = .reply (.term ((a.dictionary.get? k).getD .nil)) ∧
      ((s.handle pid (.put k v)).2.handle pid (.get k')).1 =
        .reply (.term (if k'.beq k then v else (a.dictionary.get? k').getD .nil)) ∧
      (s.handle pid (.erase k)).1 = .reply (.term ((a.dictionary.get? k).getD .nil)) ∧
      ((s.handle pid (.erase k)).2.handle pid (.get k')).1 =
        .reply (.term (if k'.beq k then .nil else (a.dictionary.get? k').getD .nil)) ∧
      ((s.handle pid (.put k v)).2.handle pid .getKeys).1 = .reply (.terms
        (if (a.dictionary.get? k).isSome then a.dictionary.keys else a.dictionary.keys ++ [k]))) ∧
    (∀ (s : System) (pid : Nat) (a : Actor) (f f' : String) (v w : Term), s.find? pid = some a →
      (Term.map a.flags).Built → f ≠ "trap_exit" → f' ≠ "trap_exit" →
      (s.handle pid (.processFlag f v)).1 = .reply (.term ((a.flags.get? (.atom f)).getD .nil)) ∧
      ((s.handle pid (.processFlag f v)).2.handle pid (.processFlag f' w)).1 =
        .reply (.term (if f' = f then v else (a.flags.get? (.atom f')).getD .nil))) := by
  have hP := Term.partialEquivOn_distinctKeys
  refine ⟨fun m k k' v hm hk hk' => ?_, fun m k k' hm hk hk' => ?_, fun m k v => length_insert m k v,
    fun p q hpq hpairs hd => beq_ofList_perm hpq hpairs hd,
    fun s pid a k k' v ha hd hk hk' => ?_, fun s pid a f f' v w ha hfl hf hf' => ?_⟩
  · exact get?_insert hP hm.keys_distinctKeys hk.distinctKeys hk'.distinctKeys
  · exact get?_erase hP hm.keys_distinctKeys hm.reached.keysDistinct hk.distinctKeys
      hk'.distinctKeys
  · refine ⟨by rw [System.handle_put ha], System.get_after_put ha hd hk hk' v,
      by rw [System.handle_erase ha], System.get_after_erase ha hd hk hk',
      System.getKeys_after_put ha k v⟩
  · exact ⟨by rw [System.handle_processFlag ha hf],
      System.processFlag_after_processFlag ha hfl hf hf' v w⟩

end TermMap

end ActorCore
