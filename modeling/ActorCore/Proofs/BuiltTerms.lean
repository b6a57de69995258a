import ActorCore.Term.Map

/-!
# Terms built through the map interface

A map is only ever made by starting from the empty map and inserting and removing entries
(`TermMap.Reached`); building a map from a list of pairs inserts them in order. Inserting looks
its key up first and appends only a key that nothing equals, so no key of such a map is strictly
equal to a later key (`TermMap.Reached.keysDistinct`), whatever the terms inserted. A *built*
term is one whose maps and record fields, at every depth, were made that way (`Term.Built`):
these are all the terms there are, and strict equality is well behaved on them only.

* `Term.children` — the terms directly inside a term, with `Term.children_induction`, induction
  over them.
* `Term.Everywhere P` — `P` holds of a term and of every term inside it. `Term.Built`,
  `Term.DistinctKeys` and `Term.NanFree` are its instances.
* `TermMap.keys_insert`, `TermMap.keys_erase_sublist` — insertion appends a key that is not
  found and keeps the keys otherwise; removal keeps the others in order.
* `TermMap.ofList_of_keysDistinct` — pairs with distinct keys are inserted as they come.

Principal result: `Term.Built.distinctKeys`, every map inside a built term has distinct keys.
-/

namespace ActorCore

namespace Term

/-! ## The terms inside a term -/

/-- The terms directly inside a term: the items of a list or a tuple, and the keys and values of
a map or a record, entry by entry. -/
def children : Term → List Term
  | .list xs | .tuple xs => xs
  | .map es | .record _ es => es.flatMap fun e => [e.1, e.2]
  | _ => []

/-- The entries of a map or the fields of a record. -/
def entries? : Term → Option TermMap
  | .map es | .record _ es => some es
  | _ => none

theorem mem_children_of_entries? {t : Term} {es : TermMap} (ht : t.entries? = some es)
    {e : Term × Term} (he : e ∈ es) : e.1 ∈ t.children ∧ e.2 ∈ t.children := by
  cases t <;> simp only [entries?, reduceCtorEq, Option.some.injEq] at ht <;> subst ht <;>
    exact ⟨List.mem_flatMap.2 ⟨e, he, by simp⟩, List.mem_flatMap.2 ⟨e, he, by simp⟩⟩

theorem sizeOf_lt_of_mem_children {t c : Term} (h : c ∈ t.children) : sizeOf c < sizeOf t := by
  cases t with
  | list xs | tuple xs =>
    simp only [children] at h
    have := List.sizeOf_lt_of_mem h
    simp only [list.sizeOf_spec, tuple.sizeOf_spec]
    omega
  | map es | record n es =>
    simp only [children, List.mem_flatMap, List.mem_cons, List.not_mem_nil, or_false] at h
    obtain ⟨⟨k, v⟩, he, hc⟩ := h
    have := List.sizeOf_lt_of_mem he
    simp only [Prod.mk.sizeOf_spec] at this
    simp only [map.sizeOf_spec, record.sizeOf_spec]
    rcases hc with rfl | rfl <;> omega
  | _ => simp [children] at h

/-- Induction over the terms inside a term. -/
theorem children_induction {Q : Term → Prop} (step : ∀ t, (∀ c ∈ t.children, Q c) → Q t)
    (t : Term) : Q t :=
  step t fun c _ => children_induction step c
termination_by sizeOf t
decreasing_by exact sizeOf_lt_of_mem_children ‹_›

/-- `P` holds of a term and of every term inside it. -/
inductive Everywhere (P : Term → Prop) : Term → Prop
  | intro {t : Term} : P t → (∀ c ∈ t.children, Everywhere P c) → Everywhere P t

namespace Everywhere

variable {P : Term → Prop} {t : Term}

theorem self (h : t.Everywhere P) : P t := by
  cases h with
  | intro hp _ => exact hp

theorem child (h : t.Everywhere P) {c : Term} (hc : c ∈ t.children) : c.Everywhere P := by
  cases h with
  | intro _ hcs => exact hcs c hc

/-- What holds everywhere inside a map holds of its keys and values. -/
theorem entries (h : t.Everywhere P) {es : TermMap} (ht : t.entries? = some es) :
    ∀ e ∈ es, e.1.Everywhere P ∧ e.2.Everywhere P := fun _ he =>
  ⟨h.child (mem_children_of_entries? ht he).1, h.child (mem_children_of_entries? ht he).2⟩

end Everywhere

end Term

namespace TermMap

/-! ## Keys under insertion and removal -/

/-- No key is strictly equal to a later key. -/
def KeysDistinct (m : TermMap) : Prop :=
  m.keys.Pairwise fun a b => a.beq b = false

theorem keysDistinct_cons {k v : Term} {m : TermMap} :
    KeysDistinct ((k, v) :: m) ↔ (∀ e ∈ m, k.beq e.1 = false) ∧ m.KeysDistinct := by
  simp [KeysDistinct, keys]

theorem get?_eq_none_iff {m : TermMap} {k : Term} :
    m.get? k = none ↔ ∀ a ∈ m.keys, a.beq k = false := by
  simp [get?, keys]

/-- Insertion appends a key that is not found and keeps the keys otherwise. -/
theorem keys_insert (m : TermMap) (k v : Term) :
    (m.insert k v).keys = if (m.get? k).isSome then m.keys else m.keys ++ [k] := by
  induction m with
  | nil => rfl
  | cons e m ih =>
    obtain ⟨k', v'⟩ := e
    rw [get?_cons]
    by_cases h : k'.beq k = true
    · simp [insert, keys, h]
    · simp only [insert, h, Bool.false_eq_true, if_false]
      simp only [keys, List.map_cons] at ih ⊢
      rw [ih]
      split <;> simp

theorem length_insert (m : TermMap) (k v : Term) :
    (m.insert k v).length = m.length + if (m.get? k).isSome then 0 else 1 := by
  have h := congrArg List.length (keys_insert m k v)
  simp only [keys, List.length_map] at h
  rw [h]
  split <;> simp

theorem keys_erase_sublist (m : TermMap) (k : Term) : (m.erase k).keys.Sublist m.keys := by
  induction m with
  | nil => exact List.Sublist.slnil
  | cons e m ih =>
    obtain ⟨k', v'⟩ := e
    by_cases h : k'.beq k = true
    · simp only [erase, h, if_true, keys, List.map_cons]
      exact List.sublist_cons_self _ _
    · simp only [erase, h, Bool.false_eq_true, if_false, keys, List.map_cons] at ih ⊢
      exact ih.cons_cons _

theorem KeysDistinct.insert {m : TermMap} (hd : m.KeysDistinct) (k v : Term) :
    (m.insert k v).KeysDistinct := by
  unfold KeysDistinct
  rw [keys_insert]
  split
  · exact hd
  · rename_i hfound
    -- the appended key is found under no key before it
    have hnone : ∀ a ∈ m.keys, a.beq k = false :=
      get?_eq_none_iff.1 (Option.not_isSome_iff_eq_none.1 hfound)
    exact List.pairwise_append.2 ⟨hd, List.pairwise_singleton _ _,
      fun a ha b hb => by rw [List.mem_singleton.1 hb]; exact hnone a ha⟩

theorem KeysDistinct.erase {m : TermMap} (hd : m.KeysDistinct) (k : Term) :
    (m.erase k).KeysDistinct :=
  hd.sublist (keys_erase_sublist m k)

/-- The maps made from the empty map by insertions and removals. -/
inductive Reached : TermMap → Prop
  | empty : Reached []
  | insert {m : TermMap} (k v : Term) : Reached m → Reached (m.insert k v)
  | erase {m : TermMap} (k : Term) : Reached m → Reached (m.erase k)

theorem Reached.keysDistinct {m : TermMap} (h : m.Reached) : m.KeysDistinct := by
  induction h with
  | empty => exact List.Pairwise.nil
  | insert k v _ ih => exact ih.insert k v
  | erase k _ ih => exact ih.erase k

theorem Reached.foldl_insert {m : TermMap} (h : m.Reached) (pairs : List (Term × Term)) :
    (pairs.foldl (fun m e => m.insert e.1 e.2) m).Reached := by
  induction pairs generalizing m with
  | nil => exact h
  | cons e pairs ih => exact ih (h.insert e.1 e.2)

/-- A map built from a list of pairs is reached. -/
theorem Reached.ofList (pairs : List (Term × Term)) : (ofList pairs).Reached :=
  Reached.empty.foldl_insert pairs

theorem foldl_insert_of_keysDistinct (pairs : List (Term × Term)) :
    ∀ acc : TermMap, KeysDistinct (acc ++ pairs) →
      pairs.foldl (fun m e => m.insert e.1 e.2) acc = acc ++ pairs := by
  induction pairs with
  | nil => simp
  | cons e pairs ih =>
    intro acc hacc
    obtain ⟨k, v⟩ := e
    -- the next key is equal to no key before it, so it is appended
    have hnone : acc.get? k = none := by
      refine get?_eq_none_iff.2 fun a ha => ?_
      unfold KeysDistinct at hacc
      simp only [keys, List.map_append, List.map_cons] at hacc ha
      exact (List.pairwise_append.1 hacc).2.2 a ha k List.mem_cons_self
    rw [List.foldl_cons, insert_of_get?_eq_none acc k v hnone, ih]
    · simp
    · simpa using hacc

/-- Pairs whose keys are distinct are inserted as they come, each one at the end. -/
theorem ofList_of_keysDistinct {pairs : List (Term × Term)} (hd : KeysDistinct pairs) :
    ofList pairs = pairs :=
  foldl_insert_of_keysDistinct pairs [] hd

end TermMap

namespace Term

/-! ## Built terms -/

/-- Every map and record inside the term, at every depth, was made from the empty map by
insertions and removals. -/
def Built (t : Term) : Prop :=
  t.Everywhere fun s => ∀ es ∈ s.entries?, es.Reached

/-- No key of a map or record inside the term is strictly equal to a later key of the same
map. -/
def DistinctKeys (t : Term) : Prop :=
  t.Everywhere fun s => ∀ es ∈ s.entries?, es.KeysDistinct

/-- No double inside the term is a NaN. -/
def NanFree (t : Term) : Prop :=
  t.Everywhere fun s => ∀ x ∈ s.asFloat?, x.isNaN = false

theorem Everywhere.mono {P Q : Term → Prop} (hPQ : ∀ t, P t → Q t) {t : Term}
    (h : t.Everywhere P) : t.Everywhere Q := by
  induction t using children_induction with
  | step t ih => exact .intro (hPQ t h.self) fun c hc => ih c hc (h.child hc)

theorem Built.distinctKeys {t : Term} (h : t.Built) : t.DistinctKeys :=
  Everywhere.mono (fun _ hs es hes => (hs es hes).keysDistinct) h

end Term

end ActorCore
