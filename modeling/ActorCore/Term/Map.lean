import ActorCore.Term.Basic

/-!
# Term maps

Maps keyed by arbitrary terms, under strict equality, kept as a list of entries in insertion
order. Keys may be doubles, so a map can neither hash nor sort its keys: a lookup scans the
entries and takes the first key strictly equal to the one asked for. Inserting a key already
present replaces its value in place; a new key goes to the end.

* `TermMap.get?`, `TermMap.insert`, `TermMap.erase`, `TermMap.keys`, `TermMap.ofList`.
* `TermMap.insert_of_get?_eq_none` and `TermMap.length_insert_of_get?_eq_none` — a key that is
  not found is appended, and the map grows by one entry.
-/

namespace ActorCore

/-- Entries of a map, in insertion order. -/
abbrev TermMap := List (Term × Term)

namespace TermMap

/-- The value stored under the first key strictly equal to `k`. -/
def get? (m : TermMap) (k : Term) : Option Term :=
  (m.find? fun e => e.1.beq k).map (·.2)

/-- Whether some key is strictly equal to `k`. -/
def contains (m : TermMap) (k : Term) : Bool :=
  (m.get? k).isSome

/-- Stores `v` under `k`: in place of the value of the first key strictly equal to `k`, or as
a new last entry. -/
def insert : TermMap → Term → Term → TermMap
  | [], k, v => [(k, v)]
  | (k', v') :: es, k, v => if k'.beq k then (k', v) :: es else (k', v') :: insert es k v

/-- Removes the entry of the first key strictly equal to `k`. -/
def erase : TermMap → Term → TermMap
  | [], _ => []
  | (k', v') :: es, k => if k'.beq k then es else (k', v') :: erase es k

/-- The keys, in insertion order. -/
def keys (m : TermMap) : List Term :=
  m.map (·.1)

/-- The map built by inserting the pairs in order. -/
def ofList (pairs : List (Term × Term)) : TermMap :=
  pairs.foldl (fun m e => m.insert e.1 e.2) []

@[simp] theorem get?_nil (k : Term) : get? [] k = none := rfl

theorem get?_cons (k' v' k : Term) (es : TermMap) :
    get? ((k', v') :: es) k = if k'.beq k then some v' else get? es k := by
  by_cases h : k'.beq k <;> simp [get?, List.find?, h]

theorem insert_of_get?_eq_none (m : TermMap) (k v : Term) (h : m.get? k = none) :
    m.insert k v = m ++ [(k, v)] := by
  induction m with
  | nil => rfl
  | cons e es ih =>
    obtain ⟨k', v'⟩ := e
    rw [get?_cons] at h
    by_cases hk : k'.beq k
    · simp [hk] at h
    · simp only [hk] at h
      simp [insert, hk, ih h]

theorem length_insert_of_get?_eq_none (m : TermMap) (k v : Term) (h : m.get? k = none) :
    (m.insert k v).length = m.length + 1 := by
  simp [insert_of_get?_eq_none m k v h]

end TermMap

end ActorCore
