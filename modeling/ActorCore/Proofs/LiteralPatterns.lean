import ActorCore.Proofs.StrictEquality
import ActorCore.Proofs.Matching

/-!
# Container literals and the patterns they spell

A literal pattern accepts the terms strictly equal to its term, and binds nothing. A container
term also spells a structural pattern, `Pattern.lift`: a list or a tuple spells the pattern of its
lifted items, a map the pattern of its keys with lifted values, a record the pattern of its name
and lifted fields, and any other term its own literal.

The two agree wherever no map or record occurs (`lift_matches?_of_mapFree`): strict equality of
lists and tuples compares item by item, as their patterns do. They part at maps and records,
whose patterns only ask that every key be present with an accepted value: a map with an extra key
is accepted by the lifted pattern of a smaller map, which its literal rejects
(`lift_accepts_extra_key`). The other way a literal never accepts more: on terms whose maps have
distinct keys — every map that can be built has them — a map strictly equal to another finds each
of the other's entries in itself (`TermMap.found_symm`), so the lifted pattern accepts what the
literal accepts (`lift_matches?_of_beq`).

Principal result: `literal_lift_agree`.
-/

namespace ActorCore

/-- No map or record occurs in the term, at any depth. -/
def Term.MapFree (t : Term) : Prop :=
  t.Everywhere fun s => s.entries? = none

/-- What holds of a term that holds no other term holds everywhere inside it. -/
theorem Term.Everywhere.of_children_nil {P : Term → Prop} {t : Term} (hp : P t)
    (hc : t.children = []) : t.Everywhere P :=
  .intro hp fun c h => by simp [hc] at h

namespace Pattern

mutual

/-- The structural pattern a term spells. -/
def lift : Term → Pattern Term
  | .list items => .list (liftItems items)
  | .tuple items => .tuple (liftItems items)
  | .map entries => .map (liftEntries entries)
  | .record name fields => .record name (liftEntries fields)
  | t => .literal t

/-- The patterns the items of a list spell. -/
def liftItems : List Term → List (Pattern Term)
  | [] => []
  | t :: ts => lift t :: liftItems ts

/-- The keys of entries with the patterns their values spell. -/
def liftEntries : List (Term × Term) → List (Term × Pattern Term)
  | [] => []
  | (k, v) :: es => (k, lift v) :: liftEntries es

end

theorem literal_matches? (t v : Term) :
    (literal t).matches? v = if v.beq t then some [] else none := by
  simp [matches?]

/-! ## Without maps: the same candidates -/

/-- Lifted items accept the lists itemwise strictly equal to theirs, when each item's pattern
accepts what is strictly equal to the item. -/
theorem matchItems_liftItems {items : List Term}
    (h : ∀ x ∈ items, ∀ v, (lift x).matches? v = if v.beq x then some [] else none) :
    ∀ vs, matchItems (liftItems items) vs = if Term.beqList vs items then some [] else none := by
  induction items with
  | nil =>
    intro vs
    cases vs <;> simp [liftItems, matchItems, Term.beqList]
  | cons x items ih =>
    intro vs
    cases vs with
    | nil => simp [liftItems, matchItems, Term.beqList]
    | cons v vs =>
      rw [liftItems, Term.beqList_cons, matchItems, h x List.mem_cons_self v,
        ih (fun y hy => h y (List.mem_cons_of_mem _ hy)) vs]
      by_cases hv : v.beq x <;> by_cases hvs : Term.beqList vs items <;> simp [hv, hvs]

/-- **Without maps or records, a term's pattern is its literal.** -/
theorem lift_matches?_of_mapFree (t : Term) (ht : t.MapFree) (v : Term) :
    (lift t).matches? v = (literal t).matches? v := by
  induction t using Term.children_induction generalizing v with
  | step t ih =>
    rw [literal_matches?]
    cases t with
    | list items | tuple items =>
      -- the items are the children, each of whose patterns is its literal
      have hitems : ∀ x ∈ items, ∀ v, (lift x).matches? v = if v.beq x then some [] else none :=
        fun x hx v => (ih x hx (ht.child hx) v).trans (literal_matches? x v)
      cases v <;> simp [lift, matches?, Term.beq, matchItems_liftItems hitems]
    | map es => exact absurd ht.self (by simp [Term.entries?])
    | record n es => exact absurd ht.self (by simp [Term.entries?])
    | _ => exact literal_matches? _ v

/-! ## With maps: the literal never accepts more -/

/-- Lifted entries accept a map that holds each key with a value the key's pattern accepts. -/
theorem matchEntries_liftEntries {fs : TermMap} :
    ∀ {es : List (Term × Term)},
      (∀ e ∈ es, ∃ w, fs.get? e.1 = some w ∧ (lift e.2).matches? w = some []) →
      matchEntries (liftEntries es) fs = some []
  | [], _ => rfl
  | (k, y) :: es, h => by
    obtain ⟨w, hw, hy⟩ := h (k, y) List.mem_cons_self
    rw [liftEntries, matchEntries, hw]
    simp [hy, matchEntries_liftEntries fun e he => h e (List.mem_cons_of_mem _ he)]

theorem matchItems_liftItems_of_beqList {items : List Term}
    (h : ∀ x ∈ items, ∀ v, v.DistinctKeys → v.beq x = true → (lift x).matches? v = some []) :
    ∀ vs, (∀ v ∈ vs, v.DistinctKeys) → Term.beqList vs items = true →
      matchItems (liftItems items) vs = some [] := by
  induction items with
  | nil =>
    intro vs _ hb
    cases vs with
    | nil => rfl
    | cons v vs => simp [Term.beqList] at hb
  | cons x items ih =>
    intro vs hvs hb
    cases vs with
    | nil => simp [Term.beqList] at hb
    | cons v vs =>
      rw [Term.beqList_cons, Bool.and_eq_true] at hb
      rw [liftItems, matchItems, h x List.mem_cons_self v (hvs v List.mem_cons_self) hb.1,
        ih (fun y hy => h y (List.mem_cons_of_mem _ hy)) vs
          (fun w hw => hvs w (List.mem_cons_of_mem _ hw)) hb.2]
      rfl

/-- Lifted entries accept the entries of a map strictly equal to theirs, both maps with distinct
keys, when each value's pattern accepts what is strictly equal to the value. -/
theorem matchEntries_liftEntries_of_mapEq {t u : Term} {es fs : TermMap} (ht : t.DistinctKeys)
    (hu : u.DistinctKeys) (hes : t.entries? = some es) (hfs : u.entries? = some fs)
    (heq : Term.MapEq fs es)
    (hchildren : ∀ c ∈ t.children, ∀ w : Term, w.DistinctKeys → w.beq c = true →
      (lift c).matches? w = some []) :
    matchEntries (liftEntries es) fs = some [] := by
  have hes' := ht.entries hes
  have hfs' := hu.entries hfs
  refine matchEntries_liftEntries fun e he => ?_
  -- strict equality asks each entry of `fs` to be found in `es`; the converse needs distinct keys
  obtain ⟨w, hw, hwe⟩ := TermMap.found_symm Term.partialEquivOn_distinctKeys hfs' hes'
    (hu.self fs hfs) (ht.self es hes) heq.1 heq.2 e he
  obtain ⟨k, hk, -⟩ := TermMap.exists_mem_of_get? hw
  exact ⟨w, hw, hchildren e.2 (Term.mem_children_of_entries? hes he).2 w (hfs' (k, w) hk).2 hwe⟩

/-- **What a literal accepts, its lifted pattern accepts**, on terms whose maps have distinct
keys. -/
theorem lift_matches?_of_beq (t : Term) (ht : t.DistinctKeys) (v : Term) (hv : v.DistinctKeys)
    (h : v.beq t = true) : (lift t).matches? v = some [] := by
  induction t using Term.children_induction generalizing v with
  | step t ih =>
    have hchildren : ∀ c ∈ t.children, ∀ w : Term, w.DistinctKeys → w.beq c = true →
        (lift c).matches? w = some [] := fun c hc => ih c hc (ht.child hc)
    cases t with
    | list items =>
      cases v with
      | list vs =>
        simp only [Term.beq] at h
        exact matchItems_liftItems_of_beqList hchildren vs (fun w hw => hv.child hw) h
      | _ => simp [Term.beq] at h
    | tuple items =>
      cases v with
      | tuple vs =>
        simp only [Term.beq] at h
        exact matchItems_liftItems_of_beqList hchildren vs (fun w hw => hv.child hw) h
      | _ => simp [Term.beq] at h
    | map es =>
      cases v with
      | map fs => exact matchEntries_liftEntries_of_mapEq ht hv rfl rfl (Term.beq_map.1 h) hchildren
      | _ => simp [Term.beq] at h
    | record n es =>
      cases v with
      | record m fs =>
        obtain ⟨rfl, hmap⟩ := Term.beq_record.1 h
        simp only [lift, matches?, beq_self_eq_true, if_true]
        exact matchEntries_liftEntries_of_mapEq ht hv rfl rfl hmap hchildren
      | _ => simp [Term.beq] at h
    | _ => simp [lift, matches?, h]

/-! ## What a lifted pattern binds -/

theorem matchItems_liftItems_binds_nothing {items : List Term}
    (h : ∀ x ∈ items, ∀ v δ, (lift x).matches? v = some δ → δ = []) :
    ∀ vs δ, matchItems (liftItems items) vs = some δ → δ = [] := by
  induction items with
  | nil =>
    intro vs δ hm
    cases vs <;> simp [liftItems, matchItems] at hm
    exact hm
  | cons x items ih =>
    intro vs δ hm
    cases vs with
    | nil => simp [liftItems, matchItems] at hm
    | cons v vs =>
      simp only [liftItems, matchItems, bind, Option.bind_eq_some_iff, pure,
        Option.some.injEq] at hm
      obtain ⟨a, ha, b, hb, rfl⟩ := hm
      rw [h x List.mem_cons_self v a ha,
        ih (fun y hy => h y (List.mem_cons_of_mem _ hy)) vs b hb]
      rfl

theorem matchEntries_liftEntries_binds_nothing {es : List (Term × Term)}
    (h : ∀ e ∈ es, ∀ v δ, (lift e.2).matches? v = some δ → δ = []) :
    ∀ fs δ, matchEntries (liftEntries es) fs = some δ → δ = [] := by
  induction es with
  | nil =>
    intro fs δ hm
    simp only [liftEntries, matchEntries, Option.some.injEq] at hm
    exact hm.symm
  | cons e es ih =>
    intro fs δ hm
    obtain ⟨k, y⟩ := e
    simp only [liftEntries, matchEntries, bind, Option.bind_eq_some_iff, pure,
      Option.some.injEq] at hm
    obtain ⟨w, -, a, ha, b, hb, rfl⟩ := hm
    rw [h (k, y) List.mem_cons_self w a ha,
      ih (fun e he => h e (List.mem_cons_of_mem _ he)) fs b hb]
    rfl

/-- **A lifted pattern binds nothing**, as a literal does. -/
theorem lift_binds_nothing (t v : Term) (δ : Bindings) (h : (lift t).matches? v = some δ) :
    δ = [] := by
  induction t using Term.children_induction generalizing v δ with
  | step t ih =>
    -- the items of a list or a tuple and the values of a map or a record are its children
    have hitems : ∀ {items : List Term}, t.children = items →
        ∀ x ∈ items, ∀ v δ, (lift x).matches? v = some δ → δ = [] := by
      rintro items rfl x hx
      exact ih x hx
    have hentries : ∀ {es : TermMap}, t.entries? = some es →
        ∀ e ∈ es, ∀ v δ, (lift e.2).matches? v = some δ → δ = [] :=
      fun hes e he => ih e.2 (Term.mem_children_of_entries? hes he).2
    cases t with
    | list items =>
      cases v with
      | list vs => exact matchItems_liftItems_binds_nothing (hitems rfl) vs δ h
      | _ => simp [lift, matches?] at h
    | tuple items =>
      cases v with
      | tuple vs => exact matchItems_liftItems_binds_nothing (hitems rfl) vs δ h
      | _ => simp [lift, matches?] at h
    | map es =>
      cases v with
      | map fs => exact matchEntries_liftEntries_binds_nothing (hentries rfl) fs δ h
      | record n fs => exact matchEntries_liftEntries_binds_nothing (hentries rfl) fs δ h
      | _ => simp [lift, matches?] at h
    | record n es =>
      cases v with
      | record m fs =>
        simp only [lift, matches?] at h
        split at h
        · exact matchEntries_liftEntries_binds_nothing (hentries rfl) fs δ h
        · simp at h
      | _ => simp [lift, matches?] at h
    | _ =>
      simp only [lift, matches?] at h
      split at h <;> simp_all

/-! ## The principal result -/

/-- **A container literal and the pattern it spells.** Where no map or record occurs they test
and match alike. Everywhere, the spelled pattern binds nothing when it accepts, and accepts
whatever the literal accepts, on terms whose maps have distinct keys; it may accept more, since a
map pattern ignores the keys it does not name. -/
theorem literal_lift_agree (t v : Term) (b : Bindings) :
    (t.MapFree → (lift t).test v b = (literal t).test v b ∧ (lift t).run v = (literal t).run v) ∧
    (((lift t).test v b).1 = true → (lift t).test v b = (true, b)) ∧
    (t.DistinctKeys → v.DistinctKeys → ((literal t).test v b).1 = true →
      (lift t).test v b = (literal t).test v b) := by
  refine ⟨fun ht => ?_, fun h => ?_, fun ht hv h => ?_⟩
  · rw [test_eq, test_eq, run_eq, run_eq, lift_matches?_of_mapFree t ht v]
    exact ⟨rfl, rfl⟩
  · rw [test_eq] at h ⊢
    cases hm : (lift t).matches? v with
    | none => simp [hm, Matcher.outcome] at h
    | some δ => simp [Matcher.outcome, lift_binds_nothing t v δ hm]
  · have hvt : v.beq t = true := by
      rw [test_eq, literal_matches?] at h
      cases hb : v.beq t
      · simp [hb, Matcher.outcome] at h
      · rfl
    rw [test_eq, test_eq, lift_matches?_of_beq t ht v hv hvt, literal_matches?, if_pos hvt]

/-- A one-item list and its literal reject another list alike; a one-entry map and its literal
both accept the map itself. -/
theorem literal_lift_agree_singletons :
    (Term.list [.int 1]).MapFree ∧
      (lift (.list [.int 1])).test (.list [.int 2]) [] =
        (literal (.list [.int 1])).test (.list [.int 2]) [] ∧
      (Term.map [(.atom "a", .int 1)]).DistinctKeys ∧
      ((literal (.map [(.atom "a", .int 1)])).test (.map [(.atom "a", .int 1)]) []).1 = true ∧
      (lift (.map [(.atom "a", .int 1)])).test (.map [(.atom "a", .int 1)]) [] =
        (literal (.map [(.atom "a", .int 1)])).test (.map [(.atom "a", .int 1)]) [] := by
  have hfree : (Term.list [.int 1]).MapFree := .intro rfl fun c hc => by
    simp only [Term.children, List.mem_singleton] at hc
    subst hc
    exact .of_children_nil rfl rfl
  have hkeys : (Term.map [(.atom "a", .int 1)]).DistinctKeys := by
    refine .intro (fun es hes => ?_) fun c hc => ?_
    · simp only [Term.entries?, Option.mem_def, Option.some.injEq] at hes
      subst hes
      simp [TermMap.KeysDistinct, TermMap.keys]
    · simp only [Term.children, List.flatMap_cons, List.flatMap_nil, List.append_nil,
        List.mem_cons, List.not_mem_nil, or_false] at hc
      rcases hc with rfl | rfl <;> exact .of_children_nil (fun _ h => by cases h) rfl
  have haccept : ((literal (.map [(.atom "a", .int 1)])).test
      (.map [(.atom "a", .int 1)]) []).1 = true := by
    rw [test_eq, literal_matches?]
    simp [Term.beq, Term.entriesFound, Term.valueFound, Matcher.outcome]
  exact ⟨hfree, ((literal_lift_agree _ _ []).1 hfree).1, hkeys, haccept,
    (literal_lift_agree _ _ []).2.2 hkeys hkeys haccept⟩

/-- The pattern the empty map spells accepts a map with a key, which the empty map's literal
rejects. -/
theorem lift_accepts_extra_key :
    (literal (.map [])).run (.map [(.atom "a", .int 1)]) = none ∧
      (lift (.map [])).run (.map [(.atom "a", .int 1)]) = some [] := by
  constructor
  · rw [run_eq, literal_matches?]
    simp [Term.beq]
  · rw [run_eq]
    simp [lift, liftEntries, matches?, matchEntries, Bindings.consistent, Bindings.consistentFrom]

end Pattern

end ActorCore
