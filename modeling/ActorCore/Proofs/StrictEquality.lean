import ActorCore.Proofs.BuiltTerms
import ActorCore.Pattern.Basic

/-!
# Strict equality is a partial equivalence

Strict equality compares terms of the same kind by their contents: doubles as IEEE numbers, lists
and tuples item by item, and a map with another of the same size by looking each of its entries
up in the other. It is not reflexive, since a NaN equals nothing, and on arbitrary lists of
entries it is not even symmetric: `[(k, v), (k, v)]` finds both its entries in `[(k, v), (j, w)]`,
which does not find `(j, w)` back. On maps whose keys are distinct it is symmetric and
transitive, and every map that can be built has distinct keys (`Term.Built.distinctKeys`).

The map case is where the work lies. Looking a key up finds its entry when the keys are distinct
(`TermMap.get?_of_mem`), and a map that finds each of its entries in another map of the same size
has each entry of that map matched by one of its own (`TermMap.matched_of_length_eq`): matching
is injective on distinct keys, and a count finishes. Symmetry of maps needs transitivity of keys
and the other way round, so both are proved together, for all terms below a size, by induction on
the size (`Term.partialEquivOn_sizeOf_lt`); a term's own step needs them only for the terms
inside it (`Term.beq_symm_step`, `Term.beq_trans_step`).

The consistency check of a match compares each named binding with the first binding of its
name only. Because strict equality is symmetric and transitive on the values, that is the same
as comparing every two bindings of a name (`Bindings.consistent_iff`).

Principal result: `Term.strictEq_partialEquivalence`.
-/

namespace ActorCore

/-- Strict equality is symmetric and transitive on the terms of which `P` holds. -/
structure Term.PartialEquivOn (P : Term → Prop) : Prop where
  symm : ∀ {a b : Term}, P a → P b → a.beq b = true → b.beq a = true
  trans : ∀ {a b c : Term}, P a → P b → P c → a.beq b = true → b.beq c = true → a.beq c = true

namespace Term.PartialEquivOn

variable {P : Term → Prop} {a b c : Term}

theorem beq_comm (hP : PartialEquivOn P) (ha : P a) (hb : P b) : a.beq b = b.beq a :=
  Bool.eq_iff_iff.2 ⟨hP.symm ha hb, hP.symm hb ha⟩

/-- Strictly equal terms are strictly equal to the same terms. -/
theorem beq_congr (hP : PartialEquivOn P) (ha : P a) (hb : P b) (hc : P c)
    (hbc : b.beq c = true) : a.beq b = a.beq c :=
  Bool.eq_iff_iff.2 ⟨fun hab => hP.trans ha hb hc hab hbc,
    fun hac => hP.trans ha hc hb hac (hP.symm hb hc hbc)⟩

end Term.PartialEquivOn

/-! ## Doubles -/

theorem Double.eq_of_bits_eq {a b : Double} (h : a.bits = b.bits) : a = b := by
  cases a
  cases b
  cases h
  rfl

/-- The IEEE comparison is transitive: equal bits make the same double, and two zeros are equal
whatever their signs. -/
theorem Double.beq_trans {a b c : Double} (hab : a.beq b = true) (hbc : b.beq c = true) :
    a.beq c = true := by
  simp only [Double.beq, Bool.and_eq_true, Bool.not_eq_true', Bool.or_eq_true, beq_iff_eq] at *
  obtain ⟨⟨ha, -⟩, hab⟩ := hab
  obtain ⟨⟨-, hc⟩, hbc⟩ := hbc
  refine ⟨⟨ha, hc⟩, ?_⟩
  rcases hab with hab | ⟨hza, hzb⟩
  · rwa [Double.eq_of_bits_eq hab]
  · rcases hbc with hbc | ⟨-, hzc⟩
    · rw [← Double.eq_of_bits_eq hbc]
      exact .inr ⟨hza, hzb⟩
    · exact .inr ⟨hza, hzc⟩

namespace TermMap

/-! ## Looking keys up in a map with distinct keys -/

theorem exists_mem_of_get? {m : TermMap} {q v : Term} (h : m.get? q = some v) :
    ∃ k, (k, v) ∈ m ∧ k.beq q = true := by
  obtain ⟨⟨k, v'⟩, hfind, rfl⟩ := Option.map_eq_some_iff.1 h
  exact ⟨k, List.mem_of_find?_eq_some hfind, by simpa using List.find?_some hfind⟩

variable {P : Term → Prop}

/-- In a map with distinct keys, a key equal to the key of an entry finds that entry. -/
theorem get?_of_mem (hP : Term.PartialEquivOn P) {m : TermMap} {k v q : Term}
    (hm : ∀ e ∈ m, P e.1) (hq : P q) (hd : m.KeysDistinct) (he : (k, v) ∈ m)
    (hk : k.beq q = true) : m.get? q = some v := by
  induction m with
  | nil => simp at he
  | cons e m ih =>
    obtain ⟨k₀, v₀⟩ := e
    obtain ⟨hhead, hd⟩ := keysDistinct_cons.1 hd
    have hk₀ : P k₀ := hm _ List.mem_cons_self
    rw [get?_cons]
    rcases List.mem_cons.1 he with heq | hmem
    · obtain ⟨rfl, rfl⟩ := Prod.mk.inj heq
      simp [hk]
    · have hkP : P k := hm _ (List.mem_cons_of_mem _ hmem)
      by_cases h₀ : k₀.beq q = true
      · -- the head key is equal to `q`, hence to the later key `k`
        have : k₀.beq k = true := by rw [hP.beq_congr hk₀ hkP hq hk]; exact h₀
        simp [hhead _ hmem] at this
      · simp only [h₀, Bool.false_eq_true, if_false]
        exact ih (fun e he => hm e (List.mem_cons_of_mem _ he)) hd hmem

/-- If every key of `es` is matched by a key of `fs` and the two have as many entries, every key
of `fs` is matched by a key of `es`, when the keys of `es` are distinct: two keys of `es` are
never matched by the same key of `fs`. -/
theorem matched_of_length_eq (hP : Term.PartialEquivOn P) :
    ∀ {es fs : TermMap}, (∀ e ∈ es, P e.1) → (∀ f ∈ fs, P f.1) → es.KeysDistinct →
      es.length = fs.length → (∀ e ∈ es, ∃ f ∈ fs, f.1.beq e.1 = true) →
      ∀ f ∈ fs, ∃ e ∈ es, e.1.beq f.1 = true
  | [], fs, _, _, _, hlen, _ => by
    rw [List.eq_nil_of_length_eq_zero hlen.symm]
    simp
  | e :: es, fs, hes, hfs, hd, hlen, hfound => by
    obtain ⟨k, v⟩ := e
    obtain ⟨hhead, hd⟩ := keysDistinct_cons.1 hd
    obtain ⟨f₁, hf₁, hkf₁⟩ := hfound _ List.mem_cons_self
    obtain ⟨pre, post, rfl⟩ := List.append_of_mem hf₁
    have hkP : P k := hes _ List.mem_cons_self
    have hf₁P : P f₁.1 := hfs _ hf₁
    -- every later key is matched in what is left once the match `f₁` of `k` is taken out
    have hrest : ∀ e ∈ es, ∃ f ∈ pre ++ post, f.1.beq e.1 = true := by
      intro e he
      obtain ⟨f, hf, hfe⟩ := hfound e (List.mem_cons_of_mem _ he)
      rcases List.mem_append.1 hf with hpre | hmid
      · exact ⟨f, List.mem_append_left _ hpre, hfe⟩
      rcases List.mem_cons.1 hmid with rfl | hpost
      · have hk : k.beq e.1 = true :=
          hP.trans hkP hf₁P (hes e (List.mem_cons_of_mem _ he)) (hP.symm hf₁P hkP hkf₁) hfe
        simp [hhead e he] at hk
      · exact ⟨f, List.mem_append_right _ hpost, hfe⟩
    have ih := matched_of_length_eq hP (fun e he => hes e (List.mem_cons_of_mem _ he))
      (fun f hf => hfs f (List.mem_append.2 ((List.mem_append.1 hf).imp id
        (List.mem_cons_of_mem _)))) hd (by simp at hlen ⊢; omega) hrest
    intro f hf
    rcases List.mem_append.1 hf with hpre | hmid
    · obtain ⟨e, he, hef⟩ := ih f (List.mem_append_left _ hpre)
      exact ⟨e, List.mem_cons_of_mem _ he, hef⟩
    rcases List.mem_cons.1 hmid with rfl | hpost
    · exact ⟨(k, v), List.mem_cons_self, hP.symm hf₁P hkP hkf₁⟩
    · obtain ⟨e, he, hef⟩ := ih f (List.mem_append_right _ hpost)
      exact ⟨e, List.mem_cons_of_mem _ he, hef⟩

/-- Maps of the same size with distinct keys: if each entry of `es` is found in `fs` with an
equal value, each entry of `fs` is found in `es` with an equal value. -/
theorem found_symm (hP : Term.PartialEquivOn P) {es fs : TermMap}
    (hes : ∀ e ∈ es, P e.1 ∧ P e.2) (hfs : ∀ f ∈ fs, P f.1 ∧ P f.2)
    (des : es.KeysDistinct) (dfs : fs.KeysDistinct) (hlen : es.length = fs.length)
    (h : ∀ e ∈ es, ∃ w, fs.get? e.1 = some w ∧ w.beq e.2 = true) :
    ∀ f ∈ fs, ∃ w, es.get? f.1 = some w ∧ w.beq f.2 = true := by
  have hmatch : ∀ e ∈ es, ∃ f ∈ fs, f.1.beq e.1 = true := by
    intro e he
    obtain ⟨w, hw, -⟩ := h e he
    obtain ⟨k, hk, hkq⟩ := exists_mem_of_get? hw
    exact ⟨(k, w), hk, hkq⟩
  rintro ⟨kb, vb⟩ hf
  obtain ⟨⟨ka, va⟩, he, hab⟩ := matched_of_length_eq hP (fun e he => (hes e he).1)
    (fun f hf => (hfs f hf).1) des hlen hmatch _ hf
  have hka := hes _ he
  have hkb := hfs _ hf
  -- `ka` finds `(kb, vb)` in `fs`, and `kb` finds `(ka, va)` in `es`
  obtain ⟨w, hw, hwv⟩ := h _ he
  have hvb : fs.get? ka = some vb :=
    get?_of_mem hP (fun f hf => (hfs f hf).1) hka.1 dfs hf (hP.symm hka.1 hkb.1 hab)
  rw [hvb, Option.some.injEq] at hw
  subst hw
  exact ⟨va, get?_of_mem hP (fun e he => (hes e he).1) hkb.1 des he hab,
    hP.symm hkb.2 hka.2 hwv⟩

theorem found_trans (hP : Term.PartialEquivOn P) {es fs gs : TermMap}
    (hes : ∀ e ∈ es, P e.1 ∧ P e.2) (hfs : ∀ f ∈ fs, P f.1 ∧ P f.2)
    (hgs : ∀ g ∈ gs, P g.1 ∧ P g.2) (dgs : gs.KeysDistinct)
    (h₁ : ∀ e ∈ es, ∃ w, fs.get? e.1 = some w ∧ w.beq e.2 = true)
    (h₂ : ∀ f ∈ fs, ∃ w, gs.get? f.1 = some w ∧ w.beq f.2 = true) :
    ∀ e ∈ es, ∃ w, gs.get? e.1 = some w ∧ w.beq e.2 = true := by
  rintro ⟨ka, va⟩ he
  obtain ⟨vb, hb, hvb⟩ := h₁ _ he
  obtain ⟨kb, hkb, hkba⟩ := exists_mem_of_get? hb
  obtain ⟨vc, hc, hvc⟩ := h₂ _ hkb
  obtain ⟨kc, hkc, hkcb⟩ := exists_mem_of_get? hc
  have ha := hes _ he
  have hb := hfs _ hkb
  have hc := hgs _ hkc
  exact ⟨vc, get?_of_mem hP (fun g hg => (hgs g hg).1) ha.1 dgs hkc
    (hP.trans hc.1 hb.1 ha.1 hkcb hkba), hP.trans hc.2 hb.2 ha.2 hvc hvb⟩

end TermMap

namespace Term

/-! ## Strict equality through its parts -/

theorem valueFound_iff {fs : TermMap} {k v : Term} :
    valueFound fs k v = true ↔ ∃ w, fs.get? k = some w ∧ w.beq v = true := by
  induction fs with
  | nil => simp [valueFound]
  | cons f fs ih =>
    obtain ⟨k', v'⟩ := f
    rw [valueFound, TermMap.get?_cons]
    by_cases h : k'.beq k = true
    · simp [h]
    · simp [h, ih]

theorem entriesFound_iff {es fs : TermMap} :
    entriesFound es fs = true ↔ ∀ e ∈ es, ∃ w, fs.get? e.1 = some w ∧ w.beq e.2 = true := by
  induction es with
  | nil => simp [entriesFound]
  | cons e es ih =>
    obtain ⟨k, v⟩ := e
    rw [entriesFound, Bool.and_eq_true, valueFound_iff, ih]
    simp

/-- What strict equality asks of two maps: they have as many entries, and each entry of the
first is found in the second with an equal value. -/
def MapEq (es fs : TermMap) : Prop :=
  es.length = fs.length ∧ ∀ e ∈ es, ∃ w, fs.get? e.1 = some w ∧ w.beq e.2 = true

theorem mapEq_iff {es fs : TermMap} :
    (es.length == fs.length && entriesFound es fs) = true ↔ MapEq es fs := by
  rw [Bool.and_eq_true, beq_iff_eq, entriesFound_iff, MapEq]

theorem beq_map {es fs : TermMap} : (map es).beq (map fs) = true ↔ MapEq es fs := by
  rw [← mapEq_iff]
  simp only [beq]

theorem beq_record {n m : String} {es fs : TermMap} :
    (record n es).beq (record m fs) = true ↔ n = m ∧ MapEq es fs := by
  rw [← mapEq_iff]
  simp only [beq, Bool.and_eq_true, beq_iff_eq]

theorem beqList_cons {x y : Term} {xs ys : List Term} :
    beqList (x :: xs) (y :: ys) = (x.beq y && beqList xs ys) := by
  rw [beqList]

variable {P : Term → Prop}

theorem beqList_symm (hP : PartialEquivOn P) :
    ∀ {xs ys : List Term}, (∀ x ∈ xs, P x) → (∀ y ∈ ys, P y) → beqList xs ys = true →
      beqList ys xs = true
  | [], [], _, _, _ => by simp [beqList]
  | x :: xs, y :: ys, hx, hy, h => by
    rw [beqList_cons, Bool.and_eq_true] at h ⊢
    exact ⟨hP.symm (hx x List.mem_cons_self) (hy y List.mem_cons_self) h.1,
      beqList_symm hP (fun x h => hx x (List.mem_cons_of_mem _ h))
        (fun y h => hy y (List.mem_cons_of_mem _ h)) h.2⟩
  | [], _ :: _, _, _, h | _ :: _, [], _, _, h => by simp [beqList] at h

theorem beqList_trans (hP : PartialEquivOn P) :
    ∀ {xs ys zs : List Term}, (∀ x ∈ xs, P x) → (∀ y ∈ ys, P y) → (∀ z ∈ zs, P z) →
      beqList xs ys = true → beqList ys zs = true → beqList xs zs = true
  | [], [], [], _, _, _, _, _ => by simp [beqList]
  | x :: xs, y :: ys, z :: zs, hx, hy, hz, h₁, h₂ => by
    rw [beqList_cons, Bool.and_eq_true] at h₁ h₂ ⊢
    exact ⟨hP.trans (hx x List.mem_cons_self) (hy y List.mem_cons_self) (hz z List.mem_cons_self)
        h₁.1 h₂.1,
      beqList_trans hP (fun x h => hx x (List.mem_cons_of_mem _ h))
        (fun y h => hy y (List.mem_cons_of_mem _ h)) (fun z h => hz z (List.mem_cons_of_mem _ h))
        h₁.2 h₂.2⟩
  | [], _ :: _, _, _, _, _, h, _ | _ :: _, [], _, _, _, _, h, _ => by simp [beqList] at h
  | _, [], _ :: _, _, _, _, _, h | _, _ :: _, [], _, _, _, _, h => by simp [beqList] at h

theorem entries_of_children {t : Term} {es : TermMap} (hx : ∀ c ∈ t.children, P c)
    (ht : t.entries? = some es) : ∀ e ∈ es, P e.1 ∧ P e.2 := fun _ he =>
  ⟨hx _ (mem_children_of_entries? ht he).1, hx _ (mem_children_of_entries? ht he).2⟩

section Maps

variable {es fs gs : TermMap}

theorem mapEq_symm (hP : PartialEquivOn P) (hes : ∀ e ∈ es, P e.1 ∧ P e.2)
    (hfs : ∀ f ∈ fs, P f.1 ∧ P f.2) (des : es.KeysDistinct) (dfs : fs.KeysDistinct)
    (h : MapEq es fs) : MapEq fs es :=
  ⟨h.1.symm, TermMap.found_symm hP hes hfs des dfs h.1 h.2⟩

theorem mapEq_trans (hP : PartialEquivOn P) (hes : ∀ e ∈ es, P e.1 ∧ P e.2)
    (hfs : ∀ f ∈ fs, P f.1 ∧ P f.2) (hgs : ∀ g ∈ gs, P g.1 ∧ P g.2) (dgs : gs.KeysDistinct)
    (h₁ : MapEq es fs) (h₂ : MapEq fs gs) : MapEq es gs :=
  ⟨h₁.1.trans h₂.1, TermMap.found_trans hP hes hfs hgs dgs h₁.2 h₂.2⟩

end Maps

/-- One step of symmetry: it holds of two terms when it holds, together with transitivity, of
the terms inside them. -/
theorem beq_symm_step (hP : PartialEquivOn P) {x y : Term} (hx : ∀ c ∈ x.children, P c)
    (hy : ∀ c ∈ y.children, P c) (dx : ∀ es ∈ x.entries?, es.KeysDistinct)
    (dy : ∀ es ∈ y.entries?, es.KeysDistinct) (h : x.beq y = true) : y.beq x = true := by
  rw [beq.eq_def] at h
  split at h
  case h_1 => simp [beq]
  case h_2 | h_3 | h_5 | h_6 | h_11 | h_12 | h_13 =>
    simp only [beq]
    exact BEq.symm h
  case h_4 =>
    simp only [beq]
    rwa [Double.beq_comm]
  case h_7 | h_8 =>
    simp only [beq]
    exact beqList_symm hP hx hy h
  case h_9 es fs =>
    rw [mapEq_iff] at h
    rw [beq_map]
    exact mapEq_symm hP (entries_of_children hx rfl) (entries_of_children hy rfl) (dx es rfl)
      (dy fs rfl) h
  case h_10 n es m fs =>
    rw [Bool.and_eq_true, beq_iff_eq, mapEq_iff] at h
    rw [beq_record]
    exact ⟨h.1.symm, mapEq_symm hP (entries_of_children hx rfl) (entries_of_children hy rfl)
      (dx es rfl) (dy fs rfl) h.2⟩
  case h_14 => cases h

/-- One step of transitivity: it holds of three terms when symmetry and transitivity hold of the
terms inside them. -/
theorem beq_trans_step (hP : PartialEquivOn P) {x y z : Term} (hx : ∀ c ∈ x.children, P c)
    (hy : ∀ c ∈ y.children, P c) (hz : ∀ c ∈ z.children, P c)
    (dz : ∀ es ∈ z.entries?, es.KeysDistinct) (h₁ : x.beq y = true) (h₂ : y.beq z = true) :
    x.beq z = true := by
  rw [beq.eq_def] at h₁
  -- the kind of `y` fixes the kind of `z`; any other kind makes `h₂` false
  split at h₁
  case h_1 =>
    cases z <;> simp only [beq, Bool.false_eq_true] at h₂ ⊢
  case h_2 | h_3 | h_5 | h_6 | h_11 | h_12 | h_13 =>
    cases z <;> simp only [beq, Bool.false_eq_true] at h₂ ⊢
    exact BEq.trans h₁ h₂
  case h_4 =>
    cases z <;> simp only [beq, Bool.false_eq_true] at h₂ ⊢
    exact Double.beq_trans h₁ h₂
  case h_7 | h_8 =>
    cases z <;> simp only [beq, Bool.false_eq_true] at h₂ ⊢
    exact beqList_trans hP hx hy hz h₁ h₂
  case h_9 =>
    rw [mapEq_iff] at h₁
    cases z <;> simp only [beq, Bool.false_eq_true] at h₂ ⊢
    rw [mapEq_iff] at h₂ ⊢
    exact mapEq_trans hP (entries_of_children hx rfl) (entries_of_children hy rfl)
      (entries_of_children hz rfl) (dz _ rfl) h₁ h₂
  case h_10 =>
    rw [Bool.and_eq_true, beq_iff_eq, mapEq_iff] at h₁
    cases z <;> simp only [beq, Bool.false_eq_true] at h₂ ⊢
    rw [Bool.and_eq_true, beq_iff_eq, mapEq_iff] at h₂ ⊢
    exact ⟨h₁.1.trans h₂.1, mapEq_trans hP (entries_of_children hx rfl)
      (entries_of_children hy rfl) (entries_of_children hz rfl) (dz _ rfl) h₁.2 h₂.2⟩
  case h_14 => cases h₁

/-! ## Symmetry and transitivity, by size -/

/-- Strict equality is symmetric and transitive on the terms with distinct keys below any size:
the terms inside a term are smaller than it. -/
theorem partialEquivOn_sizeOf_lt :
    ∀ N : Nat, PartialEquivOn fun t => t.DistinctKeys ∧ sizeOf t < N
  | 0 => ⟨fun ha _ _ => absurd ha.2 (Nat.not_lt_zero _),
      fun ha _ _ _ _ => absurd ha.2 (Nat.not_lt_zero _)⟩
  | N + 1 => by
    have ih := partialEquivOn_sizeOf_lt N
    have hch : ∀ {t : Term}, t.DistinctKeys ∧ sizeOf t < N + 1 →
        ∀ c ∈ t.children, c.DistinctKeys ∧ sizeOf c < N := fun ht c hc =>
      ⟨ht.1.child hc, by have := sizeOf_lt_of_mem_children hc; omega⟩
    exact ⟨fun ha hb h => beq_symm_step ih (hch ha) (hch hb) ha.1.self hb.1.self h,
      fun ha hb hc h₁ h₂ => beq_trans_step ih (hch ha) (hch hb) (hch hc) hc.1.self h₁ h₂⟩

/-- **Strict equality is symmetric and transitive on terms whose maps have distinct keys.** -/
theorem partialEquivOn_distinctKeys : PartialEquivOn DistinctKeys where
  symm {a b} ha hb h :=
    (partialEquivOn_sizeOf_lt (sizeOf a + sizeOf b + 1)).symm ⟨ha, by omega⟩ ⟨hb, by omega⟩ h
  trans {a b c} ha hb hc h₁ h₂ :=
    (partialEquivOn_sizeOf_lt (sizeOf a + sizeOf b + sizeOf c + 1)).trans ⟨ha, by omega⟩
      ⟨hb, by omega⟩ ⟨hc, by omega⟩ h₁ h₂

/-! ## Reflexivity away from NaNs -/

theorem beqList_self {xs : List Term} (h : ∀ x ∈ xs, x.beq x = true) : beqList xs xs = true := by
  induction xs with
  | nil => simp [beqList]
  | cons x xs ih =>
    rw [beqList_cons, Bool.and_eq_true]
    exact ⟨h x List.mem_cons_self, ih fun y hy => h y (List.mem_cons_of_mem _ hy)⟩

/-- A map with distinct keys whose keys and values are equal to themselves finds each of its
entries in itself. -/
theorem mapEq_self {es : TermMap} (hd : es.KeysDistinct) (hkeys : ∀ e ∈ es, e.1.DistinctKeys)
    (h : ∀ e ∈ es, e.1.beq e.1 = true ∧ e.2.beq e.2 = true) : MapEq es es := by
  refine ⟨rfl, fun e he => ⟨e.2, ?_, (h e he).2⟩⟩
  exact TermMap.get?_of_mem partialEquivOn_distinctKeys hkeys (hkeys e he) hd he (h e he).1

/-- **A term with no NaN inside is strictly equal to itself**, when its maps have distinct
keys. -/
theorem beq_self {t : Term} (hd : t.DistinctKeys) (hn : t.NanFree) : t.beq t = true := by
  induction t using children_induction with
  | step t ih =>
    have hch : ∀ c ∈ t.children, c.beq c = true := fun c hc => ih c hc (hd.child hc) (hn.child hc)
    cases t with
    | float x =>
      have hx : x.isNaN = false := hn.self x rfl
      simp [beq, Double.beq, hx]
    | list xs | tuple xs =>
      simp only [beq]
      exact beqList_self hch
    | map es =>
      rw [beq_map]
      exact mapEq_self (hd.self es rfl) (fun e he => (hd.entries rfl e he).1)
        (entries_of_children hch rfl)
    | record n es =>
      rw [beq_record]
      exact ⟨rfl, mapEq_self (hd.self es rfl) (fun e he => (hd.entries rfl e he).1)
        (entries_of_children hch rfl)⟩
    | nil | bool _ | int _ | atom _ | str _ | bits _ | pid _ | ref _ => simp [beq]

end Term

namespace Bindings

/-! ## The consistency of bindings -/

/-- Two bindings that are checked under the same name hold strictly equal values. -/
def Agree (a b : Binding) : Prop :=
  ∀ n, a.name = some n → b.name = some n → a.value.beq b.value = true

/-- A binding holds a value strictly equal to the first value `seen` for its name, if any. -/
def AgreesWith (seen : List (String × Term)) (b : Binding) : Prop :=
  ∀ n f, b.name = some n → seen.lookup n = some f → f.beq b.value = true

theorem lookup_cons_self (n : String) (v : Term) (seen : List (String × Term)) :
    ((n, v) :: seen).lookup n = some v := by
  simp

theorem lookup_cons_of_ne {n m : String} (h : m ≠ n) (v : Term) (seen : List (String × Term)) :
    ((n, v) :: seen).lookup m = seen.lookup m := by
  have hne : (m == n) = false := beq_eq_false_iff_ne.2 h
  simp [List.lookup_cons, hne]

/-- Once a new name `n` is seen with value `v`, agreeing with what is seen means agreeing with
what was seen before and with the binding of `v`. -/
theorem agreesWith_cons {seen : List (String × Term)} {n : String} (hn : seen.lookup n = none)
    (v : Term) (b : Binding) :
    AgreesWith ((n, v) :: seen) b ↔ AgreesWith seen b ∧ Agree ⟨some n, v⟩ b := by
  constructor
  · intro h
    refine ⟨fun m f hm hf => ?_, fun m hm hbm => ?_⟩
    · have hmn : m ≠ n := by rintro rfl; rw [hn] at hf; cases hf
      exact h m f hm (by rwa [lookup_cons_of_ne hmn])
    · cases hm
      exact h n v hbm (lookup_cons_self n v seen)
  · rintro ⟨hseen, hagree⟩ m f hm hf
    by_cases hmn : m = n
    · subst hmn
      rw [lookup_cons_self, Option.some.injEq] at hf
      exact hf ▸ hagree m rfl hm
    · exact hseen m f hm (by rwa [lookup_cons_of_ne hmn] at hf)

/-- The check, with the first values `seen` of the names met before, passes exactly when every
binding agrees with what is seen and every two bindings agree. -/
theorem consistentFrom_iff {seen : List (String × Term)} {bs : Bindings}
    (hseen : ∀ n f, seen.lookup n = some f → f.DistinctKeys)
    (hbs : ∀ b ∈ bs, b.value.DistinctKeys) :
    consistentFrom seen bs = true ↔ (∀ b ∈ bs, AgreesWith seen b) ∧ bs.Pairwise Agree := by
  have hP := Term.partialEquivOn_distinctKeys
  induction bs generalizing seen with
  | nil => simp [consistentFrom]
  | cons b bs ih =>
    obtain ⟨name, v⟩ := b
    have hv : v.DistinctKeys := hbs _ List.mem_cons_self
    have hrest : ∀ b ∈ bs, b.value.DistinctKeys := fun b hb => hbs b (List.mem_cons_of_mem _ hb)
    have ih' : ∀ {seen : List (String × Term)}, (∀ n f, seen.lookup n = some f → f.DistinctKeys) →
        (consistentFrom seen bs = true ↔ (∀ b ∈ bs, AgreesWith seen b) ∧ bs.Pairwise Agree) :=
      fun hseen => ih hseen hrest
    simp only [List.forall_mem_cons, List.pairwise_cons]
    cases name with
    | none =>
      rw [consistentFrom, ih' hseen]
      simp [AgreesWith, Agree]
    | some n =>
      cases hn : seen.lookup n with
      | some f =>
        -- `v` is compared with the first value `f`; later bindings of `n` equal both
        have hf : f.DistinctKeys := hseen n f hn
        have hhead : AgreesWith seen ⟨some n, v⟩ ↔ f.beq v = true := by
          simp only [AgreesWith, Option.some.injEq]
          exact ⟨fun h => h n f rfl hn, by rintro h m g rfl hg; rw [hn] at hg; cases hg; exact h⟩
        rw [consistentFrom, hn, Bool.and_eq_true, ih' hseen, hhead]
        constructor
        · rintro ⟨hfv, hseenb, hpw⟩
          refine ⟨⟨hfv, hseenb⟩, fun b hb m hm hbm => ?_, hpw⟩
          cases hm
          exact hP.trans hv hf (hrest b hb) (hP.symm hf hv hfv) (hseenb b hb n f hbm hn)
        · rintro ⟨⟨hfv, hseenb⟩, -, hpw⟩
          exact ⟨hfv, hseenb, hpw⟩
      | none =>
        -- `v` becomes the first value of `n`
        have hseen' : ∀ m g, ((n, v) :: seen).lookup m = some g → g.DistinctKeys := by
          intro m g hg
          by_cases hmn : m = n
          · subst hmn
            rw [lookup_cons_self, Option.some.injEq] at hg
            exact hg ▸ hv
          · exact hseen m g (by rwa [lookup_cons_of_ne hmn] at hg)
        have hhead : AgreesWith seen ⟨some n, v⟩ := by
          rintro m g ⟨⟩ hg
          rw [hn] at hg
          cases hg
        rw [consistentFrom, hn, ih' hseen']
        simp only [agreesWith_cons hn]
        constructor
        · rintro ⟨hall, hpw⟩
          exact ⟨⟨hhead, fun b hb => (hall b hb).1⟩, fun b hb => (hall b hb).2, hpw⟩
        · rintro ⟨⟨-, hseenb⟩, hagree, hpw⟩
          exact ⟨fun b hb => ⟨hseenb b hb, hagree b hb⟩, hpw⟩

/-- **The check of a match compares every two bindings of a name**, when the values have
distinct keys: each binding is compared with the first of its name only, but strict equality is
symmetric and transitive on such values. -/
theorem consistent_iff {bs : Bindings} (hbs : ∀ b ∈ bs, b.value.DistinctKeys) :
    bs.consistent = true ↔ bs.Pairwise Agree := by
  rw [consistent, consistentFrom_iff (by simp) hbs]
  simp [AgreesWith]

end Bindings

namespace Term

/-- **Strict equality is a partial equivalence on the terms that can be built**: it is symmetric
and transitive on built terms and reflexive on those with no NaN inside, so the check of a match,
which compares each named binding with the first binding of its name only, passes exactly when
every two bindings of a name hold strictly equal values. -/
theorem strictEq_partialEquivalence :
    (∀ a b : Term, a.Built → b.Built → (a == b) = true → (b == a) = true) ∧
    (∀ a b c : Term, a.Built → b.Built → c.Built → (a == b) = true → (b == c) = true →
      (a == c) = true) ∧
    (∀ a : Term, a.Built → a.NanFree → (a == a) = true) ∧
    (∀ bs : Bindings, (∀ b ∈ bs, b.value.Built) →
      (bs.consistent = true ↔ bs.Pairwise Bindings.Agree)) :=
  ⟨fun _ _ ha hb h => partialEquivOn_distinctKeys.symm ha.distinctKeys hb.distinctKeys h,
    fun _ _ _ ha hb hc h₁ h₂ =>
      partialEquivOn_distinctKeys.trans ha.distinctKeys hb.distinctKeys hc.distinctKeys h₁ h₂,
    fun _ ha hn => beq_self ha.distinctKeys hn,
    fun _ hbs => Bindings.consistent_iff fun b hb => (hbs b hb).distinctKeys⟩

end Term

end ActorCore
