import Mathlib.Data.List.Forall2
import ActorCore.Comprehension

/-!
# Comprehensions walk the product of their generators in order

A comprehension over generators `g₁ … gₖ` evaluates its body on every row that takes one accepted
item from each generator, the first generator outermost, a row being the values its items bound,
concatenated. The model builds the rows by folding each generator into the rows built so far
(`Generator.product`). `Generator.rows` says which rows there are, and in what order, without a
fold: `choices` lists every choice of one entry per list, in lexicographic order of the positions
chosen, and a row is a choice's bindings concatenated (`product_eq_rows`).

The rows a filter keeps are then evaluated in order, and the first body that fails ends the walk.
For a filter that never panics this is a traversal of the kept rows (`collect_pure`), whose
results and first failure `mapM_eq_ok_iff` and `mapM_eq_error_iff` spell out. A binary
comprehension looks at the kinds of the results only once every body has run, so a failing body
takes precedence over a result that is neither a byte string nor a string
(`bitsComprehension_eq_error_iff`).

A generator over a byte string cuts it into `⌊|bs| / w⌋` chunks of `w` bytes, `w` the fixed width
of its pattern (`chunks_eq_range`).

Principal result: `comprehension_rows_in_order`.
-/

namespace ActorCore

/-- Every choice of one entry from each list, the first list outermost: the choices come in
lexicographic order of the positions chosen. -/
def choices {α : Type} : List (List α) → List (List α)
  | [] => [[]]
  | xs :: rest => xs.flatMap fun x => (choices rest).map (x :: ·)

/-- `e` is the error of the first element on which `f` fails: `f` succeeds on every element
before it. -/
def FirstFailure {α β ε : Type} (f : α → Except ε β) (xs : List α) (e : ε) : Prop :=
  ∃ pre x post, xs = pre ++ x :: post ∧ (∀ y ∈ pre, ∃ b, f y = .ok b) ∧ f x = .error e

/-! ## Traversals that stop at the first failure -/

section Traversal

variable {α β ε : Type} {f : α → Except ε β}

theorem mapM_eq_ok_iff {xs : List α} {ys : List β} :
    xs.mapM f = .ok ys ↔ List.Forall₂ (fun x y => f x = .ok y) xs ys := by
  induction xs generalizing ys with
  | nil =>
    rw [List.forall₂_nil_left_iff]
    exact ⟨fun h => (Except.ok.inj h).symm, fun h => h ▸ rfl⟩
  | cons x xs ih =>
    rw [List.mapM_cons, List.forall₂_cons_left_iff]
    cases hx : f x with
    | error e =>
      simp only [bind, Except.bind, reduceCtorEq, false_iff]
      rintro ⟨y, -, hy, -, -⟩
      cases hy
    | ok y =>
      simp only [bind, Except.bind]
      cases hxs : xs.mapM f with
      | error e =>
        simp only [reduceCtorEq, false_iff]
        rintro ⟨_, ys', -, hys', -⟩
        rw [ih.2 hys'] at hxs
        cases hxs
      | ok ys' =>
        simp only [pure, Except.pure, Except.ok.injEq]
        constructor
        · rintro rfl
          exact ⟨y, ys', rfl, ih.1 hxs, rfl⟩
        · rintro ⟨y', ys'', hy, hys'', rfl⟩
          cases hy
          rw [ih.2 hys''] at hxs
          cases hxs
          rfl

theorem mapM_eq_error_iff {xs : List α} {e : ε} : xs.mapM f = .error e ↔ FirstFailure f xs e := by
  induction xs generalizing e with
  | nil =>
    refine ⟨(fun h => nomatch h), ?_⟩
    rintro ⟨pre, x, post, h, -⟩
    cases pre <;> cases h
  | cons x xs ih =>
    rw [List.mapM_cons]
    cases hx : f x with
    | error e' =>
      simp only [bind, Except.bind, Except.error.injEq]
      constructor
      · rintro rfl
        exact ⟨[], x, xs, rfl, (fun _ h => nomatch h), hx⟩
      · rintro ⟨pre, y, post, h, hpre, hy⟩
        -- the first element fails, so nothing before it can be the first failure
        cases pre with
        | nil =>
          obtain ⟨rfl, -⟩ := List.cons.inj h
          rw [hx] at hy
          exact Except.error.inj hy
        | cons z pre =>
          obtain ⟨hxz, -⟩ := List.cons.inj h
          obtain ⟨b, hb⟩ := hpre z List.mem_cons_self
          rw [← hxz, hx] at hb
          cases hb
    | ok b =>
      simp only [bind, Except.bind]
      cases hxs : xs.mapM f with
      | error e' =>
        simp only [Except.error.injEq]
        constructor
        · rintro rfl
          obtain ⟨pre, y, post, hxs', hpre, hy⟩ := ih.1 hxs
          refine ⟨x :: pre, y, post, by rw [hxs']; rfl, fun z hz => ?_, hy⟩
          rcases List.mem_cons.1 hz with rfl | hz
          · exact ⟨b, hx⟩
          · exact hpre z hz
        · rintro ⟨pre, y, post, h, hpre, hy⟩
          cases pre with
          | nil =>
            obtain ⟨rfl, -⟩ := List.cons.inj h
            rw [hx] at hy
            cases hy
          | cons z pre =>
            obtain ⟨-, hrest⟩ := List.cons.inj h
            have hfail := ih.2 ⟨pre, y, post, hrest, fun w hw => hpre w (List.mem_cons_of_mem _ hw), hy⟩
            rw [hxs] at hfail
            exact Except.error.inj hfail
      | ok bs =>
        simp only [pure, Except.pure, reduceCtorEq, false_iff]
        rintro ⟨pre, y, post, h, hpre, hy⟩
        cases pre with
        | nil =>
          obtain ⟨rfl, -⟩ := List.cons.inj h
          rw [hx] at hy
          cases hy
        | cons z pre =>
          obtain ⟨-, hrest⟩ := List.cons.inj h
          have hfail := ih.2 ⟨pre, y, post, hrest, fun w hw => hpre w (List.mem_cons_of_mem _ hw), hy⟩
          rw [hxs] at hfail
          cases hfail

end Traversal

/-! ## Rows -/

namespace Generator

/-- The rows of a comprehension: every choice of one accepted item's bindings per generator, the
first generator outermost, each row the chosen bindings concatenated. -/
def rows (gs : List Generator) : List (List Term) :=
  (choices (gs.map bindings)).map List.flatten

/-- Folding generators into rows built so far extends each row, in order, by every row of the
generators. -/
theorem foldl_product (gs : List Generator) (acc : List (List Term)) :
    gs.foldl (fun rows g => rows.flatMap fun row => g.bindings.map (row ++ ·)) acc =
      acc.flatMap fun row => (rows gs).map (row ++ ·) := by
  induction gs generalizing acc with
  | nil => simp [rows, choices]
  | cons g gs ih =>
    rw [List.foldl_cons, ih]
    simp [rows, choices, List.flatMap_assoc, List.map_flatMap, List.flatMap_map, Function.comp_def]

/-- **The fold builds the lexicographic product**, the first generator outermost. -/
theorem product_eq_rows (gs : List Generator) : product gs = rows gs := by
  simp [product, foldl_product]

end Generator

/-! ## Collecting the results -/

/-- The rows a filter keeps; with no filter, every row. -/
def keptBy (keep : Option (List Term → Bool)) (rows : List (List Term)) : List (List Term) :=
  rows.filter fun row => keep.all fun f => f row

/-- A filter that never panics, as a comprehension takes it. -/
def pureFilter (keep : Option (List Term → Bool)) : Option (List Term → Except Panic Bool) :=
  keep.map fun f row => pure (f row)

/-- With a filter that never panics, collecting is a traversal of the rows it keeps. -/
theorem collect_pure (keep : Option (List Term → Bool)) (body : List Term → Except Fault Term)
    (rows : List (List Term)) : collect (pureFilter keep) body rows = (keptBy keep rows).mapM body := by
  induction rows with
  | nil => rfl
  | cons row rows ih =>
    cases keep with
    | none =>
      simp only [pureFilter, keptBy, Option.map_none, Option.all_none] at ih ⊢
      simp [collect, ih]
    | some f =>
      simp only [pureFilter, keptBy, Option.map_some, Option.all_some] at ih ⊢
      -- a filter that never panics answers at once
      have hkeep : ∀ b : Bool, (pure b : Except Panic Bool).mapError Fault.panic = pure b :=
        fun _ => rfl
      by_cases hf : f row = true
      · simp [collect, hkeep, hf, ih]
      · simp [collect, hkeep, hf, ih]

/-- A result adds bytes exactly when it is a byte string or a string; anything else is a bad
match of itself. -/
theorem bytesOfResult_eq_error_iff {v : Term} {e : Fault} :
    bytesOfResult v = .error e ↔ (∀ b, v ≠ .bits b) ∧ (∀ s, v ≠ .str s) ∧ e = .error (.badMatch v) := by
  cases v <;> simp [bytesOfResult, pure, Except.pure, throw, throwThe, MonadExceptOf.throw, eq_comm]

/-! ## Generators -/

/-- Chunks of `w` bytes: the `i`-th starts at byte `i * w`, and there are `⌊n / w⌋` of them. -/
theorem chunks_eq_range {w : Nat} (hw : 0 < w) (bytes : List UInt8) :
    chunks w bytes = (List.range (bytes.length / w)).map fun i => (bytes.drop (i * w)).take w := by
  induction bytes using chunks.induct w with
  | case1 bytes h ih =>
    rw [chunks, dif_pos h, ih]
    have hlen : bytes.length / w = (bytes.length - w) / w + 1 := by
      rw [Nat.div_eq_sub_div hw h.2]
    rw [List.length_drop, hlen, List.range_succ_eq_map]
    simp [List.drop_drop, Nat.succ_mul, Nat.add_comm]
  | case2 bytes h =>
    rw [chunks, dif_neg h]
    have hlt : bytes.length < w := by omega
    simp [Nat.div_eq_of_lt hlt]

/-- The generator over a byte string and a binary pattern that can be laid out: the chunks of
the pattern's fixed width when it is positive, and a bad match of the source otherwise. -/
theorem ofBits_eq_ok_iff {segments : List (Segment Term)} {layout : Binary.Layout}
    (hl : Pattern.binaryLayout segments = .ok layout) (source : List UInt8) (g : Generator) :
    Generator.ofBits segments source = .ok g ↔
      ∃ w, layout.fixedWidth = some w ∧ 0 < w ∧
        g = ⟨.binary segments, (List.range (source.length / w)).map fun i =>
          .bits ((source.drop (i * w)).take w)⟩ := by
  simp only [Generator.ofBits, hl, Except.mapError, bind, Except.bind]
  cases hw : layout.fixedWidth with
  | none => simp [throw, throwThe, MonadExceptOf.throw]
  | some w =>
    by_cases hpos : 0 < w
    · simp [hpos, pure, Except.pure, chunks_eq_range hpos, eq_comm, Function.comp_def]
    · simp [hpos, throw, throwThe, MonadExceptOf.throw]

theorem ofBits_eq_error_iff {segments : List (Segment Term)} {layout : Binary.Layout}
    (hl : Pattern.binaryLayout segments = .ok layout) (source : List UInt8) (e : RuntimeError) :
    Generator.ofBits segments source = .error e ↔
      (∀ w, layout.fixedWidth = some w → w = 0) ∧ e = .badMatch (.bits source) := by
  simp only [Generator.ofBits, hl, Except.mapError, bind, Except.bind]
  cases hw : layout.fixedWidth with
  | none => simp [throw, throwThe, MonadExceptOf.throw, eq_comm]
  | some w =>
    by_cases hpos : 0 < w
    · simp [hpos, pure, Except.pure]
      omega
    · simp [hpos, throw, throwThe, MonadExceptOf.throw, eq_comm]
      omega

/-- A list generator over anything but a list is a bad match of its source. -/
theorem ofList_eq_error {p : Pattern Term} {source : Term} (h : ∀ items, source ≠ .list items) :
    Generator.ofList p source = .error (.badMatch source) := by
  unfold Generator.ofList
  split
  · exact absurd rfl (h _)
  · rfl

/-! ## The results of a comprehension over known rows

Each lemma takes the collection of the results as a traversal of the rows. -/

section Results

variable {gs : List Generator} {filter : Option (List Term → Except Panic Bool)}
  {body : List Term → Except Fault Term} {rows : List (List Term)}

theorem listComprehension_eq_ok_iff (hc : collect filter body (Generator.product gs) = rows.mapM body)
    {vs : List Term} :
    listComprehension gs filter body = .ok (.list vs) ↔
      List.Forall₂ (fun row v => body row = .ok v) rows vs := by
  rw [listComprehension, hc, ← mapM_eq_ok_iff]
  cases rows.mapM body <;> simp [Except.map]

theorem listComprehension_eq_error_iff
    (hc : collect filter body (Generator.product gs) = rows.mapM body) {e : Fault} :
    listComprehension gs filter body = .error e ↔ FirstFailure body rows e := by
  rw [listComprehension, hc, ← mapM_eq_error_iff]
  cases rows.mapM body <;> simp [Except.map]

/-- The bodies all succeed, then every result adds its bytes. -/
theorem bitsComprehension_eq_ok_iff
    (hc : collect filter body (Generator.product gs) = rows.mapM body) {bytes : List UInt8} :
    bitsComprehension gs filter body = .ok (.bits bytes) ↔
      ∃ vs parts, List.Forall₂ (fun row v => body row = .ok v) rows vs ∧
        List.Forall₂ (fun v p => bytesOfResult v = .ok p) vs parts ∧ bytes = parts.flatten := by
  simp only [bitsComprehension, hc]
  constructor
  · intro h
    cases hm : rows.mapM body with
    | error e => simp [hm, bind, Except.bind] at h
    | ok vs =>
      cases hp : vs.mapM bytesOfResult with
      | error e => simp [hm, hp, bind, Except.bind] at h
      | ok parts =>
        simp [hm, hp, bind, Except.bind, pure, Except.pure] at h
        exact ⟨vs, parts, mapM_eq_ok_iff.1 hm, mapM_eq_ok_iff.1 hp, h.symm⟩
  · rintro ⟨vs, parts, hvs, hparts, rfl⟩
    simp [mapM_eq_ok_iff.2 hvs, mapM_eq_ok_iff.2 hparts, bind, Except.bind, pure, Except.pure]

/-- A failing body comes first; the kinds of the results are looked at only after every body
has run. -/
theorem bitsComprehension_eq_error_iff
    (hc : collect filter body (Generator.product gs) = rows.mapM body) {e : Fault} :
    bitsComprehension gs filter body = .error e ↔
      FirstFailure body rows e ∨
      ∃ vs, List.Forall₂ (fun row v => body row = .ok v) rows vs ∧
        ∃ pre v post, vs = pre ++ v :: post ∧ (∀ u ∈ pre, ∃ p, bytesOfResult u = .ok p) ∧
          (∀ b, v ≠ .bits b) ∧ (∀ s, v ≠ .str s) ∧ e = .error (.badMatch v) := by
  simp only [bitsComprehension, hc]
  constructor
  · intro h
    cases hm : rows.mapM body with
    | error e' =>
      simp only [hm, bind, Except.bind, Except.error.injEq] at h
      subst h
      exact .inl (mapM_eq_error_iff.1 hm)
    | ok vs =>
      cases hp : vs.mapM bytesOfResult with
      | error e' =>
        simp only [hm, hp, bind, Except.bind, Except.error.injEq] at h
        subst h
        obtain ⟨pre, v, post, hvs, hpre, hv⟩ := mapM_eq_error_iff.1 hp
        obtain ⟨hb, hs, he⟩ := bytesOfResult_eq_error_iff.1 hv
        exact .inr ⟨vs, mapM_eq_ok_iff.1 hm, pre, v, post, hvs, hpre, hb, hs, he⟩
      | ok parts => simp [hm, hp, bind, Except.bind, pure, Except.pure] at h
  · rintro (hfirst | ⟨vs, hvs, pre, v, post, hsplit, hpre, hb, hs, he⟩)
    · simp [mapM_eq_error_iff.2 hfirst, bind, Except.bind]
    · have hp : vs.mapM bytesOfResult = .error e :=
        mapM_eq_error_iff.2 ⟨pre, v, post, hsplit, hpre, bytesOfResult_eq_error_iff.2 ⟨hb, hs, he⟩⟩
      simp [mapM_eq_ok_iff.2 hvs, hp, bind, Except.bind]

end Results

/-! ## Comprehensions -/

/-- **Comprehensions enumerate the product of their generators in order.** Let `rows` be every
choice of one accepted item's bindings per generator, the first generator outermost, each
concatenated, that the filter keeps (it never panics). A list comprehension returns the body's
results on `rows`, in order, when every body succeeds, and otherwise the error of the first row
whose body fails. A binary comprehension fails with that same first error; else with a bad match
of the first result that is neither a byte string nor a string; else it returns the results'
bytes, concatenated in order. A list generator draws the items of a list and fails on any other
source; a generator over a byte string draws its `⌊n / w⌋` consecutive chunks of `w` bytes, `w`
the fixed width of its pattern, when that is positive, and is a bad match of the source
otherwise. -/
theorem comprehension_rows_in_order (gs : List Generator) (keep : Option (List Term → Bool))
    (body : List Term → Except Fault Term) :
    let rows := keptBy keep (Generator.rows gs)
    (∀ vs, listComprehension gs (pureFilter keep) body = .ok (.list vs) ↔
      List.Forall₂ (fun row v => body row = .ok v) rows vs) ∧
    (∀ e, listComprehension gs (pureFilter keep) body = .error e ↔ FirstFailure body rows e) ∧
    (∀ bytes, bitsComprehension gs (pureFilter keep) body = .ok (.bits bytes) ↔
      ∃ vs parts, List.Forall₂ (fun row v => body row = .ok v) rows vs ∧
        List.Forall₂ (fun v p => bytesOfResult v = .ok p) vs parts ∧ bytes = parts.flatten) ∧
    (∀ e, bitsComprehension gs (pureFilter keep) body = .error e ↔
      FirstFailure body rows e ∨
      ∃ vs, List.Forall₂ (fun row v => body row = .ok v) rows vs ∧
        ∃ pre v post, vs = pre ++ v :: post ∧ (∀ u ∈ pre, ∃ p, bytesOfResult u = .ok p) ∧
          (∀ b, v ≠ .bits b) ∧ (∀ s, v ≠ .str s) ∧ e = .error (.badMatch v)) ∧
    (∀ p items, Generator.ofList p (.list items) = .ok ⟨p, items⟩) ∧
    (∀ p source, (∀ items, source ≠ .list items) →
      Generator.ofList p source = .error (.badMatch source)) ∧
    ∀ segments layout source, Pattern.binaryLayout segments = .ok layout →
      (∀ g, Generator.ofBits segments source = .ok g ↔
        ∃ w, layout.fixedWidth = some w ∧ 0 < w ∧
          g = ⟨.binary segments, (List.range (source.length / w)).map fun i =>
            .bits ((source.drop (i * w)).take w)⟩) ∧
      ∀ e, Generator.ofBits segments source = .error e ↔
        (∀ w, layout.fixedWidth = some w → w = 0) ∧ e = .badMatch (.bits source) := by
  intro rows
  -- with a filter that never panics, the results are a traversal of the kept rows
  have hc : collect (pureFilter keep) body (Generator.product gs) = rows.mapM body := by
    rw [Generator.product_eq_rows, collect_pure]
  exact ⟨fun _ => listComprehension_eq_ok_iff hc, fun _ => listComprehension_eq_error_iff hc,
    fun _ => bitsComprehension_eq_ok_iff hc, fun _ => bitsComprehension_eq_error_iff hc,
    fun _ _ => rfl, fun _ _ h => ofList_eq_error h,
    fun _ _ source hl => ⟨ofBits_eq_ok_iff hl source, ofBits_eq_error_iff hl source⟩⟩

/-- Three one-byte integers cut seven bytes into two pixels, and the short tail is dropped. -/
theorem comprehension_rows_pixels :
    let pixel : List (Segment Term) := [.hole ⟨.integer, none, none, []⟩ (.var none false none),
      .hole ⟨.integer, none, none, []⟩ (.var none false none),
      .hole ⟨.integer, none, none, []⟩ (.var none false none)]
    (∃ layout, Pattern.binaryLayout pixel = .ok layout) ∧
      Generator.ofBits pixel [1, 2, 3, 4, 5, 6, 7] =
        .ok ⟨.binary pixel, [.bits [1, 2, 3], .bits [4, 5, 6]]⟩ ∧
      Generator.ofList .wildcard (.int 1) = .error (.badMatch (.int 1)) := by
  intro pixel
  have hgen := comprehension_rows_in_order [] none fun _ => .ok .nil
  refine ⟨⟨_, rfl⟩, ((hgen.2.2.2.2.2.2 pixel _ [1, 2, 3, 4, 5, 6, 7] rfl).1 _).2
    ⟨3, rfl, by decide, rfl⟩, hgen.2.2.2.2.2.1 .wildcard (.int 1) fun _ h => nomatch h⟩

end ActorCore
