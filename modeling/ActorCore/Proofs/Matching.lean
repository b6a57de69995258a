import ActorCore.Pattern.Compile
import ActorCore.Proofs.Layout

/-!
# Matching is transactional

A compiled matcher pushes onto bindings it shares with the rest of a match, and its parts may
fail after they have pushed. Seen through `Matcher.test` none of this shows: a test either fails
and leaves the bindings exactly as they were, or succeeds and appends `Pattern.matches?` of the
pattern and the candidate, which depends on nothing else.

The argument has two levels. A raw action *only appends* (`Matcher.Appends`): whatever it pushes
goes after the bindings it was given, and when it accepts it has pushed exactly the expected
bindings. A transaction over such an action is exact (`transact_of_appends`): the cut back to
the entry mark removes whatever a failure left behind. Running transactions in sequence with
`allOf` only appends again (`allOf_cons`), and every resolver is such a sequence under a check of
the candidate's shape; one lemma per resolver says so, and an induction over the pattern,
mutual with its lists of items, entries and segments, puts them together.

Principal results:
* `Pattern.compile_appends` — every compiled matcher only appends, and appends `matches?`.
* `Pattern.test_eq`, `Pattern.compileSequence_test` — tests of patterns and of parameter lists
  are the transactions of `matches?` and `matchItems`.
* `Pattern.run_eq`, `Pattern.runAll_eq` — a full match keeps those bindings exactly when their
  repeated names agree.
-/

namespace ActorCore

namespace Matcher

/-- What a transactional match that binds `δ?` leaves: the bindings followed by `δ` when it
accepts, the bindings themselves when it does not. -/
def outcome (δ? : Option Bindings) (b : Bindings) : Bool × Bindings :=
  match δ? with
  | some δ => (true, b ++ δ)
  | none => (false, b)

/-- An action that only appends: the bindings it is given stay in front, it accepts exactly when
`δ?` holds bindings, and then it has appended exactly those. What a failing action appends is
left open. -/
def Appends (f : Bindings → Bool × Bindings) (δ? : Option Bindings) : Prop :=
  ∀ b, ∃ extra, f b = (δ?.isSome, b ++ extra) ∧ ∀ δ, δ? = some δ → extra = δ

theorem Appends.outcome (δ? : Option Bindings) : Appends (outcome δ?) δ? := by
  intro b
  cases δ? with
  | none => exact ⟨[], by simp [Matcher.outcome], by simp⟩
  | some δ => exact ⟨δ, rfl, by simp⟩

theorem Appends.reject : Appends (fun b => (false, b)) none :=
  fun _ => ⟨[], by simp, by simp⟩

theorem Appends.push (δ : Bindings) : Appends (fun b => (true, b ++ δ)) (some δ) :=
  fun _ => ⟨δ, rfl, by simp⟩

/-- Cutting back to the entry mark undoes whatever a failing action that only appends pushed. -/
theorem transact_of_appends {f : Bindings → Bool × Bindings} {δ? : Option Bindings}
    (h : Appends f δ?) (b : Bindings) : transact f b = outcome δ? b := by
  obtain ⟨extra, hf, hδ⟩ := h b
  cases δ? with
  | none => simp [transact, hf, outcome]
  | some δ =>
    rw [hδ δ rfl] at hf
    simp [transact, hf, outcome]

theorem fresh_of_appends {f : Bindings → Bool × Bindings} {δ? : Option Bindings}
    (h : Appends f δ?) : fresh f = δ?.filter Bindings.consistent := by
  unfold fresh
  rw [transact_of_appends h]
  cases δ? with
  | none => rfl
  | some δ => simp [outcome, Option.filter_some]

theorem allOf_nil : Appends (allOf []) (some []) :=
  fun _ => ⟨[], by simp [allOf], by simp⟩

/-- A transaction that binds `δ?₁`, then actions that append `δ?₂`: both are appended, in order,
and the run accepts when both do. -/
theorem allOf_cons {f : Bindings → Bool × Bindings} {fs : List (Bindings → Bool × Bindings)}
    {δ?₁ δ?₂ : Option Bindings} (hf : ∀ b, f b = outcome δ?₁ b) (hfs : Appends (allOf fs) δ?₂) :
    Appends (allOf (f :: fs)) (do let a ← δ?₁; let c ← δ?₂; pure (a ++ c)) := by
  intro b
  cases δ?₁ with
  | none => exact ⟨[], by simp [allOf, hf, outcome], by simp⟩
  | some a =>
    obtain ⟨extra, hrest, hδ⟩ := hfs (b ++ a)
    refine ⟨a ++ extra, ?_, ?_⟩
    · cases δ?₂ <;> simp [allOf, hf, outcome, hrest]
    · intro δ hsome
      cases δ?₂ with
      | none => simp at hsome
      | some c =>
        simp only [Option.pure_def, Option.bind_eq_bind, Option.bind_some,
          Option.some.injEq] at hsome
        rw [← hsome, hδ c rfl]

/-- Two transactions in a row, as a head and tail or a capture run them. -/
theorem allOf_pair {f g : Bindings → Bool × Bindings} {δ?₁ δ?₂ : Option Bindings}
    (hf : ∀ b, f b = outcome δ?₁ b) (hg : ∀ b, g b = outcome δ?₂ b) :
    Appends (allOf [f, g]) (do let a ← δ?₁; let c ← δ?₂; pure (a ++ c)) := by
  have h := allOf_cons hf (allOf_cons hg allOf_nil)
  cases δ?₁ <;> cases δ?₂ <;> simpa using h

end Matcher

namespace Pattern

open Matcher

/-- The counts of a parameter list and its arguments must agree. -/
theorem matchItems_eq_none_of_length_ne :
    ∀ {ps : List (Pattern Term)} {vs : List Term}, ps.length ≠ vs.length → matchItems ps vs = none
  | [], [], h => absurd rfl h
  | [], _ :: _, _ => rfl
  | _ :: _, [], _ => rfl
  | p :: ps, v :: vs, h => by
    have hrest : ps.length ≠ vs.length := by simpa using h
    simp [matchItems, matchItems_eq_none_of_length_ne hrest]

theorem compileItems_length : ∀ ps : List (Pattern Term), (compileItems ps).length = ps.length
  | [] => rfl
  | _ :: ps => by simp [compileItems, compileItems_length ps]

theorem compileSegments_length :
    ∀ segs : List (Segment Term), (compileSegments segs).length = segs.length
  | [] => rfl
  | .value _ _ :: segs => by simp [compileSegments, compileSegments_length segs]
  | .hole _ _ :: segs => by simp [compileSegments, compileSegments_length segs]

/-! ## One lemma per resolver

Each lemma takes what the matchers of the parts do as hypotheses, so that the induction below
only has to wire them together. -/

section Resolvers

variable {hp tp p : Pattern Term}

theorem var_appends (name : Option String) (ignored : Bool) (d : Option Term) (v : Term) :
    Appends ((Pattern.var name ignored d).compile.apply v) ((Pattern.var name ignored d).matches? v) :=
  Appends.push _

theorem wildcard_appends (v : Term) :
    Appends ((Pattern.wildcard : Pattern Term).compile.apply v) (Pattern.wildcard.matches? v) :=
  fun b => ⟨[], by simp [compile, Matcher.wildcard, matches?], by simp [matches?]⟩

theorem headTail_appends (hh : ∀ v, Appends (hp.compile.apply v) (hp.matches? v))
    (ht : ∀ v, Appends (tp.compile.apply v) (tp.matches? v)) (v : Term) :
    Appends ((Pattern.headTail hp tp).compile.apply v) ((Pattern.headTail hp tp).matches? v) := by
  cases v
  case list items =>
    cases items with
    | nil => exact Appends.reject
    | cons x xs =>
      exact allOf_pair (transact_of_appends (hh x)) (transact_of_appends (ht (.list xs)))
  all_goals exact Appends.reject

theorem startsWith_appends (pre : String) (v : Term) :
    Appends ((Pattern.startsWith pre : Pattern Term).compile.apply v)
      ((Pattern.startsWith pre).matches? v) := by
  cases v
  case str s =>
    cases h : afterPrefix? pre s with
    | none =>
      simp only [compile, Matcher.startsWith, matches?, h]
      exact Appends.reject
    | some rest =>
      simp only [compile, Matcher.startsWith, matches?, h]
      exact Appends.push _
  all_goals exact Appends.reject

theorem capture_appends (hi : ∀ v, Appends (p.compile.apply v) (p.matches? v)) (v : Term) :
    Appends ((Pattern.capture p).compile.apply v) ((Pattern.capture p).matches? v) := by
  have h := allOf_pair (transact_of_appends (hi v)) (fun b => (rfl : _ = outcome (some [⟨none, v⟩]) b))
  have e : (do let a ← p.matches? v; let c ← some [⟨none, v⟩]; pure (a ++ c)) =
      (Pattern.capture p).matches? v := by
    show _ = (p.matches? v).map (· ++ [⟨none, v⟩])
    cases p.matches? v <;> rfl
  rw [← e]
  exact h

theorem bound_appends (t v : Term) :
    Appends ((Pattern.bound t).compile.apply v) ((Pattern.bound t).matches? v) := by
  by_cases h : v.beq t
  · simp only [compile, Matcher.bound, matches?, h, if_true]
    exact Appends.push _
  · simp only [compile, Matcher.bound, matches?, h, Bool.false_eq_true, if_false]
    exact Appends.reject

theorem literal_appends (t v : Term) :
    Appends ((Pattern.literal t).compile.apply v) ((Pattern.literal t).matches? v) := by
  by_cases h : v.beq t
  · simp only [compile, Matcher.literal, matches?, h, if_true]
    exact fun b => ⟨[], by simp, by simp⟩
  · simp only [compile, Matcher.literal, matches?, h, Bool.false_eq_true, if_false]
    exact Appends.reject

/-- Lists and tuples: a count that differs fails at once, otherwise the items run in turn. -/
theorem elements_appends {ps : List (Pattern Term)}
    (hitems : ∀ vs, ps.length = vs.length →
      Appends (allOf (((compileItems ps).zip vs).map fun (m, v) => m.test v)) (matchItems ps vs))
    (vs : List Term) : Appends (Matcher.elements (compileItems ps) vs) (matchItems ps vs) := by
  intro b
  by_cases hlen : ps.length = vs.length
  · have hc : (compileItems ps).length = vs.length := by rw [compileItems_length, hlen]
    simpa only [Matcher.elements, hc, if_true] using hitems vs hlen b
  · have hc : ¬ (compileItems ps).length = vs.length := by rw [compileItems_length]; exact hlen
    simp only [Matcher.elements, hc, if_false, matchItems_eq_none_of_length_ne hlen]
    exact Appends.reject b

theorem list_appends {ps : List (Pattern Term)}
    (hitems : ∀ vs, ps.length = vs.length →
      Appends (allOf (((compileItems ps).zip vs).map fun (m, v) => m.test v)) (matchItems ps vs))
    (v : Term) : Appends ((Pattern.list ps).compile.apply v) ((Pattern.list ps).matches? v) := by
  cases v
  case list vs => exact elements_appends hitems vs
  all_goals exact Appends.reject

theorem tuple_appends {ps : List (Pattern Term)}
    (hitems : ∀ vs, ps.length = vs.length →
      Appends (allOf (((compileItems ps).zip vs).map fun (m, v) => m.test v)) (matchItems ps vs))
    (v : Term) : Appends ((Pattern.tuple ps).compile.apply v) ((Pattern.tuple ps).matches? v) := by
  cases v
  case tuple vs => exact elements_appends hitems vs
  all_goals exact Appends.reject

theorem record_appends {name : String} {fields : List (Term × Pattern Term)}
    (hfields : ∀ m, Appends (Matcher.entries (compileEntries fields) m) (matchEntries fields m))
    (v : Term) :
    Appends ((Pattern.record name fields).compile.apply v)
      ((Pattern.record name fields).matches? v) := by
  cases v
  case record n fs =>
    by_cases h : n = name
    · simp only [compile, Matcher.record, matches?, h, beq_self_eq_true, if_true]
      exact hfields fs
    · have h' : (n == name) = false := by simpa using h
      simp only [compile, Matcher.record, matches?, h', Bool.false_eq_true, if_false]
      exact Appends.reject
  all_goals exact Appends.reject

theorem map_appends {es : List (Term × Pattern Term)}
    (hentries : ∀ m, Appends (Matcher.entries (compileEntries es) m) (matchEntries es m))
    (v : Term) : Appends ((Pattern.map es).compile.apply v) ((Pattern.map es).matches? v) := by
  cases v
  case map fs => exact hentries fs
  case record _ fs => exact hentries fs
  all_goals exact Appends.reject

/-- The entries of a map or record: the first key's value must be present and accepted, then the
rest of the entries run. -/
theorem entries_cons {k : Term} {m : Matcher} {es : List (Term × Matcher)} {map : TermMap}
    {Δ : Term → Option Bindings} {δs? : Option Bindings} (hm : ∀ v, Appends (m.apply v) (Δ v))
    (hes : Appends (Matcher.entries es map) δs?) :
    Appends (Matcher.entries ((k, m) :: es) map)
      (do let v ← map.get? k; let a ← Δ v; let c ← δs?; pure (a ++ c)) := by
  have e : (do let a ← map.get? k >>= Δ; let c ← δs?; pure (a ++ c)) =
      (do let v ← map.get? k; let a ← Δ v; let c ← δs?; pure (a ++ c)) := by
    cases map.get? k <;> rfl
  rw [← e]
  -- the entry's step looks its key up, and runs the matcher on the value found
  refine allOf_cons (fun b => ?_) hes
  dsimp only
  cases map.get? k with
  | none => rfl
  | some v => exact transact_of_appends (hm v) b

/-- The steps of a binary pattern against the windows of its segments. -/
abbrev SegmentSteps (segs : List (Segment Term)) (ws : List Binary.Window)
    (template bytes : List UInt8) : List (Bindings → Bool × Bindings) :=
  ((ws.zip (compileSegments segs)).map fun (w, bind) => Step.mk w bind).map
    fun st => st.apply bytes template

theorem matchSegments_value_cons (s : Binary.Spec) (x : Term) (segs : List (Segment Term))
    (w : Binary.Window) (ws : List Binary.Window) (template bytes : List UInt8) :
    matchSegments (.value s x :: segs) (w :: ws) template bytes =
      ((w.slice bytes >>= fun actual => if w.slice template = some actual then some [] else none)
        >>= fun a => matchSegments segs ws template bytes >>= fun c => pure (a ++ c)) := by
  rw [matchSegments]
  cases w.slice bytes with
  | none => rfl
  | some actual =>
    simp only [Option.bind_eq_bind, Option.bind_some]
    split <;> rfl

theorem matchSegments_hole_cons (s : Binary.Spec) (p : Pattern Term) (segs : List (Segment Term))
    (w : Binary.Window) (ws : List Binary.Window) (template bytes : List UInt8) :
    matchSegments (.hole s p :: segs) (w :: ws) template bytes =
      ((w.slice bytes >>= fun actual => Binary.decode s actual >>= p.matches?)
        >>= fun a => matchSegments segs ws template bytes >>= fun c => pure (a ++ c)) := by
  rw [matchSegments]
  cases w.slice bytes with
  | none => rfl
  | some actual =>
    simp only [Option.bind_eq_bind, Option.bind_some]
    cases Binary.decode s actual <;> rfl

theorem segment_value_cons {s : Binary.Spec} {x : Term} {segs : List (Segment Term)}
    {w : Binary.Window} {ws : List Binary.Window} {template bytes : List UInt8}
    (hrest : Appends (allOf (SegmentSteps segs ws template bytes))
      (matchSegments segs ws template bytes)) :
    Appends (allOf (SegmentSteps (.value s x :: segs) (w :: ws) template bytes))
      (matchSegments (.value s x :: segs) (w :: ws) template bytes) := by
  have hf : ∀ b, Step.apply ⟨w, none⟩ bytes template b =
      outcome (do let actual ← w.slice bytes
                  if w.slice template = some actual then some [] else none) b := by
    intro b
    simp only [Step.apply]
    cases w.slice bytes with
    | none => rfl
    | some actual => by_cases he : w.slice template = some actual <;> simp [he, outcome]
  rw [matchSegments_value_cons]
  exact allOf_cons hf hrest

theorem segment_hole_cons {s : Binary.Spec} {segs : List (Segment Term)}
    {w : Binary.Window} {ws : List Binary.Window} {template bytes : List UInt8}
    (hp : ∀ v, Appends (p.compile.apply v) (p.matches? v))
    (hrest : Appends (allOf (SegmentSteps segs ws template bytes))
      (matchSegments segs ws template bytes)) :
    Appends (allOf (SegmentSteps (.hole s p :: segs) (w :: ws) template bytes))
      (matchSegments (.hole s p :: segs) (w :: ws) template bytes) := by
  have hf : ∀ b, Step.apply ⟨w, some (s, p.compile)⟩ bytes template b =
      outcome (w.slice bytes >>= fun actual => Binary.decode s actual >>= p.matches?) b := by
    intro b
    simp only [Step.apply]
    cases w.slice bytes with
    | none => rfl
    | some actual =>
      simp only [Option.bind_eq_bind, Option.bind_some]
      cases Binary.decode s actual with
      | none => rfl
      | some decoded => exact transact_of_appends (hp decoded) b
  rw [matchSegments_hole_cons]
  exact allOf_cons hf hrest

/-- A binary pattern: a byte string or string of the layout's length, then the steps of its
segments, one window each. -/
theorem binary_appends {segments : List (Segment Term)}
    (hsegs : ∀ ws template bytes, ws.length = segments.length →
      Appends (allOf (SegmentSteps segments ws template bytes))
        (matchSegments segments ws template bytes))
    (v : Term) :
    Appends ((Pattern.binary segments).compile.apply v) ((Pattern.binary segments).matches? v) := by
  cases hl : Binary.Layout.build (segments.map Segment.plan) with
  | error e =>
    simp only [compile, matches?, hl]
    cases candidateBytes? v <;> exact Appends.reject
  | ok layout =>
    have hlen : layout.windows.length = segments.length := by
      simpa using Binary.Layout.build_windows_length hl
    cases hb : candidateBytes? v with
    | none =>
      simp only [compile, matches?, hl, hb, Matcher.binary]
      exact Appends.reject
    | some bytes =>
      by_cases hfit : layout.fits bytes.length
      · simp only [compile, matches?, hl, hb, Matcher.binary, hfit, if_true]
        exact hsegs _ _ _ hlen
      · simp only [compile, matches?, hl, hb, Matcher.binary, hfit, Bool.false_eq_true, if_false]
        exact Appends.reject

end Resolvers

/-! ## The induction over patterns -/

mutual

/-- Every compiled matcher only appends, and on success appends exactly `matches?`. -/
theorem compile_appends : ∀ (p : Pattern Term) (v : Term), Appends (p.compile.apply v) (p.matches? v)
  | .var name ignored d, v => var_appends name ignored d v
  | .wildcard, v => wildcard_appends v
  | .headTail h t, v => headTail_appends (compile_appends h) (compile_appends t) v
  | .startsWith pre, v => startsWith_appends pre v
  | .capture p, v => capture_appends (compile_appends p) v
  | .bound t, v => bound_appends t v
  | .record _ fields, v => record_appends (compileEntries_appends fields) v
  | .binary segments, v => binary_appends (compileSegments_appends segments) v
  | .list items, v => list_appends (compileItems_appends items) v
  | .tuple items, v => tuple_appends (compileItems_appends items) v
  | .literal t, v => literal_appends t v
  | .map entries, v => map_appends (compileEntries_appends entries) v

theorem compileItems_appends : ∀ (ps : List (Pattern Term)) (vs : List Term),
    ps.length = vs.length →
    Appends (allOf (((compileItems ps).zip vs).map fun (m, v) => m.test v)) (matchItems ps vs)
  | [], [], _ => allOf_nil
  | [], _ :: _, h => absurd h (by simp)
  | _ :: _, [], h => absurd h (by simp)
  | p :: ps, v :: vs, h =>
    allOf_cons (transact_of_appends (compile_appends p v))
      (compileItems_appends ps vs (by simpa using h))

theorem compileEntries_appends : ∀ (es : List (Term × Pattern Term)) (m : TermMap),
    Appends (Matcher.entries (compileEntries es) m) (matchEntries es m)
  | [], _ => allOf_nil
  | (_, p) :: es, m => entries_cons (compile_appends p) (compileEntries_appends es m)

theorem compileSegments_appends : ∀ (segs : List (Segment Term)) (ws : List Binary.Window)
    (template bytes : List UInt8), ws.length = segs.length →
    Appends (allOf (SegmentSteps segs ws template bytes)) (matchSegments segs ws template bytes)
  | [], [], _, _, _ => allOf_nil
  | [], _ :: _, _, _, h => absurd h (by simp)
  | _ :: _, [], _, _, h => absurd h (by simp)
  | .value _ _ :: segs, _ :: ws, template, bytes, h =>
    segment_value_cons (compileSegments_appends segs ws template bytes (by simpa using h))
  | .hole _ p :: segs, _ :: ws, template, bytes, h =>
    segment_hole_cons (compile_appends p)
      (compileSegments_appends segs ws template bytes (by simpa using h))

end

/-! ## Tests and full matches -/

theorem test_eq (p : Pattern Term) (v : Term) (b : Bindings) :
    p.test v b = outcome (p.matches? v) b :=
  transact_of_appends (compile_appends p v) b

theorem run_eq (p : Pattern Term) (v : Term) : p.run v = (p.matches? v).filter Bindings.consistent :=
  fresh_of_appends (compile_appends p v)

theorem compileSequence_test (ps : List (Pattern Term)) (vs : List Term) (b : Bindings) :
    (compileSequence ps).test vs b = outcome (matchItems ps vs) b :=
  transact_of_appends (elements_appends (compileItems_appends ps) vs) b

theorem runAll_eq (ps : List (Pattern Term)) (vs : List Term) :
    runAll ps vs = (matchItems ps vs).filter Bindings.consistent :=
  fresh_of_appends (elements_appends (compileItems_appends ps) vs)

/-- **Matching is transactional and append-only.** A test of a pattern, or of a parameter list,
either fails and leaves the bindings exactly as they were, or succeeds and leaves them followed
by bindings that depend on the pattern and the candidate alone; a full match returns those
bindings exactly when the test succeeds and their repeated names agree. -/
theorem test_transactional :
    (∀ (p : Pattern Term) (v : Term) (b : Bindings),
      p.test v b = match p.matches? v with
        | some δ => (true, b ++ δ)
        | none => (false, b)) ∧
    (∀ (ps : List (Pattern Term)) (vs : List Term) (b : Bindings),
      (compileSequence ps).test vs b = match matchItems ps vs with
        | some δ => (true, b ++ δ)
        | none => (false, b)) ∧
    (∀ (p : Pattern Term) (v : Term),
      p.run v = match p.matches? v with
        | some δ => if δ.consistent then some δ else none
        | none => none) := by
  refine ⟨test_eq, compileSequence_test, fun p v => ?_⟩
  rw [run_eq]
  cases p.matches? v <;> simp [Option.filter_some]

end Pattern

end ActorCore
