import ActorCore.Proofs.Matching

/-!
# Binding positions are static

Clause bodies, guards and receive bodies read the values a match binds by position, so the
positions must not depend on the candidate. `Pattern.signature` computes, from the pattern alone,
the names that the bindings of a match carry: a variable gives one entry under its checked name;
a string prefix, a pinned value and the whole value of a capture give one unnamed entry each;
the wildcard and literals give none; every other kind gives the entries of its parts in pattern
order, where the segments of a binary that hold a pattern count and those that hold a value do
not.

The argument follows `Pattern.matches?` case by case: one lemma per kind of pattern, which takes
what the parts bind as hypotheses, and an induction over the pattern, mutual with its lists of
items, entries and segments, that wires them together.

Principal result: `Pattern.binding_names_static` — whenever a compiled matcher accepts a term,
the bindings it appends carry exactly the names of the signature, in order, so every full match
binds exactly as many values as the signature has entries.
-/

namespace ActorCore

namespace Pattern

mutual

/-- The names of the bindings a match of the pattern makes, in order. -/
def signature {α : Type} : Pattern α → List (Option String)
  | .var name ignored _ => [checkedName name ignored]
  | .wildcard => []
  | .headTail h t => signature h ++ signature t
  | .startsWith _ => [none]
  | .capture p => signature p ++ [none]
  | .bound _ => [none]
  | .record _ fields => entriesSignature fields
  | .binary segments => segmentsSignature segments
  | .list items => itemsSignature items
  | .tuple items => itemsSignature items
  | .literal _ => []
  | .map entries => entriesSignature entries

/-- The signatures of a list of patterns, one after another. -/
def itemsSignature {α : Type} : List (Pattern α) → List (Option String)
  | [] => []
  | p :: ps => signature p ++ itemsSignature ps

/-- The signatures of the patterns of entries, in entry order. -/
def entriesSignature {α : Type} : List (α × Pattern α) → List (Option String)
  | [] => []
  | (_, p) :: es => signature p ++ entriesSignature es

/-- The signatures of the patterns the segments hold; a segment that holds a value binds
nothing. -/
def segmentsSignature {α : Type} : List (Segment α) → List (Option String)
  | [] => []
  | .value _ _ :: rest => segmentsSignature rest
  | .hole _ p :: rest => signature p ++ segmentsSignature rest

end

/-- A capture of a tuple of a named variable and a prefix: the variable, the remainder of the
string, then the whole tuple. -/
example : (Pattern.capture (.tuple [.var (some "x") false none, .startsWith "ab"]) :
    Pattern Term).signature = [some "x", none, none] := by decide

/-- Two matches in a row, as `do` notation writes them, succeed with both bindings. -/
theorem append_bind_eq_some {x y : Option Bindings} {δ : Bindings}
    (h : (do let a ← x; let b ← y; pure (a ++ b)) = some δ) :
    ∃ a b, x = some a ∧ y = some b ∧ δ = a ++ b := by
  cases x with
  | none => cases h
  | some a =>
    cases y with
    | none => cases h
    | some b => exact ⟨a, b, rfl, rfl, (Option.some.inj h).symm⟩

/-- The bindings of every match of the pattern carry the names of its signature. -/
def NamesFollow (p : Pattern Term) : Prop :=
  ∀ v δ, p.matches? v = some δ → δ.map Binding.name = p.signature

/-! ## One lemma per kind of pattern -/

section Kinds

variable {hp tp p : Pattern Term}

theorem var_names (name : Option String) (ignored : Bool) (d : Option Term) :
    NamesFollow (.var name ignored d) := by
  intro v δ h
  cases h
  rfl

theorem wildcard_names : NamesFollow .wildcard := by
  intro v δ h
  cases h
  rfl

theorem headTail_names (hh : NamesFollow hp) (ht : NamesFollow tp) :
    NamesFollow (.headTail hp tp) := by
  intro v δ h
  cases v
  case list items =>
    cases items with
    | nil => cases h
    | cons x xs =>
      obtain ⟨a, b, ha, hb, rfl⟩ := append_bind_eq_some h
      rw [List.map_append, hh x a ha, ht _ b hb, signature]
  all_goals cases h

theorem startsWith_names (pre : String) : NamesFollow (.startsWith pre) := by
  intro v δ h
  cases v
  case str s =>
    obtain ⟨rest, -, rfl⟩ := Option.map_eq_some_iff.1 h
    rfl
  all_goals cases h

theorem capture_names (hi : NamesFollow p) : NamesFollow (.capture p) := by
  intro v δ h
  obtain ⟨a, ha, rfl⟩ := Option.map_eq_some_iff.1 h
  rw [List.map_append, hi v a ha, signature]
  rfl

theorem bound_names (t : Term) : NamesFollow (.bound t) := by
  intro v δ h
  by_cases hv : v.beq t
  · simp only [matches?, hv, if_true, Option.some.injEq] at h
    subst h
    rfl
  · simp [matches?, hv] at h

theorem literal_names (t : Term) : NamesFollow (.literal t) := by
  intro v δ h
  by_cases hv : v.beq t
  · simp only [matches?, hv, if_true, Option.some.injEq] at h
    subst h
    rfl
  · simp [matches?, hv] at h

/-- Every match of the patterns against terms, position by position, binds their signatures in
order. -/
def ItemsFollow (ps : List (Pattern Term)) : Prop :=
  ∀ vs δ, matchItems ps vs = some δ → δ.map Binding.name = itemsSignature ps

/-- Every match of the entries of a map or record pattern binds their signatures in entry
order. -/
def EntriesFollow (es : List (Term × Pattern Term)) : Prop :=
  ∀ m δ, matchEntries es m = some δ → δ.map Binding.name = entriesSignature es

/-- Every match of the segments of a binary pattern against their windows binds the signatures of
the patterns they hold, in segment order. -/
def SegmentsFollow (segs : List (Segment Term)) : Prop :=
  ∀ ws template bytes δ, matchSegments segs ws template bytes = some δ →
    δ.map Binding.name = segmentsSignature segs

theorem ItemsFollow.nil : ItemsFollow [] := by
  intro vs δ h
  cases vs with
  | nil =>
    cases h
    rfl
  | cons _ _ => cases h

theorem ItemsFollow.cons {ps : List (Pattern Term)} (hp : NamesFollow p) (hps : ItemsFollow ps) :
    ItemsFollow (p :: ps) := by
  intro vs δ h
  cases vs with
  | nil => cases h
  | cons v vs =>
    obtain ⟨a, b, ha, hb, rfl⟩ := append_bind_eq_some h
    rw [List.map_append, hp v a ha, hps vs b hb, itemsSignature]

theorem EntriesFollow.nil : EntriesFollow [] := by
  intro m δ h
  cases h
  rfl

/-- An entry binds nothing unless its key is in the map, and then what its pattern binds. -/
theorem EntriesFollow.cons {es : List (Term × Pattern Term)} (k : Term) (hp : NamesFollow p)
    (hes : EntriesFollow es) : EntriesFollow ((k, p) :: es) := by
  intro m δ h
  simp only [matchEntries] at h
  cases hk : m.get? k with
  | none =>
    rw [hk] at h
    cases h
  | some v =>
    rw [hk] at h
    obtain ⟨a, b, ha, hb, rfl⟩ := append_bind_eq_some h
    rw [List.map_append, hp v a ha, hes m b hb, entriesSignature]

theorem SegmentsFollow.nil : SegmentsFollow [] := by
  intro ws template bytes δ h
  cases h
  rfl

/-- The window of a value segment holds the template's bytes or fails; it binds nothing. -/
theorem SegmentsFollow.value_cons {segs : List (Segment Term)} (s : Binary.Spec) (x : Term)
    (hrest : SegmentsFollow segs) : SegmentsFollow (.value s x :: segs) := by
  intro ws template bytes δ h
  cases ws with
  | nil => cases h
  | cons w ws =>
    rw [matchSegments_value_cons] at h
    obtain ⟨a, b, ha, hb, rfl⟩ := append_bind_eq_some h
    have hnil : a = [] := by
      obtain ⟨actual, -, hwin⟩ := Option.bind_eq_some_iff.1 ha
      by_cases ht : w.slice template = some actual
      · simpa [ht] using hwin.symm
      · simp [ht] at hwin
    subst hnil
    rw [List.map_append, hrest ws template bytes b hb, segmentsSignature]
    rfl

/-- The window of a pattern segment binds what its pattern binds of the decoded bytes. -/
theorem SegmentsFollow.hole_cons {segs : List (Segment Term)} (s : Binary.Spec) (hp : NamesFollow p)
    (hrest : SegmentsFollow segs) : SegmentsFollow (.hole s p :: segs) := by
  intro ws template bytes δ h
  cases ws with
  | nil => cases h
  | cons w ws =>
    rw [matchSegments_hole_cons] at h
    obtain ⟨a, b, ha, hb, rfl⟩ := append_bind_eq_some h
    obtain ⟨actual, -, hdec⟩ := Option.bind_eq_some_iff.1 ha
    obtain ⟨decoded, -, hm⟩ := Option.bind_eq_some_iff.1 hdec
    rw [List.map_append, hp decoded a hm, hrest ws template bytes b hb, segmentsSignature]

theorem list_names {ps : List (Pattern Term)} (hps : ItemsFollow ps) : NamesFollow (.list ps) := by
  intro v δ h
  cases v
  case list vs => exact hps vs δ h
  all_goals cases h

theorem tuple_names {ps : List (Pattern Term)} (hps : ItemsFollow ps) :
    NamesFollow (.tuple ps) := by
  intro v δ h
  cases v
  case tuple vs => exact hps vs δ h
  all_goals cases h

theorem record_names {name : String} {fields : List (Term × Pattern Term)}
    (hes : EntriesFollow fields) : NamesFollow (.record name fields) := by
  intro v δ h
  cases v
  case record n fs =>
    by_cases hn : n = name
    · simp only [matches?, hn, beq_self_eq_true, if_true] at h
      exact hes fs δ h
    · have hn' : (n == name) = false := by simpa using hn
      simp [matches?, hn'] at h
  all_goals cases h

theorem map_names {es : List (Term × Pattern Term)} (hes : EntriesFollow es) :
    NamesFollow (.map es) := by
  intro v δ h
  cases v
  case map fs => exact hes fs δ h
  case record _ fs => exact hes fs δ h
  all_goals cases h

/-- A binary pattern that cannot be laid out accepts nothing; one that can binds what its
segments bind. -/
theorem binary_names {segments : List (Segment Term)} (hsegs : SegmentsFollow segments) :
    NamesFollow (.binary segments) := by
  intro v δ h
  simp only [matches?] at h
  split at h
  · split at h
    · exact hsegs _ _ _ δ h
    · cases h
  · cases h

end Kinds

/-! ## The induction over patterns -/

mutual

/-- Every match of a pattern binds the names of its signature. -/
theorem names_follow : ∀ p : Pattern Term, NamesFollow p
  | .var name ignored d => var_names name ignored d
  | .wildcard => wildcard_names
  | .headTail h t => headTail_names (names_follow h) (names_follow t)
  | .startsWith pre => startsWith_names pre
  | .capture p => capture_names (names_follow p)
  | .bound t => bound_names t
  | .record _ fields => record_names (entries_follow fields)
  | .binary segments => binary_names (segments_follow segments)
  | .list items => list_names (items_follow items)
  | .tuple items => tuple_names (items_follow items)
  | .literal t => literal_names t
  | .map entries => map_names (entries_follow entries)

theorem items_follow : ∀ ps : List (Pattern Term), ItemsFollow ps
  | [] => ItemsFollow.nil
  | p :: ps => ItemsFollow.cons (names_follow p) (items_follow ps)

theorem entries_follow : ∀ es : List (Term × Pattern Term), EntriesFollow es
  | [] => EntriesFollow.nil
  | (k, p) :: es => EntriesFollow.cons k (names_follow p) (entries_follow es)

theorem segments_follow : ∀ segs : List (Segment Term), SegmentsFollow segs
  | [] => SegmentsFollow.nil
  | .value s x :: segs => SegmentsFollow.value_cons s x (segments_follow segs)
  | .hole s p :: segs => SegmentsFollow.hole_cons s (names_follow p) (segments_follow segs)

end

/-! ## Main result -/

/-- **Binding positions are static.** Whenever the compiled matcher of a pattern accepts a term,
whatever bindings it is given, it appends bindings that carry exactly the names of the pattern's
signature, in order; a full match returns such bindings, as many as the signature has entries. -/
theorem binding_names_static (p : Pattern Term) :
    (∀ v b b', p.compile.apply v b = (true, b') →
      ∃ δ, b' = b ++ δ ∧ δ.map Binding.name = p.signature) ∧
    (∀ v δ, p.run v = some δ →
      δ.map Binding.name = p.signature ∧ δ.length = p.signature.length) := by
  constructor
  · intro v b b' h
    obtain ⟨extra, hf, hδ⟩ := compile_appends p v b
    rw [hf, Prod.mk.injEq] at h
    obtain ⟨hsome, rfl⟩ := h
    obtain ⟨δ, hm⟩ := Option.isSome_iff_exists.1 hsome
    exact ⟨δ, by rw [hδ δ hm], names_follow p v δ hm⟩
  · intro v δ h
    rw [run_eq] at h
    have hm : p.matches? v = some δ := (Option.filter_eq_some_iff.1 h).1
    have hn := names_follow p v δ hm
    exact ⟨hn, by rw [← hn, List.length_map]⟩

end Pattern

end ActorCore
