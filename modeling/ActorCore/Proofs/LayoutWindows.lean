import Mathlib
import ActorCore.Proofs.Layout

/-!
# The windows of a binary pattern, one by one

`Layout.tiles_of_build` says what the layout pass builds as a relation along the segment list.
Here the same layout is read index by index, as a matcher reads it. Window `i` belongs to segment
`i` and starts where the fixed windows before it end. A value's window spans the value's bytes,
and the template holds those bytes there. A sized pattern's window spans the segment's width,
zeros in the template. The open window belongs to an unsized pattern and comes last. The template
is exactly as long as the fixed windows together.

When the pass fails, it fails with the error of the first segment that cannot be laid out: a
value that cannot be encoded, a format without a valid width, or an unsized pattern before the
last segment. Nothing after that segment is looked at.

* `Window.start`, `Window.fixedLength` — where a window starts, and how many bytes it fixes.
* `Layout.Placed` — a segment in its window over the template.
* `Layout.Unplaceable`, `Layout.FirstUnplaceable` — a segment that cannot be laid out at its
  position, and the first of them.
* `Layout.LaysOut` — a layout of segments, window by window.
* `Layout.buildFrom_cons` — one step of the pass stops at a segment that cannot be laid out, or
  goes on past it.

Principal result: `Layout.build_lays_out_or_fails_first`.
-/

namespace ActorCore.Binary

namespace Window

/-- The first byte a window reads. -/
def start : Window → Nat
  | .span start _ => start
  | .rest start => start

/-- The bytes a window fixes: a span's length; the open window fixes none. -/
def fixedLength : Window → Nat
  | .span _ len => len
  | .rest _ => 0

@[simp] theorem start_span (start len : Nat) : (Window.span start len).start = start := rfl

@[simp] theorem start_rest (start : Nat) : (Window.rest start).start = start := rfl

@[simp] theorem fixedLength_span (start len : Nat) : (Window.span start len).fixedLength = len :=
  rfl

@[simp] theorem fixedLength_rest (start : Nat) : (Window.rest start).fixedLength = 0 := rfl

end Window

namespace Layout

/-! ## Segments in their windows -/

/-- Segment `seg` sits in window `w` over `template`: a value's window spans the value's bytes,
which the template holds there; a sized pattern's window spans its width, zeros in the template;
an unsized pattern has the open window. -/
inductive Placed (template : List UInt8) : Segment Term → Window → Prop
  | value {s : Spec} {v : Term} {e : List UInt8} {start : Nat} (h : encode s v = .ok e)
      (hbytes : (Window.span start e.length).slice template = some e) :
      Placed template (.value s v) (.span start e.length)
  | sized {s : Spec} {p : Pattern Term} {len start : Nat} (h : s.width = .ok (some len))
      (hbytes : (Window.span start len).slice template = some (List.replicate len 0)) :
      Placed template (.hole s p) (.span start len)
  | unsized {s : Spec} {p : Pattern Term} {start : Nat} (h : s.width = .ok none) :
      Placed template (.hole s p) (.rest start)

/-- Segment `seg`, at `index` of `count` segments, cannot be laid out, with error `e`: its value
cannot be encoded, its format has no valid width, or it is an unsized pattern that is not the
last segment. -/
inductive Unplaceable (count index : Nat) : Segment Term → Error → Prop
  | unencodable {s : Spec} {v : Term} {e : Error} (h : encode s v = .error e) :
      Unplaceable count index (.value s v) e
  | badWidth {s : Spec} {p : Pattern Term} {e : Error} (h : s.width = .error e) :
      Unplaceable count index (.hole s p) e
  | unsizedNotLast {s : Spec} {p : Pattern Term} (h : s.width = .ok none)
      (hlast : index + 1 ≠ count) :
      Unplaceable count index (.hole s p) (.unsizedSegment index)

/-- `e` is the error of the first segment that cannot be laid out. -/
def FirstUnplaceable (segs : List (Segment Term)) (e : Error) : Prop :=
  ∃ i, ∃ h : i < segs.length, Unplaceable segs.length i segs[i] e ∧
    ∀ j (hj : j < i) e', ¬ Unplaceable segs.length j segs[j] e'

/-- `l` lays out `segs` window by window: one window per segment, each starting where the fixed
windows before it end and holding its segment as `Placed` says, the open window only for the
last segment, a template as long as the fixed windows together, and a fixed width exactly when
the last window is not open. -/
structure LaysOut (segs : List (Segment Term)) (l : Layout) : Prop where
  windows_length : l.windows.length = segs.length
  start_eq : ∀ (i : Nat) (w : Window), l.windows[i]? = some w →
    w.start = ((l.windows.take i).map Window.fixedLength).sum
  placed : ∀ (i : Nat) (seg : Segment Term) (w : Window), segs[i]? = some seg →
    l.windows[i]? = some w → Placed l.template seg w
  rest_last : ∀ (i start : Nat), l.windows[i]? = some (.rest start) → i + 1 = segs.length
  template_length : l.template.length = (l.windows.map Window.fixedLength).sum
  fixedWidth_eq_none : l.fixedWidth = none ↔ OpenEnded l.windows

theorem Unplaceable.unique {count index : Nat} {seg : Segment Term} {e e' : Error}
    (h : Unplaceable count index seg e) (h' : Unplaceable count index seg e') : e = e' := by
  cases h with
  | unencodable he =>
    cases h' with
    | unencodable he' => rw [he] at he'; exact Except.error.inj he'
  | badWidth hw =>
    cases h' with
    | badWidth hw' => rw [hw] at hw'; exact Except.error.inj hw'
    | unsizedNotLast hw' _ => rw [hw] at hw'; cases hw'
  | unsizedNotLast hw _ =>
    cases h' with
    | badWidth hw' => rw [hw] at hw'; cases hw'
    | unsizedNotLast _ _ => rfl

theorem fixedWidth_eq_none_iff (l : Layout) : l.fixedWidth = none ↔ OpenEnded l.windows := by
  unfold fixedWidth OpenEnded
  cases l.windows.getLast? with
  | none => simp
  | some w => cases w <;> simp

/-! ## Tiles, window by window -/

namespace Tiles

variable {start : Nat} {segs : List (Segment Term)} {ws : List Window} {t : List UInt8}

theorem windows_length (h : Tiles start segs ws t) : ws.length = segs.length := by
  induction h with
  | nil => rfl
  | value _ _ ih => simp [ih]
  | sized _ _ ih => simp [ih]
  | last => rfl

theorem template_length (h : Tiles start segs ws t) :
    t.length = (ws.map Window.fixedLength).sum := by
  induction h with
  | nil => rfl
  | value _ _ ih => simp [ih]
  | sized _ _ ih => simp [ih]
  | last => rfl

/-- Each window starts where the fixed windows before it end. -/
theorem start_eq (h : Tiles start segs ws t) {i : Nat} {w : Window} (hw : ws[i]? = some w) :
    w.start = start + ((ws.take i).map Window.fixedLength).sum := by
  induction h generalizing i with
  | nil => simp at hw
  | value _ _ ih | sized _ _ ih =>
    cases i with
    | zero =>
      obtain rfl := Option.some.inj hw
      simp
    | succ i =>
      rw [List.getElem?_cons_succ] at hw
      rw [ih hw, List.take_succ_cons, List.map_cons, List.sum_cons, Window.fixedLength_span]
      omega
  | last =>
    cases i with
    | zero =>
      obtain rfl := Option.some.inj hw
      simp
    | succ i => simp at hw

/-- Each segment sits in its window over the template, whatever bytes come before the tiles. -/
theorem placed (h : Tiles start segs ws t) (pre : List UInt8) (hpre : pre.length = start)
    {i : Nat} {seg : Segment Term} {w : Window} (hseg : segs[i]? = some seg)
    (hw : ws[i]? = some w) : Placed (pre ++ t) seg w := by
  induction h generalizing pre i with
  | nil => simp at hw
  | @value start s v e segs ws t he _ ih =>
    cases i with
    | zero =>
      obtain rfl := Option.some.inj hseg
      obtain rfl := Option.some.inj hw
      refine .value he ?_
      rw [← hpre, Window.slice_span_append, if_pos (by simp), List.take_left' rfl]
    | succ i =>
      rw [List.getElem?_cons_succ] at hseg hw
      have := ih (pre ++ e) (by simp [hpre]) hseg hw
      rwa [List.append_assoc] at this
  | @sized start s p len segs ws t hwidth _ ih =>
    cases i with
    | zero =>
      obtain rfl := Option.some.inj hseg
      obtain rfl := Option.some.inj hw
      refine .sized hwidth ?_
      rw [← hpre, Window.slice_span_append, if_pos (by simp),
        List.take_left' List.length_replicate]
    | succ i =>
      rw [List.getElem?_cons_succ] at hseg hw
      have := ih (pre ++ List.replicate len 0) (by simp [hpre]) hseg hw
      rwa [List.append_assoc] at this
  | last hwidth =>
    cases i with
    | zero =>
      obtain rfl := Option.some.inj hseg
      obtain rfl := Option.some.inj hw
      exact .unsized hwidth
    | succ i => simp at hw

/-- Only the last window is open. -/
theorem rest_last (h : Tiles start segs ws t) {i start' : Nat}
    (hw : ws[i]? = some (.rest start')) : i + 1 = segs.length := by
  induction h generalizing i with
  | nil => simp at hw
  | value _ _ ih | sized _ _ ih =>
    cases i with
    | zero => cases hw
    | succ i =>
      rw [List.getElem?_cons_succ] at hw
      simp [ih hw]
  | last =>
    cases i with
    | zero => rfl
    | succ i => simp at hw

end Tiles

/-- **A layout lays out its segments window by window.** -/
theorem laysOut_of_build {segs : List (Segment Term)} {l : Layout}
    (h : build (segs.map Segment.plan) = .ok l) : LaysOut segs l := by
  have htiles := tiles_of_build h
  refine ⟨htiles.windows_length, fun i w hw => ?_, fun i seg w hseg hw => ?_,
    fun i start hw => htiles.rest_last hw, htiles.template_length, fixedWidth_eq_none_iff l⟩
  · simpa using htiles.start_eq hw
  · simpa using htiles.placed [] rfl hseg hw

/-! ## The first segment that cannot be laid out -/

/-- One step of the pass: the next segment cannot be laid out, and the pass stops with its error,
or it can, and the pass goes on to the rest from a longer layout. -/
theorem buildFrom_cons (count index : Nat) (acc : Layout) (seg : Segment Term)
    (rest : List (Spec × Option Term)) :
    (∃ e, Unplaceable count index seg e ∧
        buildFrom count index acc (seg.plan :: rest) = .error e) ∨
      ((∀ e, ¬ Unplaceable count index seg e) ∧
        ∃ acc', buildFrom count index acc (seg.plan :: rest) =
          buildFrom count (index + 1) acc' rest) := by
  cases seg with
  | value s v =>
    cases he : encode s v with
    | error e =>
      exact .inl ⟨e, .unencodable he,
        by simp only [Segment.plan, buildFrom, he, bind, Except.bind]⟩
    | ok bytes =>
      refine .inr ⟨fun e hu => ?_, _,
        by simp only [Segment.plan, buildFrom, he, bind, Except.bind]; rfl⟩
      cases hu with
      | unencodable he' => rw [he] at he'; cases he'
  | hole s p =>
    cases hw : s.width with
    | error e =>
      exact .inl ⟨e, .badWidth hw,
        by simp only [Segment.plan, buildFrom, hw, bind, Except.bind]⟩
    | ok width =>
      cases width with
      | some len =>
        refine .inr ⟨fun e hu => ?_, _,
          by simp only [Segment.plan, buildFrom, hw, bind, Except.bind]; rfl⟩
        cases hu with
        | badWidth hw' => rw [hw] at hw'; cases hw'
        | unsizedNotLast hw' _ => rw [hw] at hw'; cases hw'
      | none =>
        -- an unsized pattern is laid out only as the last segment
        by_cases hlast : index + 1 = count
        · refine .inr ⟨fun e hu => ?_, _,
            by simp only [Segment.plan, buildFrom, hw, bind, Except.bind, if_pos hlast]; rfl⟩
          cases hu with
          | badWidth hw' => rw [hw] at hw'; cases hw'
          | unsizedNotLast _ hnot => exact hnot hlast
        · exact .inl ⟨_, .unsizedNotLast hw hlast,
            by simp only [Segment.plan, buildFrom, hw, bind, Except.bind, if_neg hlast]⟩

/-- The pass from segment `index` on fails exactly at the first segment that cannot be laid out,
with its error. -/
theorem buildFrom_eq_error_iff {count index : Nat} {acc : Layout} {segs : List (Segment Term)}
    {e : Error} :
    buildFrom count index acc (segs.map Segment.plan) = .error e ↔
      ∃ i, ∃ h : i < segs.length, Unplaceable count (index + i) segs[i] e ∧
        ∀ j (hj : j < i) e', ¬ Unplaceable count (index + j) segs[j] e' := by
  induction segs generalizing index acc with
  | nil => simp [buildFrom]
  | cons seg rest ih =>
    rw [List.map_cons]
    rcases buildFrom_cons count index acc seg (rest.map Segment.plan) with
      ⟨e₀, hu, hstep⟩ | ⟨hfits, acc', hstep⟩
    · -- the pass stops at this segment
      rw [hstep]
      constructor
      · intro h
        cases h
        exact ⟨0, by simp, by simpa using hu, fun j hj => absurd hj (Nat.not_lt_zero j)⟩
      · rintro ⟨i, hi, hui, hbefore⟩
        cases i with
        | zero =>
          simp only [Nat.add_zero, List.getElem_cons_zero] at hui
          rw [hu.unique hui]
        | succ i =>
          have := hbefore 0 (Nat.succ_pos i) e₀
          simp only [Nat.add_zero, List.getElem_cons_zero] at this
          exact absurd hu this
    · -- the pass goes on past this segment: shift every index by one
      rw [hstep, ih]
      constructor
      · rintro ⟨i, hi, hui, hbefore⟩
        refine ⟨i + 1, by simpa using hi, ?_, fun j hj e' => ?_⟩
        · simpa [Nat.add_assoc, Nat.add_comm 1 i] using hui
        · cases j with
          | zero => simpa using hfits e'
          | succ j =>
            simpa [Nat.add_assoc, Nat.add_comm 1 j] using hbefore j (by omega) e'
      · rintro ⟨i, hi, hui, hbefore⟩
        cases i with
        | zero => exact absurd hui (by simpa using hfits e)
        | succ i =>
          refine ⟨i, by simpa using hi, ?_, fun j hj e' => ?_⟩
          · simpa [Nat.add_assoc, Nat.add_comm 1 i] using hui
          · simpa [Nat.add_assoc, Nat.add_comm 1 j] using hbefore (j + 1) (by omega) e'

theorem build_eq_error_iff {segs : List (Segment Term)} {e : Error} :
    build (segs.map Segment.plan) = .error e ↔ FirstUnplaceable segs e := by
  unfold build FirstUnplaceable
  rw [List.length_map, buildFrom_eq_error_iff]
  simp only [Nat.zero_add]

-- an unsized binary before the last segment
example : build
    (([.hole { type := .binary } .wildcard, .hole { type := .integer } .wildcard] :
      List (Segment Term)).map Segment.plan) = .error (.unsizedSegment 0) := by rfl

/-- **A binary pattern's layout tiles its segments, or fails at the first that cannot be laid
out.** When the pass succeeds, window `i` belongs to segment `i`, starts where the fixed windows
before it end, and spans the value's bytes (held by the template), the pattern's width (zeros in
the template), or every remaining byte for an unsized pattern, which only the last segment may
be; the template is as long as the fixed windows, and the width is fixed unless the last window
is open. The pass fails exactly when some segment cannot be laid out, with the error of the first
such segment. -/
theorem build_lays_out_or_fails_first (segs : List (Segment Term)) :
    (∀ l, build (segs.map Segment.plan) = .ok l → LaysOut segs l) ∧
      (∀ e, build (segs.map Segment.plan) = .error e ↔ FirstUnplaceable segs e) :=
  ⟨fun _ => laysOut_of_build, fun _ => build_eq_error_iff⟩

/-- An integer pattern, then the integer 1 in 16 bits: three fixed bytes, the value's last. -/
theorem build_lays_out_integers :
    LaysOut [.hole { type := .integer } .wildcard,
        .value { type := .integer, size := some 16 } (.int 1)]
      ⟨[.span 0 1, .span 1 2], [0, 0, 1]⟩ :=
  (build_lays_out_or_fails_first _).1 _ rfl

end Layout

end ActorCore.Binary
