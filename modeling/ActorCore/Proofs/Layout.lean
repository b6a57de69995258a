import ActorCore.Binary.Layout
import ActorCore.Pattern.Basic

/-!
# Layouts of binary patterns

Facts about `Binary.Layout.build`, read off its one pass over the segments. The pass tiles the
candidate from its first byte: each segment's window starts where the previous one ended, a value
segment's window is as long as the value's bytes and holds them in the template, a sized pattern
segment's window is its width, and only the last segment may take the open window of all
remaining bytes.

* `Layout.build_windows_length` — a layout has one window per segment.
* `Layout.Tiles` — the windows and template bytes of segments, from a starting byte on.
* `Window.slice_span_append`, `Window.slice_rest_append` — a window starting after a prefix reads
  past it.
* `Layout.fits_iff` — the length check of a candidate, as a condition on the bytes left for the
  windows.

Principal result: `Layout.tiles_of_build`, a layout tiles its segments.
-/

namespace ActorCore.Binary

/-! ## Slices -/

theorem Window.slice_span_append (pre rest : List UInt8) (len : Nat) :
    (Window.span pre.length len).slice (pre ++ rest) =
      if len ≤ rest.length then some (rest.take len) else none := by
  simp only [Window.slice, List.length_append, List.drop_left]
  by_cases h : len ≤ rest.length
  · rw [if_pos (by omega), if_pos h]
  · rw [if_neg (by omega), if_neg h]

theorem Window.slice_rest_append (pre rest : List UInt8) :
    (Window.rest pre.length).slice (pre ++ rest) = some rest := by
  simp [Window.slice]

namespace Layout

/-- Each segment the pass lays out adds exactly one window. -/
theorem buildFrom_windows_length {count index : Nat} {acc l : Layout}
    {plans : List (Spec × Option Term)} (h : buildFrom count index acc plans = .ok l) :
    l.windows.length = acc.windows.length + plans.length := by
  induction plans generalizing index acc with
  | nil =>
    simp only [buildFrom, Except.ok.injEq] at h
    subst h
    simp
  | cons plan rest ih =>
    obtain ⟨s, slot⟩ := plan
    cases slot with
    | some v =>
      cases hb : encode s v with
      | error e => simp [buildFrom, hb] at h; cases h
      | ok bytes =>
        simp only [buildFrom, hb] at h
        have := ih h
        simp only [List.length_append, List.length_cons, List.length_nil] at this ⊢
        omega
    | none =>
      cases hw : s.width with
      | error e => simp [buildFrom, hw] at h; cases h
      | ok width =>
        cases width with
        | some len =>
          simp only [buildFrom, hw] at h
          have := ih h
          simp only [List.length_append, List.length_cons, List.length_nil] at this ⊢
          omega
        | none =>
          simp only [buildFrom, hw] at h
          split at h
          · have := ih h
            simp only [List.length_append, List.length_cons, List.length_nil] at this ⊢
            omega
          · cases h

theorem build_windows_length {plans : List (Spec × Option Term)} {l : Layout}
    (h : build plans = .ok l) : l.windows.length = plans.length := by
  simpa [build] using buildFrom_windows_length h

/-! ## Tiling -/

/-- The windows and template bytes that the pass lays out for segments, from byte `start` on: a
value segment's window holds the value's bytes, a sized pattern segment's window is its width of
zeros in the template, and an unsized pattern segment, which must be the last, takes the open
window of every remaining byte. -/
inductive Tiles : Nat → List (Segment Term) → List Window → List UInt8 → Prop
  | nil (start : Nat) : Tiles start [] [] []
  | value {start : Nat} {s : Spec} {v : Term} {e : List UInt8} {segs : List (Segment Term)}
      {ws : List Window} {t : List UInt8} (h : encode s v = .ok e)
      (rest : Tiles (start + e.length) segs ws t) :
      Tiles start (.value s v :: segs) (.span start e.length :: ws) (e ++ t)
  | sized {start : Nat} {s : Spec} {p : Pattern Term} {len : Nat} {segs : List (Segment Term)}
      {ws : List Window} {t : List UInt8} (h : s.width = .ok (some len))
      (rest : Tiles (start + len) segs ws t) :
      Tiles start (.hole s p :: segs) (.span start len :: ws) (List.replicate len 0 ++ t)
  | last {start : Nat} {s : Spec} {p : Pattern Term} (h : s.width = .ok none) :
      Tiles start [.hole s p] [.rest start] []

/-- The pass from an accumulated layout on adds the tiles of the remaining segments after it. -/
theorem tiles_of_buildFrom {count index : Nat} {acc l : Layout} {segs : List (Segment Term)}
    (h : buildFrom count index acc (segs.map Segment.plan) = .ok l)
    (hcount : count = index + segs.length) :
    ∃ ws t, l.windows = acc.windows ++ ws ∧ l.template = acc.template ++ t ∧
      Tiles acc.template.length segs ws t := by
  induction segs generalizing index acc with
  | nil =>
    simp only [List.map_nil, buildFrom, Except.ok.injEq] at h
    subst h
    exact ⟨[], [], by simp, by simp, .nil _⟩
  | cons seg rest ih =>
    cases seg with
    | value s v =>
      cases he : encode s v with
      | error e' => simp [buildFrom, Segment.plan, he] at h; cases h
      | ok e =>
        simp only [List.map_cons, Segment.plan, buildFrom, he] at h
        obtain ⟨ws, t, hws, ht, htiles⟩ := ih h (by simp only [List.length_cons] at hcount; omega)
        refine ⟨.span acc.template.length e.length :: ws, e ++ t, by simp [hws], by simp [ht],
          .value he ?_⟩
        simpa using htiles
    | hole s p =>
      cases hw : s.width with
      | error e' => simp [buildFrom, Segment.plan, hw] at h; cases h
      | ok width =>
        cases width with
        | some len =>
          simp only [List.map_cons, Segment.plan, buildFrom, hw] at h
          obtain ⟨ws, t, hws, ht, htiles⟩ := ih h (by simp only [List.length_cons] at hcount; omega)
          refine ⟨.span acc.template.length len :: ws, List.replicate len 0 ++ t, by simp [hws],
            by simp [ht], .sized hw ?_⟩
          simpa using htiles
        | none =>
          simp only [List.map_cons, Segment.plan, buildFrom, hw, bind, Except.bind] at h
          split at h
          · -- an unsized pattern segment is the last one
            have hrest : rest = [] := by
              simp only [List.length_cons] at hcount
              exact List.eq_nil_of_length_eq_zero (by omega)
            subst hrest
            simp only [List.map_nil, buildFrom, Except.ok.injEq] at h
            subst h
            exact ⟨[.rest acc.template.length], [], rfl, by simp, .last hw⟩
          · cases h

/-- **A layout tiles its segments** from the first byte. -/
theorem tiles_of_build {segs : List (Segment Term)} {l : Layout}
    (h : build (segs.map Segment.plan) = .ok l) : Tiles 0 segs l.windows l.template := by
  obtain ⟨ws, t, hws, ht, htiles⟩ := tiles_of_buildFrom h (by simp)
  simp only [List.nil_append] at hws ht
  rw [hws, ht]
  exact htiles

/-! ## The length check -/

/-- The last window is open: it takes every remaining byte. -/
def OpenEnded (ws : List Window) : Prop :=
  ∃ start, ws.getLast? = some (.rest start)

/-- `n` remaining bytes fit windows whose template bytes are `t`: exactly as many, or at least as
many when the last window is open. -/
def FitsRest (ws : List Window) (t : List UInt8) (n : Nat) : Prop :=
  (OpenEnded ws → t.length ≤ n) ∧ (¬ OpenEnded ws → n = t.length)

theorem not_openEnded_nil : ¬ OpenEnded [] := by
  rintro ⟨start, h⟩
  cases h

theorem openEnded_last (start : Nat) : OpenEnded [.rest start] :=
  ⟨start, rfl⟩

theorem openEnded_span_cons (start len : Nat) (ws : List Window) :
    OpenEnded (.span start len :: ws) ↔ OpenEnded ws := by
  unfold OpenEnded
  rw [List.getLast?_cons]
  cases h : ws.getLast? <;> simp

/-- A span takes its bytes off the front of what the windows have left. -/
theorem fitsRest_span_cons {start len n : Nat} {ws : List Window} {e t : List UInt8}
    (he : e.length = len) :
    FitsRest (.span start len :: ws) (e ++ t) n ↔ len ≤ n ∧ FitsRest ws t (n - len) := by
  unfold FitsRest
  rw [openEnded_span_cons, List.length_append, he]
  constructor
  · rintro ⟨hopen, hclosed⟩
    by_cases ho : OpenEnded ws
    · have := hopen ho
      exact ⟨by omega, fun _ => by omega, fun hn => absurd ho hn⟩
    · have := hclosed ho
      exact ⟨by omega, fun h => absurd h ho, fun _ => by omega⟩
  · rintro ⟨hlen, hopen, hclosed⟩
    exact ⟨fun ho => by have := hopen ho; omega, fun ho => by have := hclosed ho; omega⟩

theorem fits_iff (l : Layout) (n : Nat) : l.fits n = true ↔ FitsRest l.windows l.template n := by
  unfold fits fixedWidth FitsRest OpenEnded
  cases h : l.windows.getLast? with
  | none => simp
  | some w =>
    cases w with
    | span start len => simp
    | rest start => simp

end Layout

end ActorCore.Binary
