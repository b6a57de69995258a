import ActorCore.Proofs.Layout
import ActorCore.Proofs.Matching
import ActorCore.Proofs.Segment

/-!
# Matching a binary inverts building it

A binary pattern whose segments hold values or unnamed variables describes a family of binaries:
the ones built from it once each variable is given a value. Building and matching agree on this
family. Matching a binary built from such values succeeds, binds one value per variable in
segment order, and each bound value writes the bytes of the value it stands for; and a binary
that matches is rebuilt from the values the match binds.

The proofs walk the layout's tiles (`Binary.Layout.Tiles`) and the bytes of the binary in step:
a value segment's window must hold the value's bytes, and a variable's window is read by the
segment's format and written back by it (`Binary.encode_of_decode`, `Binary.roundTrip_of_encode`).

* `Segment.Plain`, `Segment.holeSpecs`, `Segment.fill` — segments holding values or unnamed
  variables, the formats of the variables, and the segments with the variables given values.
* `matchSegments_value_span`, `matchSegments_unnamed_span`, `matchSegments_unnamed_rest` —
  matching one tile.
* `build_go_of_matchSegments` — what matches is rebuilt from what it binds.
* `matchSegments_of_build_go` — what is built matches, binding values that write the same bytes.

Principal results: `Pattern.run_binary_of_build` and `Pattern.build_fill_of_run_binary`.
-/

namespace ActorCore

open Binary Binary.Layout

/-! ## Segments with values and variables -/

namespace Segment

/-- A segment that holds a value or an unnamed variable. -/
def Plain : Segment Term → Prop
  | .value _ _ => True
  | .hole _ p => ∃ ignored default, p = .var none ignored default

/-- The formats of the segments that hold patterns, in order. -/
def holeSpecs : List (Segment Term) → List Spec
  | [] => []
  | .value _ _ :: rest => holeSpecs rest
  | .hole s _ :: rest => s :: holeSpecs rest

/-- The segments of a binary with the patterns given values in order; a pattern left without a
value stays unbound. -/
def fill : List (Segment Term) → List Term → List (Spec × Option Term)
  | [], _ => []
  | .value s v :: rest, vs => (s, some v) :: fill rest vs
  | .hole s _ :: rest, v :: vs => (s, some v) :: fill rest vs
  | .hole s _ :: rest, [] => (s, none) :: fill rest []

end Segment

/-! ## Building segment by segment -/

theorem build_go_cons_eq_ok {index : Nat} {s : Spec} {v : Term} {plans : List (Spec × Option Term)}
    {r : List UInt8} :
    build.go index ((s, some v) :: plans) = .ok r ↔
      ∃ e r', encode s v = .ok e ∧ build.go (index + 1) plans = .ok r' ∧ r = e ++ r' := by
  simp only [build.go, bind, Except.bind]
  cases he : encode s v with
  | error err => simp
  | ok e =>
    cases hg : build.go (index + 1) plans with
    | error err => simp
    | ok r' => simp [pure, Except.pure, eq_comm]

/-- Segments whose values write the same bytes build the same binary. -/
theorem build_go_fill_congr {segs : List (Segment Term)} {vals vals' : List Term}
    (h : List.Forall₂ (fun sv v' => encode sv.1 v' = encode sv.1 sv.2)
      ((Segment.holeSpecs segs).zip vals) vals')
    (hlen : vals.length = (Segment.holeSpecs segs).length) (index : Nat) :
    build.go index (Segment.fill segs vals') = build.go index (Segment.fill segs vals) := by
  induction segs generalizing vals vals' index with
  | nil => rfl
  | cons seg rest ih =>
    cases seg with
    | value s v =>
      simp only [Segment.fill, build.go]
      rw [ih h hlen]
    | hole s p =>
      cases vals with
      | nil => simp [Segment.holeSpecs] at hlen
      | cons v vs =>
        cases h with
        | cons hv h' =>
          simp only [Segment.fill, build.go, hv]
          rw [ih h' (by simpa [Segment.holeSpecs] using hlen)]

/-! ## Matching tile by tile -/

namespace Pattern

theorem matches?_unnamed (ignored : Bool) (default : Option Term) (v : Term) :
    (Pattern.var none ignored default).matches? v = some [⟨none, v⟩] := by
  simp [matches?, checkedName]

/-- Bindings of unnamed variables only are consistent. -/
theorem consistentFrom_of_unnamed (seen : List (String × Term)) {b : Bindings}
    (h : ∀ x ∈ b, x.name = none) : Bindings.consistentFrom seen b = true := by
  induction b with
  | nil => rfl
  | cons x rest ih =>
    obtain ⟨name, v⟩ := x
    have hx : name = none := h _ (List.mem_cons_self ..)
    subst hx
    exact ih fun y hy => h y (List.mem_cons_of_mem _ hy)

section Tile

variable {s : Spec} {segs : List (Segment Term)} {ws : List Window} {preT pre rest : List UInt8}

/-- A value segment's window, past the bytes before it, must hold the value's bytes. -/
theorem matchSegments_value_span {v : Term} {e t : List UInt8} (hT : preT.length = pre.length) :
    matchSegments (.value s v :: segs) (.span pre.length e.length :: ws) (preT ++ (e ++ t))
        (pre ++ rest) =
      if rest.take e.length = e then
        matchSegments segs ws (preT ++ e ++ t) (pre ++ e ++ rest.drop e.length)
      else none := by
  rw [matchSegments_value_cons, Window.slice_span_append]
  by_cases htake : rest.take e.length = e
  · have hlen : e.length ≤ rest.length := by
      have := congrArg List.length htake
      simp only [List.length_take] at this
      omega
    -- the template holds the value's bytes in the same window
    have htpl : (Window.span pre.length e.length).slice (preT ++ (e ++ t)) = some e := by
      rw [← hT, Window.slice_span_append, if_pos (by simp), List.take_left' rfl]
    have hbytes : pre ++ e ++ rest.drop e.length = pre ++ rest := by
      conv_rhs => rw [← List.take_append_drop e.length rest, htake]
      rw [List.append_assoc]
    rw [if_pos hlen, if_pos htake, htake, List.append_assoc preT, hbytes]
    simp [htpl]
  · rw [if_neg htake]
    by_cases hlen : e.length ≤ rest.length
    · have htpl : (Window.span pre.length e.length).slice (preT ++ (e ++ t)) = some e := by
        rw [← hT, Window.slice_span_append, if_pos (by simp), List.take_left' rfl]
      rw [if_pos hlen]
      simp [htpl, Ne.symm htake]
    · rw [if_neg hlen]
      rfl

/-- A variable's window of `len` bytes, past the bytes before it, is read by the segment's format
and its value bound. -/
theorem matchSegments_unnamed_span {ignored : Bool} {default : Option Term} {len : Nat}
    {T : List UInt8} :
    matchSegments (.hole s (.var none ignored default) :: segs) (.span pre.length len :: ws) T
        (pre ++ rest) =
      if len ≤ rest.length then
        (decode s (rest.take len)).bind fun d =>
          (matchSegments segs ws T (pre ++ rest.take len ++ rest.drop len)).map (⟨none, d⟩ :: ·)
      else none := by
  rw [matchSegments_hole_cons, Window.slice_span_append]
  by_cases hlen : len ≤ rest.length
  · rw [if_pos hlen, if_pos hlen, List.append_assoc, List.take_append_drop]
    simp only [Option.bind_eq_bind, Option.bind_some]
    cases hd : decode s (rest.take len)
    · simp
    · simp only [matches?_unnamed, Option.bind_some]
      cases matchSegments segs ws T (pre ++ rest) <;> rfl
  · rw [if_neg hlen, if_neg hlen]
    rfl

/-- A variable's open window takes every remaining byte, read by the segment's format. -/
theorem matchSegments_unnamed_rest {ignored : Bool} {default : Option Term} {T : List UInt8} :
    matchSegments [.hole s (.var none ignored default)] [.rest pre.length] T (pre ++ rest) =
      (decode s rest).map fun d => [⟨none, d⟩] := by
  rw [matchSegments_hole_cons, Window.slice_rest_append]
  simp only [Option.bind_eq_bind, Option.bind_some]
  cases hd : decode s rest <;> simp [matches?_unnamed, matchSegments]

end Tile

/-! ## From a match back to the binary -/

/-- **What matches is rebuilt from what it binds**: the remaining bytes, matched tile by tile,
are the bytes of the segments with their variables given the bound values. The induction runs
over the tiles, carrying the bytes before the current window (`pre` of the candidate, `preT` of
the template) and the bytes the windows have left. -/
theorem build_go_of_matchSegments {start : Nat} {segs : List (Segment Term)} {ws : List Window}
    {t : List UInt8} (htiles : Tiles start segs ws t) (hplain : ∀ seg ∈ segs, seg.Plain)
    {preT pre rest : List UInt8} (hT : preT.length = start) (hB : pre.length = start)
    (hfit : FitsRest ws t rest.length) {b : Bindings}
    (hm : matchSegments segs ws (preT ++ t) (pre ++ rest) = some b)
    (hnan : ∀ s x, (s, Term.float x) ∈ (Segment.holeSpecs segs).zip b.values →
      s.type = .float → s.width = .ok (some 4) → x.isNaN = false)
    (index : Nat) :
    build.go index (Segment.fill segs b.values) = .ok rest := by
  induction htiles generalizing preT pre rest b index with
  | nil start =>
    -- the length check leaves no byte over
    have hrest : rest = [] := List.eq_nil_of_length_eq_zero (hfit.2 not_openEnded_nil)
    subst hrest
    simp only [matchSegments, Option.some.injEq] at hm
    subst hm
    rfl
  | @value start s v e segs ws t he tiles ih =>
    subst hB
    obtain ⟨-, htail⟩ := List.forall_mem_cons.mp hplain
    obtain ⟨-, hfit'⟩ := (fitsRest_span_cons rfl).mp hfit
    rw [matchSegments_value_span hT] at hm
    split at hm
    · rename_i htake
      have hgo := ih htail (by simp [hT]) (by simp) (by simpa using hfit') hm hnan (index + 1)
      rw [Segment.fill, build_go_cons_eq_ok]
      exact ⟨e, _, he, hgo, by conv_lhs => rw [← List.take_append_drop e.length rest, htake]⟩
    · cases hm
  | @sized start s p len segs ws t hw tiles ih =>
    subst hB
    obtain ⟨⟨ig, d, rfl⟩, htail⟩ := List.forall_mem_cons.mp hplain
    obtain ⟨hlen, hfit'⟩ := (fitsRest_span_cons List.length_replicate).mp hfit
    rw [matchSegments_unnamed_span, if_pos hlen] at hm
    obtain ⟨dv, hdv, hm'⟩ := Option.bind_eq_some_iff.mp hm
    obtain ⟨b', hb', rfl⟩ := Option.map_eq_some_iff.mp hm'
    have hwin : (rest.take len).length = len := by
      simp only [List.length_take]
      omega
    -- the variable's value writes back its window; a four-byte float is not a NaN
    have henc : encode s dv = .ok (rest.take len) :=
      encode_of_decode_of_not_nan hdv (.inl (by rw [hwin]; exact hw)) fun x hx hft h4 =>
        hnan s x (by rw [← hx]; exact List.mem_cons_self ..) hft (by rw [hw, ← hwin, h4])
    rw [← List.append_assoc] at hb'
    have hgo := ih htail (by simp [hT]) (by simp [hwin]) (by simpa using hfit') hb'
      (fun s' x hx => hnan s' x (List.mem_cons_of_mem _ hx)) (index + 1)
    simp only [Bindings.values, List.map_cons, Segment.fill]
    rw [build_go_cons_eq_ok]
    exact ⟨_, _, henc, hgo, (List.take_append_drop len rest).symm⟩
  | @last start s p hw =>
    subst hB
    obtain ⟨⟨ig, d, rfl⟩, -⟩ := List.forall_mem_cons.mp hplain
    rw [matchSegments_unnamed_rest] at hm
    obtain ⟨dv, hdv, rfl⟩ := Option.map_eq_some_iff.mp hm
    -- an open window belongs to a segment without a width, which is no number
    have henc : encode s dv = .ok rest := encode_of_decode hdv (.inr hw) fun hft _ => by
      rcases Spec.width_of_float hft hw with h | h <;> cases h
    simp only [Bindings.values, List.map_cons, List.map_nil, Segment.fill]
    rw [build_go_cons_eq_ok]
    exact ⟨_, _, henc, rfl, (List.append_nil rest).symm⟩

/-! ## From a binary to a match -/

/-- **What is built matches**: bytes built from the segments, with values given to their
variables, fill the windows of the tiles; the match binds one unnamed value per variable, in
order, and each bound value writes the bytes of the value it stands for. The induction runs over
the tiles as in `build_go_of_matchSegments`. -/
theorem matchSegments_of_build_go {start : Nat} {segs : List (Segment Term)} {ws : List Window}
    {t : List UInt8} (htiles : Tiles start segs ws t) (hplain : ∀ seg ∈ segs, seg.Plain)
    {vals : List Term} (hlen : vals.length = (Segment.holeSpecs segs).length)
    {index : Nat} {rest : List UInt8}
    (hbuild : build.go index (Segment.fill segs vals) = .ok rest)
    (htext : ∀ s v, (s, v) ∈ (Segment.holeSpecs segs).zip vals → s.IsText →
      ∀ e, encode s v = .ok e → ∃ t, textBytes s.type s.littleEndian t = e)
    {preT pre : List UInt8} (hT : preT.length = start) (hB : pre.length = start) :
    FitsRest ws t rest.length ∧ ∃ b, matchSegments segs ws (preT ++ t) (pre ++ rest) = some b ∧
      (∀ x ∈ b, x.name = none) ∧
      List.Forall₂ (fun sv v' => encode sv.1 v' = encode sv.1 sv.2)
        ((Segment.holeSpecs segs).zip vals) b.values := by
  induction htiles generalizing vals index rest preT pre with
  | nil start =>
    simp only [Segment.fill, build.go, Except.ok.injEq] at hbuild
    subst hbuild
    exact ⟨⟨fun h => absurd h not_openEnded_nil, fun _ => rfl⟩, [], by simp [matchSegments],
      by simp, by simp only [Segment.holeSpecs, List.zip_nil_left]; exact .nil⟩
  | @value start s v e segs ws t he tiles ih =>
    subst hB
    obtain ⟨-, htail⟩ := List.forall_mem_cons.mp hplain
    rw [Segment.fill, build_go_cons_eq_ok] at hbuild
    obtain ⟨e', r, he', hgo, rfl⟩ := hbuild
    rw [he, Except.ok.injEq] at he'
    subst he'
    obtain ⟨hfit, b, hm, hnames, hvals⟩ := ih htail hlen hgo htext
      (by simp [hT] : (preT ++ e).length = _) (by simp : (pre ++ e).length = _)
    refine ⟨(fitsRest_span_cons rfl).mpr ⟨by simp, by simpa using hfit⟩, b, ?_, hnames, hvals⟩
    rw [matchSegments_value_span hT, List.take_left, if_pos rfl, List.drop_left]
    exact hm
  | @sized start s p len segs ws t hw tiles ih =>
    subst hB
    obtain ⟨⟨ig, d, rfl⟩, htail⟩ := List.forall_mem_cons.mp hplain
    -- the variable takes the first value; there is one
    obtain _ | ⟨v, vs⟩ := vals
    · simp [Segment.holeSpecs] at hlen
    rw [Segment.fill, build_go_cons_eq_ok] at hbuild
    obtain ⟨e, r, he, hgo, rfl⟩ := hbuild
    have hlen_e : e.length = len := by
      rcases width_of_encode he with h | h <;> rw [hw] at h <;> cases h
      rfl
    subst hlen_e
    -- what the value writes is read back as a value that writes it again
    obtain ⟨v', hdec, henc⟩ :=
      roundTrip_of_encode he fun htx => htext s v (List.mem_cons_self ..) htx e he
    obtain ⟨hfit, b, hm, hnames, hvals⟩ := ih htail (by simpa [Segment.holeSpecs] using hlen) hgo
      (fun s' v'' hmem => htext s' v'' (List.mem_cons_of_mem _ hmem))
      (by simp [hT] : (preT ++ List.replicate e.length 0).length = _)
      (by simp : (pre ++ e).length = _)
    refine ⟨(fitsRest_span_cons List.length_replicate).mpr ⟨by simp, by simpa using hfit⟩,
      ⟨none, v'⟩ :: b, ?_, ?_, .cons (by rw [henc, he]) hvals⟩
    · rw [matchSegments_unnamed_span, if_pos (by simp), List.take_left, List.drop_left, hdec,
        Option.bind_some, ← List.append_assoc preT, hm, Option.map_some]
    · rintro x (_ | ⟨_, hx⟩)
      · rfl
      · exact hnames x hx
  | @last start s p hw =>
    subst hB
    obtain ⟨⟨ig, d, rfl⟩, -⟩ := List.forall_mem_cons.mp hplain
    obtain _ | ⟨v, vs⟩ := vals
    · simp [Segment.holeSpecs] at hlen
    rw [Segment.fill, build_go_cons_eq_ok] at hbuild
    obtain ⟨e, r, he, hgo, rfl⟩ := hbuild
    -- nothing follows the open window
    have hr : r = [] := by
      cases vs <;> simp only [Segment.fill, build.go, Except.ok.injEq] at hgo <;> exact hgo.symm
    subst hr
    obtain ⟨v', hdec, henc⟩ :=
      roundTrip_of_encode he fun htx => htext s v (List.mem_cons_self ..) htx e he
    refine ⟨⟨fun _ => Nat.zero_le _, fun h => absurd (openEnded_last _) h⟩, [⟨none, v'⟩], ?_,
      by simp, .cons (by rw [henc, he]) (by simp only [Segment.holeSpecs]; exact .nil)⟩
    rw [matchSegments_unnamed_rest, List.append_nil, hdec, Option.map_some]

/-! ## Building and matching agree -/

/-- The layout a binary pattern compiles to is the layout of its segments. -/
theorem build_of_binaryLayout {segs : List (Segment Term)} {l : Layout}
    (h : binaryLayout segs = .ok l) : Layout.build (segs.map Segment.plan) = .ok l := by
  unfold binaryLayout at h
  cases hc : checkSegments segs with
  | error e => simp [hc, bind, Except.bind] at h
  | ok u => simpa [hc, bind, Except.bind] using h

/-- A binary pattern reads a byte string through its layout and the length check. -/
theorem matches?_binary_bits {segs : List (Segment Term)} {l : Layout}
    (hl : Layout.build (segs.map Segment.plan) = .ok l) (bs : List UInt8) :
    (Pattern.binary segs).matches? (.bits bs) =
      if l.fits bs.length then matchSegments segs l.windows l.template bs else none := by
  simp [matches?, candidateBytes?, hl]

/-- **Matching a built binary binds the values it was built from.** Take a binary pattern whose
segments hold values or unnamed variables, and the binary built from it with a value for each
variable, whose text values are written in full characters. Matching the binary succeeds; it
binds one unnamed value per variable, in segment order, each writing the same bytes as the
value it stands for; and building with the bound values gives the binary back. -/
theorem run_binary_of_build {segs : List (Segment Term)} {vals : List Term} {bs : List UInt8}
    {l : Layout} (hplain : ∀ seg ∈ segs, seg.Plain)
    (hlen : vals.length = (Segment.holeSpecs segs).length)
    (hbuild : Binary.build (Segment.fill segs vals) = .ok bs) (hlayout : binaryLayout segs = .ok l)
    (htext : ∀ s v, (s, v) ∈ (Segment.holeSpecs segs).zip vals → s.IsText →
      ∀ e, encode s v = .ok e → ∃ t, textBytes s.type s.littleEndian t = e) :
    ∃ b, (Pattern.binary segs).run (.bits bs) = some b ∧ (∀ x ∈ b, x.name = none) ∧
      List.Forall₂ (fun sv v' => encode sv.1 v' = encode sv.1 sv.2)
        ((Segment.holeSpecs segs).zip vals) b.values ∧
      Binary.build (Segment.fill segs b.values) = .ok bs := by
  have hl := build_of_binaryLayout hlayout
  obtain ⟨hfit, b, hm, hnames, hvals⟩ := matchSegments_of_build_go (tiles_of_build hl) hplain
    hlen hbuild htext (rfl : ([] : List UInt8).length = 0) (rfl : ([] : List UInt8).length = 0)
  refine ⟨b, ?_, hnames, hvals, ?_⟩
  · -- the whole binary passes the length check, and unnamed bindings are consistent
    rw [run_eq, matches?_binary_bits hl, if_pos ((fits_iff l bs.length).mpr hfit)]
    rw [List.nil_append, List.nil_append] at hm
    have hcons : b.consistent = true := consistentFrom_of_unnamed [] hnames
    rw [hm, Option.filter_some, if_pos hcons]
  · -- the bound values write what the values they stand for write
    exact (build_go_fill_congr hvals hlen 0).trans hbuild

/-- A byte of value and a UTF-8 variable over the rest: the binary built with the text "hé"
matches, and rebuilds from what the match binds. -/
theorem run_binary_of_build_text_tail :
    let segs : List (Segment Term) := [.value ⟨.integer, some 8, none, []⟩ (.int 1),
      .hole ⟨.utf8, none, none, []⟩ (.var none false none)]
    Binary.build (Segment.fill segs [.str "hé"]) = .ok [1, 104, 195, 169] ∧
      ∃ b, (Pattern.binary segs).run (.bits [1, 104, 195, 169]) = some b ∧
        Binary.build (Segment.fill segs b.values) = .ok [1, 104, 195, 169] := by
  intro segs
  have hbuild : Binary.build (Segment.fill segs [.str "hé"]) = .ok [1, 104, 195, 169] := rfl
  have htext : ∀ s v, (s, v) ∈ (Segment.holeSpecs segs).zip [.str "hé"] → s.IsText →
      ∀ e, encode s v = .ok e → ∃ t, textBytes s.type s.littleEndian t = e := by
    intro s v hmem _ e he
    simp only [segs, Segment.holeSpecs, List.zip_cons_cons, List.zip_nil_left, List.mem_singleton,
      Prod.mk.injEq] at hmem
    obtain ⟨rfl, rfl⟩ := hmem
    rw [show encode ⟨.utf8, none, none, []⟩ (.str "hé") = .ok [104, 195, 169] from rfl,
      Except.ok.injEq] at he
    exact ⟨"hé", by rw [← he]; rfl⟩
  obtain ⟨b, hrun, -, -, hre⟩ := run_binary_of_build (by simp [segs, Segment.Plain]) rfl hbuild
    (rfl : binaryLayout segs = .ok ⟨[.span 0 1, .rest 1], [1]⟩) htext
  exact ⟨hbuild, b, hrun, hre⟩

/-- **A matched binary is rebuilt from its bindings.** When a binary pattern whose segments hold
values or unnamed variables matches a byte string, building the pattern with the bound values in
place of its variables gives the byte string back, as long as no four-byte float binds a NaN. -/
theorem build_fill_of_run_binary {segs : List (Segment Term)} {bs : List UInt8} {b : Bindings}
    (hplain : ∀ seg ∈ segs, seg.Plain) (hrun : (Pattern.binary segs).run (.bits bs) = some b)
    (hnan : ∀ s x, (s, Term.float x) ∈ (Segment.holeSpecs segs).zip b.values →
      s.type = .float → s.width = .ok (some 4) → x.isNaN = false) :
    Binary.build (Segment.fill segs b.values) = .ok bs := by
  rw [run_eq] at hrun
  obtain ⟨hm, -⟩ := Option.filter_eq_some_iff.mp hrun
  cases hl : Layout.build (segs.map Segment.plan) with
  | error e => simp [matches?, candidateBytes?, hl] at hm
  | ok l =>
    rw [matches?_binary_bits hl] at hm
    split at hm
    · rename_i hfits
      have hm' : matchSegments segs l.windows ([] ++ l.template) ([] ++ bs) = some b := hm
      exact build_go_of_matchSegments (tiles_of_build hl) hplain rfl rfl
        ((fits_iff l bs.length).mp hfits) hm' hnan 0
    · cases hm

/-- A byte of value and a four-byte float variable: the binary holding 1.0 after the byte matches,
and rebuilds from what the match binds. -/
theorem build_fill_of_run_binary_float :
    let segs : List (Segment Term) := [.value ⟨.integer, some 8, none, []⟩ (.int 1),
      .hole ⟨.float, some 32, none, []⟩ (.var none false none)]
    (Pattern.binary segs).run (.bits [1, 0x3F, 0x80, 0, 0]) =
        some [⟨none, .float ⟨0x3FF0000000000000⟩⟩] ∧
      Binary.build (Segment.fill segs [.float ⟨0x3FF0000000000000⟩]) =
        .ok [1, 0x3F, 0x80, 0, 0] := by
  intro segs
  have hrun : (Pattern.binary segs).run (.bits [1, 0x3F, 0x80, 0, 0]) =
      some [⟨none, .float ⟨0x3FF0000000000000⟩⟩] := rfl
  refine ⟨hrun, build_fill_of_run_binary (by simp [segs, Segment.Plain]) hrun ?_⟩
  intro s x hmem _ _
  simp only [segs, Segment.holeSpecs, Bindings.values, List.map_cons, List.map_nil,
    List.zip_cons_cons, List.zip_nil_left, List.mem_singleton, Prod.mk.injEq,
    Term.float.injEq] at hmem
  obtain ⟨-, rfl⟩ := hmem
  rfl

end Pattern

end ActorCore
