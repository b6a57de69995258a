import Mathlib
import ActorCore.Binary.Decode

/-!
# Byte orders and text encodings

The codecs under the segments of a binary, each with its two round trips. Writing a number in
`w` bytes keeps it modulo `256 ^ w`, and reading `w` bytes and writing them back gives the same
bytes, in either byte order. A text's UTF-8, UTF-16 or UTF-32 bytes read back as the text, and a
window that reads as a text is exactly that text's bytes.

* `ofBigEndian_bigEndian`, `bigEndian_ofBigEndian` — big-endian numbers.
* `word_ordered`, `ordered_word` — the same in either byte order.
* `charOf?_eq_some` — a code point names the character whose code point it is.
* `fromUTF8?_eq_some_iff` — a window reads as UTF-8 text exactly when it is the text's bytes.
* `ofUtf16Units_flatMap_utf16Units`, `flatMap_utf16Units_of_ofUtf16Units` — UTF-16 code units,
  surrogate pairs included.

Principal result: `decode_eq_str_iff`, a UTF window reads as a text exactly when it is that text's
bytes in the segment's format and byte order.
-/

-- Powers of naturals are core's `Nat.pow`, as in the definitions these lemmas are about.
attribute [local instance (2000)] instPowNat

namespace ActorCore.Binary

/-! ## Big-endian numbers -/

@[simp] theorem length_bigEndian (w v : Nat) : (bigEndian w v).length = w := by
  induction w generalizing v with
  | zero => rfl
  | succ w ih => simp [bigEndian, ih]

theorem ofBigEndian_append_singleton (l : List UInt8) (b : UInt8) :
    ofBigEndian (l ++ [b]) = ofBigEndian l * 256 + b.toNat := by
  simp [ofBigEndian, List.foldl_append]

theorem toNat_toUInt8_mod (v : Nat) : (v % 256).toUInt8.toNat = v % 256 := by
  simp only [Nat.toUInt8_eq, UInt8.toNat_ofNat']
  omega

/-- Writing `v` in `w` bytes keeps it modulo `256 ^ w`. -/
theorem ofBigEndian_bigEndian (w v : Nat) : ofBigEndian (bigEndian w v) = v % 256 ^ w := by
  induction w generalizing v with
  | zero => simp [bigEndian, ofBigEndian, Nat.mod_one]
  | succ w ih =>
    rw [bigEndian, ofBigEndian_append_singleton, ih, toNat_toUInt8_mod, Nat.pow_succ',
      Nat.mod_mul]
    omega

theorem ofBigEndian_lt (l : List UInt8) : ofBigEndian l < 256 ^ l.length := by
  induction l using List.reverseRecOn with
  | nil => simp [ofBigEndian]
  | append_singleton l b ih =>
    have hb : b.toNat < 256 := b.toNat_lt
    rw [ofBigEndian_append_singleton, List.length_append, List.length_singleton, Nat.pow_succ]
    omega

/-- Reading bytes and writing the number back in as many bytes gives the same bytes. -/
theorem bigEndian_ofBigEndian (l : List UInt8) : bigEndian l.length (ofBigEndian l) = l := by
  induction l using List.reverseRecOn with
  | nil => rfl
  | append_singleton l b ih =>
    have hb : b.toNat < 256 := b.toNat_lt
    rw [ofBigEndian_append_singleton, List.length_append, List.length_singleton, bigEndian,
      show (ofBigEndian l * 256 + b.toNat) / 256 = ofBigEndian l by omega,
      show (ofBigEndian l * 256 + b.toNat) % 256 = b.toNat by omega, ih, Nat.toUInt8_eq,
      UInt8.ofNat_toNat]

theorem bigEndian_mod (w v : Nat) : bigEndian w (v % 256 ^ w) = bigEndian w v := by
  have h := bigEndian_ofBigEndian (bigEndian w v)
  rwa [length_bigEndian, ofBigEndian_bigEndian] at h

/-! ## Byte orders -/

section Order

variable (little : Bool)

@[simp] theorem length_ordered (w v : Nat) : (ordered little w v).length = w := by
  cases little <;> simp [ordered]

theorem word_ordered (w v : Nat) : word little (ordered little w v) = v % 256 ^ w := by
  cases little <;> simp [word, ordered, ofBigEndian_bigEndian]

theorem ordered_word (l : List UInt8) : ordered little l.length (word little l) = l := by
  cases little
  · exact bigEndian_ofBigEndian l
  · have h := bigEndian_ofBigEndian l.reverse
    rw [List.length_reverse] at h
    simp [ordered, word, h]

theorem word_lt (l : List UInt8) : word little l < 256 ^ l.length := by
  have h := ofBigEndian_lt (if little then l.reverse else l)
  cases little <;> simpa [word] using h

theorem ordered_mod (w v : Nat) : ordered little w (v % 256 ^ w) = ordered little w v := by
  simp [ordered, bigEndian_mod]

end Order

/-! ## Code points -/

theorem toNat_ofNat_of_isValidChar {n : Nat} (h : n.isValidChar) : (Char.ofNat n).toNat = n := by
  simp [Char.ofNat, h, Char.ofNatAux, Char.toNat]

/-- A code point names exactly the character whose code point it is. -/
theorem charOf?_eq_some {n : Nat} {c : Char} : charOf? n = some c ↔ c.toNat = n := by
  constructor
  · intro h
    unfold charOf? at h
    split at h
    · cases h
      exact toNat_ofNat_of_isValidChar ‹_›
    · cases h
  · rintro rfl
    have hv : c.toNat.isValidChar := c.valid
    rw [charOf?, if_pos hv, Char.ofNat_toNat]

/-! ## UTF-8 -/

/-- A window reads as UTF-8 text exactly when it is the text's bytes. -/
theorem fromUTF8?_eq_some_iff {w : List UInt8} {t : String} :
    String.fromUTF8? ⟨w.toArray⟩ = some t ↔ utf8Bytes t = w := by
  unfold String.fromUTF8? utf8Bytes
  constructor
  · intro h
    split at h
    · cases h
      rfl
    · cases h
  · rintro rfl
    simp [t.isValidUTF8, String.fromUTF8]

/-! ## UTF-16 -/

theorem utf16Units_lt (c : Char) : ∀ u ∈ utf16Units c, u < 2 ^ 16 := by
  have hv : c.toNat.isValidChar := c.valid
  unfold utf16Units
  split <;> simp <;> omega

theorem not_surrogate (c : Char) : ¬ (0xD800 ≤ c.toNat ∧ c.toNat < 0xE000) := by
  have hv : c.toNat.isValidChar := c.valid
  unfold Nat.isValidChar at hv
  omega

/-- A text's UTF-16 code units read back as the text. -/
theorem ofUtf16Units_flatMap_utf16Units (cs : List Char) :
    ofUtf16Units (cs.flatMap utf16Units) = some cs := by
  induction cs with
  | nil => rfl
  | cons c rest ih =>
    have hs := not_surrogate c
    have hv : c.toNat.isValidChar := c.valid
    rw [List.flatMap_cons]
    by_cases hbmp : c.toNat < 0x10000
    · -- one code unit: the character itself
      rw [utf16Units, if_pos hbmp]
      cases hr : rest.flatMap utf16Units with
      | nil =>
        rw [hr] at ih
        cases ih
        simp [ofUtf16Units, hs, charOf?_eq_some.mpr rfl]
      | cons w more =>
        rw [hr] at ih
        simp only [List.cons_append, List.nil_append, ofUtf16Units]
        rw [if_neg (by omega), if_neg (by omega), charOf?_eq_some.mpr rfl, ih]
        rfl
    · -- a surrogate pair, whose two halves give back the code point
      rw [utf16Units, if_neg hbmp]
      simp only [List.cons_append, List.nil_append, ofUtf16Units]
      rw [if_pos (by unfold Nat.isValidChar at hv; omega), if_pos (by omega),
        charOf?_eq_some.mpr (by omega : c.toNat = _), ih]
      rfl

/-- UTF-16 code units below `2 ^ 16` that read as characters are those characters' code units. -/
theorem flatMap_utf16Units_of_ofUtf16Units {us : List Nat} {cs : List Char}
    (h : ofUtf16Units us = some cs) (hus : ∀ u ∈ us, u < 2 ^ 16) :
    cs.flatMap utf16Units = us := by
  fun_induction ofUtf16Units us generalizing cs with
  | case1 =>
    cases h
    rfl
  | case2 u hsur => cases h
  | case3 u hsur =>
    obtain ⟨c, hc, rfl⟩ := Option.map_eq_some_iff.mp h
    have hcu := charOf?_eq_some.mp hc
    have hu := hus u (List.mem_singleton_self u)
    simp [utf16Units, hcu, show u < 0x10000 by omega]
  | case4 u w rest hhi hlo ih =>
    -- a surrogate pair: the character's own pair is the pair read
    obtain ⟨c, hc, h'⟩ := Option.bind_eq_some_iff.mp h
    obtain ⟨cs', hcs', h''⟩ := Option.bind_eq_some_iff.mp h'
    cases h''
    have hcu := charOf?_eq_some.mp hc
    have hrest := ih hcs' fun x hx => hus x (List.mem_cons_of_mem _ (List.mem_cons_of_mem _ hx))
    rw [List.flatMap_cons, hrest, utf16Units, if_neg (by omega)]
    simp only [List.cons_append, List.nil_append, List.cons.injEq, and_true]
    omega
  | case5 u w rest hhi hlo => cases h
  | case6 u w rest hhi hlo => cases h
  | case7 u w rest hhi hlo ih =>
    obtain ⟨c, hc, h'⟩ := Option.bind_eq_some_iff.mp h
    obtain ⟨cs', hcs', h''⟩ := Option.bind_eq_some_iff.mp h'
    cases h''
    have hcu := charOf?_eq_some.mp hc
    obtain ⟨hu, hus⟩ := List.forall_mem_cons.mp hus
    rw [List.flatMap_cons, ih hcs' hus, utf16Units, if_pos (by omega), hcu]
    rfl

/-! ## Code units as bytes -/

theorem pairs_eq_some_iff {w : List UInt8} {ps : List (UInt8 × UInt8)} :
    pairs w = some ps ↔ w = ps.flatMap fun p => [p.1, p.2] := by
  constructor
  · intro h
    fun_induction pairs w generalizing ps with
    | case1 =>
      cases h
      rfl
    | case2 a b rest ih =>
      obtain ⟨ps', hps', rfl⟩ := Option.map_eq_some_iff.mp h
      simp [ih hps']
    | case3 => cases h
  · rintro rfl
    induction ps with
    | nil => rfl
    | cons p ps ih => simp [pairs, ih]

theorem quads_eq_some_iff {w : List UInt8} {qs : List (List UInt8)} :
    quads w = some qs ↔ w = qs.flatten ∧ ∀ q ∈ qs, q.length = 4 := by
  constructor
  · intro h
    fun_induction quads w generalizing qs with
    | case1 =>
      cases h
      simp
    | case2 a b c d rest ih =>
      obtain ⟨qs', hqs', rfl⟩ := Option.map_eq_some_iff.mp h
      obtain ⟨hflat, hlen⟩ := ih hqs'
      refine ⟨by simp [hflat], ?_⟩
      simpa using hlen
    | case3 => cases h
  · rintro ⟨rfl, hlen⟩
    induction qs with
    | nil => rfl
    | cons q qs ih =>
      obtain ⟨hq, hrest⟩ := List.forall_mem_cons.mp hlen
      obtain ⟨a, b, c, d, rfl⟩ : ∃ a b c d, q = [a, b, c, d] := by
        match q, hq with
        | [a, b, c, d], _ => exact ⟨a, b, c, d, rfl⟩
      simp [quads, ih hrest]

section Units

variable (little : Bool)

/-- Code units below `2 ^ 16`, each written in two bytes, are read back two bytes at a time. -/
theorem pairs_flatMap_ordered (us : List Nat) (hus : ∀ u ∈ us, u < 2 ^ 16) :
    ∃ ps, pairs (us.flatMap (ordered little 2)) = some ps ∧
      ps.map (fun p => word little [p.1, p.2]) = us := by
  induction us with
  | nil => exact ⟨[], rfl, rfl⟩
  | cons u rest ih =>
    obtain ⟨hu, hus⟩ := List.forall_mem_cons.mp hus
    obtain ⟨ps, hps, hmap⟩ := ih hus
    obtain ⟨a, b, hab⟩ := List.length_eq_two.mp (length_ordered little 2 u)
    have hw : word little [a, b] = u := by
      rw [← hab, word_ordered]
      omega
    refine ⟨(a, b) :: ps, ?_, ?_⟩
    · rw [List.flatMap_cons, hab]
      simp [pairs, hps]
    · simp [hmap, hw]

/-- Pairs of bytes read as code units and written back are the same bytes. -/
theorem flatMap_ordered_word_pairs (ps : List (UInt8 × UInt8)) :
    (ps.map fun p => word little [p.1, p.2]).flatMap (ordered little 2) =
      ps.flatMap fun p => [p.1, p.2] := by
  induction ps with
  | nil => rfl
  | cons p ps ih =>
    rw [List.map_cons, List.flatMap_cons, List.flatMap_cons, ih]
    exact congrArg (· ++ _) (ordered_word little [p.1, p.2])

/-- Characters written as four-byte code units read back, four bytes at a time. -/
theorem mapM_charOf?_ordered (cs : List Char) :
    (cs.map fun c => ordered little 4 c.toNat).mapM (fun q => charOf? (word little q)) =
      some cs := by
  induction cs with
  | nil => rfl
  | cons c rest ih =>
    have hv : c.toNat.isValidChar := c.valid
    have hc : word little (ordered little 4 c.toNat) = c.toNat := by
      rw [word_ordered]
      unfold Nat.isValidChar at hv
      omega
    simp [List.mapM_cons, hc, charOf?_eq_some.mpr rfl, ih]

/-- Four-byte code units that read as characters are those characters' code units. -/
theorem flatMap_ordered_of_mapM {qs : List (List UInt8)} {cs : List Char}
    (h : qs.mapM (fun q => charOf? (word little q)) = some cs) (hlen : ∀ q ∈ qs, q.length = 4) :
    cs.flatMap (fun c => ordered little 4 c.toNat) = qs.flatten := by
  induction qs generalizing cs with
  | nil =>
    cases h
    rfl
  | cons q rest ih =>
    rw [List.mapM_cons] at h
    obtain ⟨c, hc, h'⟩ := Option.bind_eq_some_iff.mp h
    obtain ⟨cs', hcs', h''⟩ := Option.bind_eq_some_iff.mp h'
    cases h''
    obtain ⟨hq, hlen⟩ := List.forall_mem_cons.mp hlen
    rw [List.flatMap_cons, ih hcs' hlen, charOf?_eq_some.mp hc, ← hq, ordered_word,
      List.flatten_cons]

end Units

/-! ## Text windows -/

/-- The formats whose windows hold text. -/
def Spec.IsText (s : Spec) : Prop :=
  s.type = .utf8 ∨ s.type = .utf16 ∨ s.type = .utf32

/-- A window of a text format reads as text whenever it reads at all. -/
theorem exists_str_of_decode {s : Spec} {w : List UInt8} {v : Term} (hs : s.IsText)
    (h : decode s w = some v) : ∃ t, v = .str t := by
  rcases hs with hs | hs | hs <;> simp only [decode, hs] at h
  · obtain ⟨t, -, rfl⟩ := Option.map_eq_some_iff.mp h
    exact ⟨t, rfl⟩
  all_goals
    obtain ⟨_, -, h'⟩ := Option.bind_eq_some_iff.mp h
    obtain ⟨cs, -, h''⟩ := Option.bind_eq_some_iff.mp h'
    exact ⟨_, (Option.some.inj h'').symm⟩

/-- **A text window reads as a text exactly when it holds that text's bytes**, in the segment's
format and byte order. -/
theorem decode_eq_str_iff {s : Spec} (hs : s.IsText) (w : List UInt8) (t : String) :
    decode s w = some (.str t) ↔ textBytes s.type s.littleEndian t = w := by
  rcases hs with hs | hs | hs
  · -- UTF-8
    simp only [decode, textBytes, hs, Option.map_eq_some_iff, Term.str.injEq, exists_eq_right]
    exact fromUTF8?_eq_some_iff
  · -- UTF-16: bytes to code units to characters
    simp only [decode, textBytes, hs]
    constructor
    · intro h
      obtain ⟨ps, hps, h'⟩ := Option.bind_eq_some_iff.mp h
      obtain ⟨cs, hcs, h''⟩ := Option.bind_eq_some_iff.mp h'
      cases h''
      have hlt : ∀ u ∈ ps.map (fun p => word s.littleEndian [p.1, p.2]), u < 2 ^ 16 := by
        intro u hu
        obtain ⟨p, -, rfl⟩ := List.mem_map.mp hu
        have := word_lt s.littleEndian [p.1, p.2]
        simp only [List.length_cons, List.length_nil] at this
        omega
      rw [String.toList_ofList, ← List.flatMap_assoc, flatMap_utf16Units_of_ofUtf16Units hcs hlt,
        flatMap_ordered_word_pairs, pairs_eq_some_iff.mp hps]
    · rintro rfl
      obtain ⟨ps, hps, hmap⟩ := pairs_flatMap_ordered s.littleEndian (t.toList.flatMap utf16Units)
        fun u hu => by
          obtain ⟨c, -, hc⟩ := List.mem_flatMap.mp hu
          exact utf16Units_lt c u hc
      rw [← List.flatMap_assoc, hps]
      simp [hmap, ofUtf16Units_flatMap_utf16Units]
  · -- UTF-32: bytes to four-byte code units to characters
    simp only [decode, textBytes, hs]
    constructor
    · intro h
      obtain ⟨qs, hqs, h'⟩ := Option.bind_eq_some_iff.mp h
      obtain ⟨cs, hcs, h''⟩ := Option.bind_eq_some_iff.mp h'
      cases h''
      obtain ⟨rfl, hlen⟩ := quads_eq_some_iff.mp hqs
      rw [String.toList_ofList, flatMap_ordered_of_mapM s.littleEndian hcs hlen]
    · rintro rfl
      have hq : quads (t.toList.flatMap fun c => ordered s.littleEndian 4 c.toNat) =
          some (t.toList.map fun c => ordered s.littleEndian 4 c.toNat) :=
        quads_eq_some_iff.mpr ⟨List.flatMap_def, by simp⟩
      simp only [hq, Option.bind_eq_bind, Option.bind_some, mapM_charOf?_ordered,
        String.ofList_toList]
      rfl

end ActorCore.Binary
