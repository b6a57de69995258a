import ActorCore.Proofs.Single
import ActorCore.Proofs.Codec

/-!
# Reading a segment's window back

A segment's window read by its format and written back by the same format gives the window
again, and a value's bytes read back as a value that writes the same bytes. The formats differ
only in the codec under them: two's complement numbers cut to the segment's width, doubles and
singles, byte strings, and the UTF encodings. The window's length must be the segment's width,
or the segment must have none; a 4-byte float window must not hold a signalling NaN, which
reading quiets.

* `Spec.width_of_integer`, `Spec.width_of_float` — numbers always have a width: at most 8 bytes
  for an integer, 4 or 8 for a float.
* `decodeInt_mod` — a read integer, cut to the window's width, is the number the window spells.
* `encode_eq_ok` — what a segment writes, by its type.
* `width_of_encode` — a value's bytes are as long as the segment's width.

Principal results: `encode_of_decode`, reading then writing (with `encode_of_decode_of_not_nan`
for the values read), and `roundTrip_of_encode`, writing then reading then writing.
-/

-- Powers of naturals are core's `Nat.pow`, as in the definitions these lemmas are about.
attribute [local instance (2000)] instPowNat

namespace ActorCore.Binary

/-! ## Widths of numbers -/

namespace Spec

theorem bits_isSome {s : Spec} (ht : s.type = .integer ∨ s.type = .float) : s.bits.isSome := by
  rcases ht with ht | ht <;> cases hs : s.size <;> simp [bits, ht, hs, SegmentType.defaultSize]

theorem width_of_integer {s : Spec} {width : Option Nat} (ht : s.type = .integer)
    (hw : s.width = .ok width) : ∃ n, width = some n ∧ n ≤ 8 := by
  obtain ⟨b, hb⟩ := Option.isSome_iff_exists.mp (bits_isSome (.inl ht))
  simp only [Spec.width, hb, ht] at hw
  split at hw
  · cases hw
  · split at hw
    · cases hw
    · split at hw
      · cases hw
      · cases hw
        exact ⟨b / 8, rfl, by simp_all; omega⟩

theorem width_of_float {s : Spec} {width : Option Nat} (ht : s.type = .float)
    (hw : s.width = .ok width) : width = some 4 ∨ width = some 8 := by
  obtain ⟨b, hb⟩ := Option.isSome_iff_exists.mp (bits_isSome (.inr ht))
  simp only [Spec.width, hb, ht] at hw
  split at hw
  · cases hw
  · split at hw
    · cases hw
    · split at hw
      · cases hw
      · cases hw
        simp_all
        omega

end Spec

/-! ## Integers cut to a width -/

/-- A number congruent to `n < P` modulo `P`, cut to 64 bits and then to `P`, is `n` again, for
a `P` that divides `2 ^ 64`. -/
theorem toNat_emod_mod {d : Int} {n P : Nat} (hP : P ∣ 2 ^ 64) (hn : n < P)
    (hd : ∃ k : Int, d = n + k * P) : (d % 2 ^ 64).toNat % P = n := by
  obtain ⟨k, rfl⟩ := hd
  have hnonneg : 0 ≤ ((n : Int) + k * P) % 2 ^ 64 := Int.emod_nonneg _ (by decide)
  have hdvd : (P : Int) ∣ 2 ^ 64 := Int.natCast_dvd_natCast.mpr hP
  apply Int.ofNat.inj
  show (((_ : Int).toNat % P : Nat) : Int) = n
  rw [Int.natCast_emod, Int.toNat_of_nonneg hnonneg, Int.emod_emod_of_dvd _ hdvd,
    Int.add_mul_emod_self_right, Int.emod_eq_of_lt (by omega) (by omega)]

/-- **A read integer, cut to the window's width, is the number the window spells**: sign
extension and the 64-bit wrap only add multiples of `256 ^ width`. -/
theorem decodeInt_mod (signed : Bool) (bytes : List UInt8) (h : bytes.length ≤ 8) :
    (decodeInt signed bytes % 2 ^ 64).toNat % 256 ^ bytes.length = ofBigEndian bytes := by
  have hn := ofBigEndian_lt bytes
  have hdvd : 256 ^ bytes.length ∣ 2 ^ 64 := Nat.pow_dvd_pow 256 h
  have hP : ((256 ^ bytes.length : Nat) : Int) = 2 ^ (8 * bytes.length) := by
    rw [show 256 ^ bytes.length = 2 ^ (8 * bytes.length) by rw [Nat.pow_mul]]
    exact Int.natCast_pow 2 _
  have hQ : ((2 ^ 64 / 256 ^ bytes.length : Nat) : Int) * ((256 ^ bytes.length : Nat) : Int) =
      2 ^ 64 := by
    rw [← Int.natCast_mul, Nat.div_mul_cancel hdvd]
    rfl
  apply toNat_emod_mod hdvd hn
  simp only [decodeInt]
  split
  · -- sign extension subtracts `256 ^ width` once
    exact ⟨-1, by rw [hP]; omega⟩
  · split
    · -- the 64-bit wrap subtracts `2 ^ 64`
      exact ⟨-((2 ^ 64 / 256 ^ bytes.length : Nat) : Int), by rw [Int.neg_mul, hQ]; omega⟩
    · exact ⟨0, by omega⟩

/-! ## What a segment writes -/

theorem takePrefix_self (type : SegmentType) (bytes : List UInt8) {width : Option Nat}
    (h : width = some bytes.length ∨ width = none) : takePrefix type bytes width = .ok bytes := by
  rcases h with rfl | rfl
  · simp [takePrefix]
  · rfl

theorem length_of_takePrefix {type : SegmentType} {bytes w : List UInt8} {n : Nat}
    (h : takePrefix type bytes (some n) = .ok w) : w.length = n := by
  simp only [takePrefix] at h
  split at h
  · cases h
  · cases h
    simp only [List.length_take]
    omega

section Encode

variable {s : Spec} {width : Option Nat}

theorem encode_int (hw : s.width = .ok width) (ht : s.type = .integer) (n : Int) :
    encode s (.int n) = .ok (ordered s.littleEndian (width.getD 1) (n % 2 ^ 64).toNat) := by
  simp only [encode, hw, ht, bind, Except.bind, pure, Except.pure]

theorem encode_float (hw : s.width = .ok width) (ht : s.type = .float) (x : Double) :
    encode s (.float x) = .ok (if width = some 4 then ordered s.littleEndian 4 x.toSingleBits.toNat
      else ordered s.littleEndian 8 x.bits.toNat) := by
  simp only [encode, hw, ht, bind, Except.bind, pure, Except.pure]
  split <;> rfl

theorem encode_bits (hw : s.width = .ok width) (ht : s.type = .binary ∨ s.type = .bitstring)
    (bytes : List UInt8) : encode s (.bits bytes) = takePrefix s.type bytes width := by
  rcases ht with ht | ht <;> simp only [encode, hw, ht, bind, Except.bind]

theorem encode_str (hw : s.width = .ok width) (ht : s.IsText) (t : String) :
    encode s (.str t) = takePrefix s.type (textBytes s.type s.littleEndian t) width := by
  rcases ht with ht | ht | ht <;> simp only [encode, hw, ht, textOf?, bind, Except.bind]

/-- What a segment writes, by its type: an integer cut to the width, a double or single, a
prefix of a byte string, or a prefix of a text's bytes. -/
theorem encode_eq_ok {v : Term} {w : List UInt8} (h : encode s v = .ok w) :
    ∃ width, s.width = .ok width ∧
      (s.type = .integer →
        ∃ n : Int, w = ordered s.littleEndian (width.getD 1) (n % 2 ^ 64).toNat) ∧
      (s.type = .float → ∃ x : Double, w = if width = some 4
        then ordered s.littleEndian 4 x.toSingleBits.toNat
        else ordered s.littleEndian 8 x.bits.toNat) ∧
      (s.type = .binary ∨ s.type = .bitstring → ∃ bytes, takePrefix s.type bytes width = .ok w) ∧
      (s.IsText → ∃ t, takePrefix s.type (textBytes s.type s.littleEndian t) width = .ok w) := by
  cases hw : s.width with
  | error e =>
    simp only [encode, hw, bind, Except.bind, reduceCtorEq] at h
  | ok width =>
    refine ⟨width, rfl, fun ht => ?_, fun ht => ?_, fun ht => ?_, fun ht => ?_⟩
    · -- only an integer value writes an integer segment
      cases v <;> simp only [encode, hw, ht, bind, Except.bind, pure, Except.pure, throw, throwThe,
        MonadExceptOf.throw, reduceCtorEq] at h
      case int n => exact ⟨n, (Except.ok.inj h).symm⟩
    · -- a float segment writes a double, or the double nearest an integer
      have hx : ∀ x : Double, (if width = some 4 then Except.ok (ordered s.littleEndian 4
            x.toSingleBits.toNat) else .ok (ordered s.littleEndian 8 x.bits.toNat) :
            Except Error (List UInt8)) = .ok w →
          ∃ x : Double, w = if width = some 4 then ordered s.littleEndian 4 x.toSingleBits.toNat
            else ordered s.littleEndian 8 x.bits.toNat := by
        intro x hx
        refine ⟨x, ?_⟩
        split at hx <;> rename_i h4 <;> cases hx
        · rw [if_pos h4]
        · rw [if_neg h4]
      cases v <;> simp only [encode, hw, ht, bind, Except.bind, pure, Except.pure, throw, throwThe,
        MonadExceptOf.throw, reduceCtorEq] at h
      case int n => exact hx _ h
      case float x => exact hx _ h
    · rcases ht with ht | ht <;> cases v <;> simp only [encode, hw, ht, bind, Except.bind, throw,
        throwThe, MonadExceptOf.throw, reduceCtorEq] at h
      all_goals rw [ht]; exact ⟨_, h⟩
    · rcases ht with ht | ht | ht <;> simp only [encode, hw, ht, bind, Except.bind, throw, throwThe,
        MonadExceptOf.throw] at h <;> split at h <;> first | (rw [ht]; exact ⟨_, h⟩) | cases h

end Encode

/-- A value's bytes are as long as the segment's width, when it has one. -/
theorem width_of_encode {s : Spec} {v : Term} {w : List UInt8} (h : encode s v = .ok w) :
    s.width = .ok (some w.length) ∨ s.width = .ok none := by
  obtain ⟨width, hw, hint, hfloat, hbytes, htext⟩ := encode_eq_ok h
  rw [hw]
  cases hwd : width with
  | none => exact .inr rfl
  | some n =>
    refine .inl (congrArg (fun n => Except.ok (some n)) ?_)
    cases ht : s.type
    case integer =>
      obtain ⟨m, rfl⟩ := hint ht
      simp [hwd]
    case float =>
      obtain ⟨x, rfl⟩ := hfloat ht
      rcases Spec.width_of_float ht hw with h4 | h8
      · rw [hwd] at h4
        cases h4
        simp [hwd]
      · rw [hwd] at h8
        cases h8
        simp [hwd]
    case binary | bitstring =>
      obtain ⟨bytes, hb⟩ := hbytes (by simp [ht])
      rw [hwd] at hb
      exact (length_of_takePrefix hb).symm
    case utf8 | utf16 | utf32 =>
      obtain ⟨t, ht'⟩ := htext (by simp [Spec.IsText, ht])
      rw [hwd] at ht'
      exact (length_of_takePrefix ht').symm

/-! ## Reading then writing -/

section Decode

variable {s : Spec} {w : List UInt8} {v : Term}

theorem encode_of_decode_int (ht : s.type = .integer) (hdec : decode s w = some v)
    (hw : s.width = .ok (some w.length)) : encode s v = .ok w := by
  simp only [decode, ht] at hdec
  split at hdec
  · cases hdec
  · rename_i hle
    cases hdec
    have hlen : (if s.littleEndian then w.reverse else w).length = w.length := by
      cases s.littleEndian <;> simp
    have hmod := decodeInt_mod s.signed (if s.littleEndian then w.reverse else w) (by omega)
    rw [hlen] at hmod
    rw [encode_int hw ht, Option.getD_some, ← ordered_mod, hmod]
    exact congrArg Except.ok (ordered_word s.littleEndian w)

/-- Four bytes of a float segment read as the double of a single. -/
theorem decode_float_four (ht : s.type = .float) (h4 : w.length = 4) :
    decode s w = some (.float (Double.ofSingleBits (word s.littleEndian w).toUInt32)) := by
  simp [decode, ht, h4]

theorem encode_of_decode_float (ht : s.type = .float) (hdec : decode s w = some v)
    (hw : s.width = .ok (some w.length))
    (hnan : w.length = 4 → ¬ Double.SignalingSingle (word s.littleEndian w).toUInt32) :
    encode s v = .ok w := by
  have hlt := word_lt s.littleEndian w
  simp only [decode, ht] at hdec
  split at hdec
  · -- four bytes: a single, which reads as a double and writes back unless it signals
    rename_i h4
    cases hdec
    rw [encode_float hw ht, if_pos (by rw [h4]), Double.toSingleBits_ofSingleBits _ (hnan h4)]
    simp only [Nat.toUInt32_eq, UInt32.toNat_ofNat']
    rw [h4] at hlt
    rw [Nat.mod_eq_of_lt (by omega), ← h4]
    exact congrArg Except.ok (ordered_word s.littleEndian w)
  · split at hdec
    · -- eight bytes: a double, kept bit for bit
      rename_i h4 h8
      cases hdec
      rw [encode_float hw ht, if_neg (by rw [h8]; decide)]
      simp only [Nat.toUInt64_eq, UInt64.toNat_ofNat']
      rw [h8] at hlt
      rw [Nat.mod_eq_of_lt (by omega), ← h8]
      exact congrArg Except.ok (ordered_word s.littleEndian w)
    · cases hdec

theorem encode_of_decode_bits (ht : s.type = .binary ∨ s.type = .bitstring)
    (hdec : decode s w = some v) (hwidth : s.width = .ok (some w.length) ∨ s.width = .ok none) :
    encode s v = .ok w := by
  have hv : v = .bits w := by
    rcases ht with ht | ht <;> simp only [decode, ht, Option.some.injEq] at hdec <;> exact hdec.symm
  subst hv
  rcases hwidth with hw | hw
  · rw [encode_bits hw ht]
    exact takePrefix_self _ _ (.inl rfl)
  · rw [encode_bits hw ht]
    exact takePrefix_self _ _ (.inr rfl)

theorem encode_of_decode_text (ht : s.IsText) (hdec : decode s w = some v)
    (hwidth : s.width = .ok (some w.length) ∨ s.width = .ok none) : encode s v = .ok w := by
  obtain ⟨t, rfl⟩ := exists_str_of_decode ht hdec
  have hbytes := (decode_eq_str_iff ht w t).mp hdec
  rcases hwidth with hw | hw
  · rw [encode_str hw ht, hbytes]
    exact takePrefix_self _ _ (.inl rfl)
  · rw [encode_str hw ht, hbytes]
    exact takePrefix_self _ _ (.inr rfl)

/-- **A window read by a segment's format writes back as the same window**, when the window is as
long as the segment's width (or the segment has none) and a 4-byte float window does not hold a
signalling NaN. -/
theorem encode_of_decode (hdec : decode s w = some v)
    (hwidth : s.width = .ok (some w.length) ∨ s.width = .ok none)
    (hnan : s.type = .float → w.length = 4 →
      ¬ Double.SignalingSingle (word s.littleEndian w).toUInt32) :
    encode s v = .ok w := by
  -- numbers always have a width, so theirs is the window's
  have hnum : s.type = .integer ∨ s.type = .float → s.width = .ok (some w.length) := by
    intro hnum
    rcases hwidth with hw | hw
    · exact hw
    · rcases hnum with hi | hf
      · obtain ⟨n, hn, -⟩ := Spec.width_of_integer hi hw
        cases hn
      · rcases Spec.width_of_float hf hw with h | h <;> cases h
  cases ht : s.type
  case integer => exact encode_of_decode_int ht hdec (hnum (.inl ht))
  case float => exact encode_of_decode_float ht hdec (hnum (.inr ht)) (hnan ht)
  case binary | bitstring => exact encode_of_decode_bits (by simp [ht]) hdec hwidth
  case utf8 | utf16 | utf32 => exact encode_of_decode_text (by simp [Spec.IsText, ht]) hdec hwidth

/-- A window writes back from the value read from it unless that value is a NaN read from four
bytes: reading a single quiets it, so only a NaN can come back different. -/
theorem encode_of_decode_of_not_nan (hdec : decode s w = some v)
    (hwidth : s.width = .ok (some w.length) ∨ s.width = .ok none)
    (hnan : ∀ x, v = .float x → s.type = .float → w.length = 4 → x.isNaN = false) :
    encode s v = .ok w := by
  refine encode_of_decode hdec hwidth fun ht h4 => ?_
  rw [decode_float_four ht h4, Option.some.injEq] at hdec
  exact Double.not_signalingSingle_of_isNaN_ofSingleBits _ (hnan _ hdec.symm ht h4)

end Decode

/-! ## Writing then reading -/

section Encode

variable {s : Spec} {v : Term} {w : List UInt8}

/-- A value's bytes read back, provided a text's bytes are a whole text of the format. -/
theorem decode_of_encode (h : encode s v = .ok w)
    (htext : s.IsText → ∃ t, textBytes s.type s.littleEndian t = w) :
    ∃ v', decode s w = some v' := by
  obtain ⟨width, hw, hint, hfloat, -, -⟩ := encode_eq_ok h
  cases ht : s.type
  case integer =>
    -- an integer is written in its width, at most 8 bytes
    obtain ⟨n, rfl, hn⟩ := Spec.width_of_integer ht hw
    obtain ⟨m, rfl⟩ := hint ht
    simp only [decode, ht, length_ordered, Option.getD_some]
    rw [if_neg (by omega)]
    exact ⟨_, rfl⟩
  case float =>
    obtain ⟨x, rfl⟩ := hfloat ht
    rcases Spec.width_of_float ht hw with rfl | rfl <;> simp [decode, ht]
  case binary | bitstring => simp [decode, ht]
  case utf8 | utf16 | utf32 =>
    have hs : s.IsText := by simp [Spec.IsText, ht]
    obtain ⟨t, ht'⟩ := htext hs
    exact ⟨_, (decode_eq_str_iff hs w t).mpr ht'⟩

/-- A single written from a double is never a signalling NaN. -/
theorem not_signaling_of_encode (h : encode s v = .ok w) (ht : s.type = .float)
    (h4 : w.length = 4) : ¬ Double.SignalingSingle (word s.littleEndian w).toUInt32 := by
  obtain ⟨width, hw, -, hfloat, -, -⟩ := encode_eq_ok h
  obtain ⟨x, rfl⟩ := hfloat ht
  split at h4
  · rename_i h4'
    have hlt := x.toSingleBits.toNat_lt
    rw [if_pos h4', word_ordered, Nat.mod_eq_of_lt (by omega), Nat.toUInt32_eq, UInt32.ofNat_toNat]
    exact Double.not_signalingSingle_toSingleBits x
  · simp at h4

/-- **A value's bytes read back as a value that writes the same bytes**, provided a text's bytes
are a whole text of the format. -/
theorem roundTrip_of_encode (h : encode s v = .ok w)
    (htext : s.IsText → ∃ t, textBytes s.type s.littleEndian t = w) :
    ∃ v', decode s w = some v' ∧ encode s v' = .ok w := by
  obtain ⟨v', hv'⟩ := decode_of_encode h htext
  exact ⟨v', hv', encode_of_decode hv' (width_of_encode h) (not_signaling_of_encode h)⟩

end Encode

end ActorCore.Binary
