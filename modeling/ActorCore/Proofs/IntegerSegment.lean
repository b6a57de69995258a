import Mathlib.Tactic.Positivity
import Mathlib.Tactic.Linarith
import Mathlib.Tactic.NormNum
import ActorCore.Proofs.Segment

/-!
# Integer segments round-trip modulo their width

An integer segment of `w` bytes, `w ≤ 8`, writes the two's complement of a 64-bit integer cut to
its `w` least significant bytes, in the segment's byte order, and reads `w` bytes back as an
integer: sign-extended when the segment is signed and narrower than 8 bytes, as a 64-bit two's
complement integer when it is 8 bytes wide, and as an unsigned number otherwise. Whatever the
attributes, the bytes read back are the bytes written, so the integer read back is congruent to
the one written modulo `2 ^ (8 w)`, and it lies in the `2 ^ (8 w)` values the segment can read
(`Readable`): an integer lies there exactly when it comes back unchanged.

* `decodeInt_emod` — a read integer, modulo `2 ^ (8 w)`, is the number its bytes spell.
* `readable_decodeInt` — a read integer lies in the values the segment can read.
* `Readable.eq_of_emod_eq` — two readable integers congruent modulo `2 ^ (8 w)` are equal.
* `readable_eight`, `Readable.signed_bounds`, `Readable.unsigned_bounds` — the readable integers
  of each kind of segment.

Principal result: `Binary.integer_segment_roundTrip`.
-/

namespace ActorCore.Binary

/-- The least integer a segment of `w` bytes reads: `-2 ^ (8 w - 1)` for a signed segment of 1
to 8 bytes and for any segment of 8 bytes, which reads a 64-bit integer, and `0` otherwise. -/
def readLow (signed : Bool) (w : Nat) : Int :=
  if w = 8 ∨ (signed = true ∧ 0 < w) then -2 ^ (8 * w - 1) else 0

/-- The integers an integer segment of `w` bytes can read back: the `2 ^ (8 w)` integers from
`readLow signed w` on. -/
def Readable (signed : Bool) (w : Nat) (m : Int) : Prop :=
  readLow signed w ≤ m ∧ m < readLow signed w + 2 ^ (8 * w)

/-- The `2 ^ (8 w)` numbers of `w > 0` bytes are two halves of `2 ^ (8 w - 1)`. -/
theorem two_pow_eq_two_mul {w : Nat} (hpos : 0 < w) :
    (2 : Int) ^ (8 * w) = 2 * 2 ^ (8 * w - 1) := by
  rw [← pow_succ']
  congr 1
  omega

theorem readLow_of_lt_eight {signed : Bool} {w : Nat} (h8 : w < 8) :
    readLow signed w = if signed = true ∧ 0 < w then -2 ^ (8 * w - 1) else 0 := by
  unfold readLow
  by_cases hs : signed = true ∧ 0 < w
  · rw [if_pos (.inr hs), if_pos hs]
  · rw [if_neg (fun hc => hc.elim (by omega) hs), if_neg hs]

/-- A segment of 8 bytes reads the 64-bit integers. -/
theorem readable_eight {signed : Bool} {m : Int} :
    Readable signed 8 m ↔ -2 ^ 63 ≤ m ∧ m < 2 ^ 63 := by
  unfold Readable readLow
  rw [if_pos (.inl rfl)]
  norm_num

/-- A signed segment of 1 to 7 bytes reads the integers of its width, both signs. -/
theorem Readable.signed_bounds {w : Nat} {m : Int} (hpos : 0 < w) (h8 : w < 8)
    (h : Readable true w m) : -2 ^ (8 * w - 1) ≤ m ∧ m < 2 ^ (8 * w - 1) := by
  obtain ⟨hlo, hhi⟩ := h
  rw [readLow_of_lt_eight h8, if_pos ⟨rfl, hpos⟩, two_pow_eq_two_mul hpos] at *
  constructor <;> linarith

/-- An unsigned segment of fewer than 8 bytes reads the naturals below `2 ^ (8 w)`; with no
bytes at all, only `0`. -/
theorem Readable.unsigned_bounds {signed : Bool} {w : Nat} {m : Int} (h8 : w < 8)
    (hs : signed = false ∨ w = 0) (h : Readable signed w m) : 0 ≤ m ∧ m < 2 ^ (8 * w) := by
  obtain ⟨hlo, hhi⟩ := h
  rw [readLow_of_lt_eight h8, if_neg (fun hc => by rcases hs with hs | hs <;> simp_all)] at *
  constructor <;> linarith

/-- Two integers that a segment can read and that are congruent modulo `2 ^ (8 w)` are equal:
the readable integers are `2 ^ (8 w)` consecutive ones. -/
theorem Readable.eq_of_emod_eq {signed : Bool} {w : Nat} {x y : Int} (hx : Readable signed w x)
    (hy : Readable signed w y) (h : x % 2 ^ (8 * w) = y % 2 ^ (8 * w)) : x = y := by
  set lo := readLow signed w
  set M : Int := 2 ^ (8 * w)
  have hM : 0 < M := by positivity
  -- shifted to start at zero, both are their own remainders
  have hx' : (x - lo) % M = x - lo := Int.emod_eq_of_lt (by linarith [hx.1]) (by linarith [hx.2])
  have hy' : (y - lo) % M = y - lo := Int.emod_eq_of_lt (by linarith [hy.1]) (by linarith [hy.2])
  have : (x - lo) % M = (y - lo) % M := by rw [Int.sub_emod, h, ← Int.sub_emod]
  linarith

/-- The `w` bytes of a 64-bit two's complement integer spell it modulo `2 ^ (8 w)`. -/
theorem toNat_emod_two_pow {w : Nat} (hw : w ≤ 8) (n : Int) :
    (((n % 2 ^ 64).toNat % 256 ^ w : Nat) : Int) = n % 2 ^ (8 * w) := by
  have hdvd : (2 : Int) ^ (8 * w) ∣ 2 ^ 64 := pow_dvd_pow 2 (by omega)
  have h256 : ((256 ^ w : Nat) : Int) = 2 ^ (8 * w) := by
    rw [pow_mul]
    norm_num
  rw [Int.natCast_emod, h256, Int.toNat_of_nonneg (Int.emod_nonneg _ (by decide)),
    Int.emod_emod_of_dvd _ hdvd]

/-- **A read integer, modulo `2 ^ (8 w)`, is the number its `w` bytes spell**: `decodeInt_mod`
seen in the integers. -/
theorem decodeInt_emod (signed : Bool) {bytes : List UInt8} (h : bytes.length ≤ 8) :
    decodeInt signed bytes % 2 ^ (8 * bytes.length) = ofBigEndian bytes := by
  rw [← toNat_emod_two_pow h, decodeInt_mod signed bytes h]

theorem ofBigEndian_lt_two_pow (bytes : List UInt8) :
    ofBigEndian bytes < 2 ^ (8 * bytes.length) := by
  simpa [Nat.pow_mul] using ofBigEndian_lt bytes

/-- Eight bytes read as a 64-bit two's complement integer, whatever the signedness. -/
theorem decodeInt_eight (signed : Bool) {bytes : List UInt8} (h8 : bytes.length = 8) :
    decodeInt signed bytes =
      if 2 ^ 63 ≤ ofBigEndian bytes then (ofBigEndian bytes : Int) - 2 ^ 64
      else (ofBigEndian bytes : Int) := by
  have hfirst : ¬(signed = true ∧ 0 < 8 * bytes.length ∧ 8 * bytes.length < 64 ∧
      2 ^ (8 * bytes.length - 1) ≤ ofBigEndian bytes) := by omega
  simp only [decodeInt, if_neg hfirst]

/-- Fewer than eight bytes never wrap at 64 bits: they are sign-extended or read as they are. -/
theorem decodeInt_of_lt_eight (signed : Bool) {bytes : List UInt8} (h : bytes.length < 8) :
    decodeInt signed bytes =
      if signed = true ∧ 0 < bytes.length ∧ 2 ^ (8 * bytes.length - 1) ≤ ofBigEndian bytes then
        (ofBigEndian bytes : Int) - 2 ^ (8 * bytes.length)
      else (ofBigEndian bytes : Int) := by
  have hlt := ofBigEndian_lt_two_pow bytes
  have hle : 2 ^ (8 * bytes.length) ≤ 2 ^ 56 := Nat.pow_le_pow_right (by decide) (by omega)
  have hwrap : ¬ 2 ^ 63 ≤ ofBigEndian bytes := by omega
  simp only [decodeInt, if_neg hwrap]
  congr 1
  apply propext
  constructor
  · rintro ⟨hs, hpos, -, hhigh⟩
    exact ⟨hs, by omega, hhigh⟩
  · rintro ⟨hs, hpos, hhigh⟩
    exact ⟨hs, by omega, by omega, hhigh⟩

/-- **A read integer lies in the values the segment can read.** -/
theorem readable_decodeInt (signed : Bool) {bytes : List UInt8} (h : bytes.length ≤ 8) :
    Readable signed bytes.length (decodeInt signed bytes) := by
  have hlt := ofBigEndian_lt_two_pow bytes
  have hlt' : (ofBigEndian bytes : Int) < 2 ^ (8 * bytes.length) := by exact_mod_cast hlt
  have hn0 : (0 : Int) ≤ ofBigEndian bytes := by positivity
  unfold Readable readLow
  by_cases h8 : bytes.length = 8
  · -- eight bytes: a 64-bit two's complement integer
    rw [if_pos (.inl h8), decodeInt_eight signed h8]
    rw [h8] at hlt' ⊢
    norm_num at hlt' ⊢
    split
    · rename_i hwrap
      have hwrap' : (2 : Int) ^ 63 ≤ ofBigEndian bytes := by exact_mod_cast hwrap
      constructor <;> linarith
    · rename_i hwrap
      have hwrap' : (ofBigEndian bytes : Int) < 2 ^ 63 := by exact_mod_cast Nat.lt_of_not_le hwrap
      constructor <;> linarith
  rw [decodeInt_of_lt_eight signed (by omega)]
  by_cases hs : signed = true ∧ 0 < bytes.length
  · -- signed: the top half of the `2 ^ (8 w)` numbers moves below zero
    rw [if_pos (.inr hs)]
    have hsplit := two_pow_eq_two_mul hs.2
    split
    · rename_i hhigh
      have hhigh' : (2 : Int) ^ (8 * bytes.length - 1) ≤ ofBigEndian bytes := by
        exact_mod_cast hhigh.2.2
      constructor <;> linarith
    · rename_i hhigh
      have hhalf : ofBigEndian bytes < 2 ^ (8 * bytes.length - 1) := by
        by_contra hc
        exact hhigh ⟨hs.1, hs.2, Nat.le_of_not_lt hc⟩
      have hhalf' : (ofBigEndian bytes : Int) < 2 ^ (8 * bytes.length - 1) := by
        exact_mod_cast hhalf
      constructor <;> linarith
  · -- unsigned, or no bytes at all: read as it is
    rw [if_neg (fun hc => hc.elim h8 hs), if_neg (fun hc => hs ⟨hc.1, hc.2.1⟩)]
    constructor <;> linarith

/-! ## Writing an integer and reading it back -/

/-- Bytes written in a byte order are read in the same order: the number they spell is read
most significant byte first either way. -/
theorem inOrder_ordered (little : Bool) (w v : Nat) :
    (if little then (ordered little w v).reverse else ordered little w v) = bigEndian w v := by
  cases little <;> simp [ordered]

theorem decode_ordered_int {s : Spec} (ht : s.type = .integer) {w : Nat} (hw : w ≤ 8) (v : Nat) :
    decode s (ordered s.littleEndian w v) = some (.int (decodeInt s.signed (bigEndian w v))) := by
  simp only [decode, ht, length_ordered, inOrder_ordered]
  rw [if_neg (by omega)]

/-- **Integer segments round-trip modulo their width.** An integer segment of `w` bytes writes
exactly `w` bytes, whatever its attributes, and reads them back as an integer congruent to the one
written modulo `2 ^ (8 w)`: `0` for no bytes, in `[-2 ^ (8 w - 1), 2 ^ (8 w - 1))` for a signed
segment of 1 to 7 bytes, in `[0, 2 ^ (8 w))` for an unsigned one, and a 64-bit integer itself for
8 bytes. The integer comes back unchanged exactly when the segment can read it. -/
theorem integer_segment_roundTrip {s : Spec} {w : Nat} (ht : s.type = .integer)
    (hw : s.width = .ok (some w)) (n : Int) :
    ∃ bytes, encode s (.int n) = .ok bytes ∧ bytes.length = w ∧
      ∃ m, decode s bytes = some (.int m) ∧ m % 2 ^ (8 * w) = n % 2 ^ (8 * w) ∧
        (w = 0 → m = 0) ∧
        (s.signed = true → 0 < w → w < 8 → -2 ^ (8 * w - 1) ≤ m ∧ m < 2 ^ (8 * w - 1)) ∧
        (s.signed = false → w < 8 → 0 ≤ m ∧ m < 2 ^ (8 * w)) ∧
        (w = 8 → -2 ^ 63 ≤ n → n < 2 ^ 63 → m = n) ∧
        (m = n ↔ Readable s.signed w n) := by
  obtain ⟨w', hw', hw8⟩ := Spec.width_of_integer ht hw
  cases hw'
  set m := decodeInt s.signed (bigEndian w ((n % 2 ^ 64).toNat))
  have hlen : (bigEndian w ((n % 2 ^ 64).toNat)).length ≤ 8 := by simpa using hw8
  -- what is read is readable, and congruent to what was written
  have hread : Readable s.signed w m := by
    have h := readable_decodeInt s.signed hlen
    rwa [length_bigEndian] at h
  have hmod : m % 2 ^ (8 * w) = n % 2 ^ (8 * w) := by
    have h := decodeInt_emod s.signed hlen
    rw [length_bigEndian, ofBigEndian_bigEndian] at h
    rw [h, toNat_emod_two_pow hw8]
  have hiff : m = n ↔ Readable s.signed w n :=
    ⟨fun h => h ▸ hread, fun h => hread.eq_of_emod_eq h hmod⟩
  refine ⟨_, encode_int hw ht n, length_ordered _ _ _, m, decode_ordered_int ht hw8 _, hmod,
    ?zero, ?signed, ?unsigned, ?eight, hiff⟩
  case zero =>
    rintro rfl
    have h := hread.unsigned_bounds (by decide) (.inr rfl)
    norm_num at h
    omega
  case signed =>
    intro hs hpos h8
    rw [hs] at hread
    exact hread.signed_bounds hpos h8
  case unsigned =>
    intro hs h8
    exact hread.unsigned_bounds h8 (.inl hs)
  case eight =>
    rintro rfl hlo hhi
    exact hiff.2 (readable_eight.2 ⟨hlo, hhi⟩)

/-- A signed segment of 2 bytes cannot read 40000: it reads its bytes back as `40000 - 2 ^ 16`. -/
theorem integer_segment_roundTrip_signedShort :
    ∃ bytes, encode { type := .integer, size := some 16, attrs := [.signed] } (.int 40000) =
        .ok bytes ∧
      decode { type := .integer, size := some 16, attrs := [.signed] } bytes =
        some (.int (-25536)) := by
  obtain ⟨bytes, henc, -, m, hdec, hmod, -, hsigned, -⟩ :=
    @integer_segment_roundTrip { type := .integer, size := some 16, attrs := [.signed] } 2 rfl rfl
      40000
  have hbounds := hsigned rfl (by decide) (by decide)
  norm_num at hmod hbounds
  have hm : m = -25536 := by omega
  exact ⟨bytes, henc, hm ▸ hdec⟩

end ActorCore.Binary
