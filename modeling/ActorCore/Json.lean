import ActorCore.Decimal.Read
import ActorCore.Decimal.Format

/-!
# JSON text

Requests come as lines of JSON text and answers go back as lines of JSON text.

Reading goes byte by byte and is forgiving: white space, commas and colons between items are
skipped alike, a word is known by its first letter, and an object's key is read from the byte
after the one where it starts. A number keeps its value when it is an integer from `-2 ^ 63`
up to `2 ^ 64`, and its text otherwise. Text that cannot be read gives an error naming the
fault and its column, counted in bytes from 1: a string left open, an escape that is not one,
a low surrogate first, a high surrogate that no escaped low one follows, or no value where one
must stand.

* `Json.Value` — a JSON value as read.
* `Json.read` — the value of a line, or the error message.
* `Json.quote` — a string as compact JSON text writes it: the short escapes for the quote, the
  backslash and five control characters, `\u00XX` for the other control characters.
* `Json.numberText` — a number kept as text, written as the double it reads as.
* `Json.escapeBreaks` — a line of text with the characters that some readers take for line
  breaks escaped.
-/

namespace ActorCore.Json

/-- A JSON value as read; an object's members stay in the order they came. -/
inductive Value where
  | null
  | bool (b : Bool)
  /-- An integer from `-2 ^ 63` up to `2 ^ 64`. -/
  | int (n : Int)
  /-- Any other number, as its text. -/
  | number (text : String)
  | str (s : String)
  | arr (items : List Value)
  | obj (members : List (String × Value))

/-- The error of text that cannot be read: the fault, and the column where it was found. -/
def fault {α : Type} (what : String) (column : Nat) : Except String α :=
  .error ("invalid JSON: " ++ what ++ " at line 1 column " ++ toString column)

/-- The byte at a position, or 0 past the end. -/
def byteAt (s : ByteArray) (i : Nat) : UInt8 :=
  s.data.getD i 0

/-- The first position at or after `i` that holds no white space, comma or colon. -/
def skipBlank (s : ByteArray) (i : Nat) : Nat :=
  if i < s.size ∧ [32, 9, 10, 13, 44, 58].contains (byteAt s i) then skipBlank s (i + 1) else i
termination_by s.size - i

/-- The first position at or after `i` that holds no byte of a number. -/
def numberEnd (s : ByteArray) (i : Nat) : Nat :=
  if i < s.size ∧ "0123456789+-.eE".toList.contains (Char.ofNat (byteAt s i).toNat) then
    numberEnd s (i + 1)
  else i
termination_by s.size - i

/-- The value of the four hexadecimal digits at `i`; the column of an error is the one after
them. -/
def hex4 (s : ByteArray) (i : Nat) : Except String Nat :=
  (List.range 4).foldlM (fun acc k =>
    match "0123456789abcdef".toList.idxOf? (Char.ofNat (byteAt s (i + k)).toNat).toLower with
    | some v => pure (acc * 16 + v)
    | none => fault "invalid escape" (i + 4)) 0

/-- The UTF-8 bytes of a code point. -/
def utf8 (n : Nat) : ByteArray :=
  (Char.ofNat n).toString.toUTF8

/-- The rest of a string from byte `i` up to its closing quote, added to the bytes `acc`
read so far; and the position after the quote. -/
def readString (s : ByteArray) (i : Nat) (acc : ByteArray) : Except String (String × Nat) :=
  if _h : s.size ≤ i then fault "EOF while parsing a string" i
  else
    let b := byteAt s i
    if b = 34 then pure ((String.fromUTF8? acc).getD "", i + 1)
    else if b ≠ 92 then readString s (i + 1) (acc.push b)
    else
      match [(34, 34), (92, 92), (47, 47), (98, 8), (102, 12), (110, 10), (114, 13), (116, 9)].lookup
          (byteAt s (i + 1)) with
      | some c => readString s (i + 2) (acc.push c)
      | none =>
        if byteAt s (i + 1) ≠ 117 then fault "invalid escape" (i + 2)
        else do
          let n ← hex4 s (i + 2)
          if 0xDC00 ≤ n ∧ n ≤ 0xDFFF then fault "lone leading surrogate in hex escape" (i + 6)
          else if n < 0xD800 ∨ n > 0xDBFF then readString s (i + 6) (acc ++ utf8 n)
          else if byteAt s (i + 6) ≠ 92 then fault "unexpected end of hex escape" (i + 7)
          else if byteAt s (i + 7) ≠ 117 then fault "unexpected end of hex escape" (i + 8)
          else do
            let m ← hex4 s (i + 8)
            if m < 0xDC00 ∨ m > 0xDFFF then fault "lone leading surrogate in hex escape" (i + 12)
            else readString s (i + 12) (acc ++ utf8 (0x10000 + (n - 0xD800) * 0x400 + (m - 0xDC00)))
termination_by s.size - i

mutual

/-- The value that starts at or after byte `i`, and the position after it. Each call spends
one unit of `fuel`. -/
def readValue (s : ByteArray) : Nat → Nat → Except String (Value × Nat)
  | 0, i => fault "recursion limit exceeded" i
  | fuel + 1, i =>
    let i := skipBlank s i
    match byteAt s i with
    | 123 => readItems s fuel (i + 1) true []
    | 91 => readItems s fuel (i + 1) false []
    | 34 => do
      let (t, j) ← readString s (i + 1) .empty
      pure (.str t, j)
    | 110 => pure (.null, i + 4)
    | 116 => pure (.bool true, i + 4)
    | 102 => pure (.bool false, i + 5)
    | _ =>
      let j := numberEnd s i
      let text := (String.fromUTF8? (s.extract i j)).getD ""
      match text.toInt? with
      | some n => pure (if -(2 ^ 63) ≤ n ∧ n < 2 ^ 64 then .int n else .number text, j)
      | none => if j = i then fault "expected value" (i + 1) else pure (.number text, j)

/-- The members of an object (`isObject`), or the items of an array, from byte `i` up to the
closing bracket, after those in `acc`, last first; and the position after the bracket. -/
def readItems (s : ByteArray) : Nat → Nat → Bool → List (String × Value) →
    Except String (Value × Nat)
  | 0, i, _, _ => fault "recursion limit exceeded" i
  | fuel + 1, i, isObject, acc =>
    let i := skipBlank s i
    if byteAt s i = 125 ∨ byteAt s i = 93 then
      pure (if isObject then .obj acc.reverse else .arr (acc.reverse.map (·.2)), i + 1)
    else do
      let (k, i) ← if isObject then readString s (i + 1) .empty else pure ("", i)
      let (v, j) ← readValue s fuel i
      readItems s fuel j isObject ((k, v) :: acc)

end

/-- The value of a line of JSON text, or why it cannot be read. Every call of the reader
starts a value or follows one, and values start at distinct bytes, so the fuel given is never
spent. -/
def read (line : String) : Except String Value :=
  let s := line.toUTF8
  (readValue s (4 * s.size + 16) 0).map (·.1)

/-- The two hexadecimal digits of a byte, lowercase. -/
def hex2 (n : Nat) : String :=
  String.ofList [Nat.digitChar (n / 16), Nat.digitChar (n % 16)]

/-- The text that stands for a character inside a JSON string. -/
def escapeChar (c : Char) : String :=
  match c.toNat with
  | 34 => "\\\""
  | 92 => "\\\\"
  | 10 => "\\n"
  | 13 => "\\r"
  | 9 => "\\t"
  | 8 => "\\b"
  | 12 => "\\f"
  | n => if n < 32 then "\\u00" ++ hex2 n else c.toString

/-- A string as JSON text writes it. -/
def quote (s : String) : String :=
  "\"" ++ String.join (s.toList.map escapeChar) ++ "\""

/-- How a number that is not a 64-bit integer is written: as the double it reads as,
positionally for `10 ^ -5 ≤ |x| < 10 ^ 16`. -/
def doubleFormat : Decimal.FloatFormat :=
  { positionalFrom := -4, positionalTo := 16, exponentMark := "e", nanText := "NaN",
    infinityText := "inf" }

/-- A number kept as text, written as the double it reads as; text that reads as none stays. -/
def numberText (text : String) : String :=
  ((Decimal.readFloat? text).map doubleFormat.render).getD text

/-- A line with the next line, line separator and paragraph separator characters written as
`\u` escapes, as a JSON string may hold them. -/
def escapeBreaks (s : String) : String :=
  s.foldl (fun acc c =>
    if [0x85, 0x2028, 0x2029].contains c.toNat then
      acc ++ "\\u" ++ String.ofList ((Nat.toDigits 16 (c.toNat + 0x10000)).drop 1)
    else acc.push c) ""

end ActorCore.Json
