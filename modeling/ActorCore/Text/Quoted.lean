import ActorCore.Text.Classes

/-!
# Quoted strings

The quoted form of a string, as error messages and term text show it: the string between
double quotes, with a tab, carriage return, line feed, backslash, double quote and NUL
written as two-character escapes, and every character that extends a grapheme or is not
printable written as `\u{h}` with its code point in lowercase hexadecimal and no padding.
A single quote and every other printable character stand for themselves, except in `quoteAll`,
which escapes a single quote too.
-/

namespace ActorCore.Text

/-- The lowercase hexadecimal digits of a number, without padding. -/
def hexDigits (n : Nat) : String :=
  String.ofList (Nat.toDigits 16 n)

/-- The text that stands for one character inside a quoted string. -/
def escapeChar (c : Char) : String :=
  if c = '\t' then "\\t"
  else if c = '\r' then "\\r"
  else if c = '\n' then "\\n"
  else if c = '\\' then "\\\\"
  else if c = '"' then "\\\""
  else if c = '\x00' then "\\0"
  else if isGraphemeExtend c || !isPrintable c then "\\u\x7b" ++ hexDigits c.toNat ++ "\x7d"
  else c.toString

/-- The quoted form of a string. -/
def quote (s : String) : String :=
  "\"" ++ String.join (s.toList.map escapeChar) ++ "\""

/-- The quoted form of a string handed to the operating system: as `quote`, with a single quote
escaped as well. -/
def quoteAll (s : String) : String :=
  "\"" ++ String.join (s.toList.map fun c => if c = '\x27' then "\\\x27" else escapeChar c) ++ "\""

end ActorCore.Text
