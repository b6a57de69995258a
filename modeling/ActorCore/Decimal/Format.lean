import ActorCore.Decimal.Shortest

/-!
# Writing a double

`FloatFormat` holds the decisions of one way of writing doubles: which magnitudes are written
positionally, the exponent mark, and the words for NaN and infinity. `FloatFormat.render`
writes the shortest digits that read back (`Binary.shortest`) in that layout: positionally with
at least one digit after the point, or as one digit, the other digits after a point, the mark
and the exponent.
-/

namespace ActorCore.Decimal

/-- The decisions of a way of writing doubles. -/
structure FloatFormat where
  /-- The least decimal exponent `e` (with `10^(e-1) ≤ |x| < 10^e`) written positionally. -/
  positionalFrom : Int
  /-- The greatest decimal exponent written positionally. -/
  positionalTo : Int
  /-- The text between the digits and the exponent. -/
  exponentMark : String
  /-- The text of a NaN. -/
  nanText : String
  /-- The text of positive infinity; negative infinity has a minus sign in front. -/
  infinityText : String

/-- `n` zeros. -/
def zeros (n : Nat) : String :=
  String.ofList (List.replicate n '0')

/-- Digits `ds` with decimal exponent `e` (the value `0.ds · 10^e`), written positionally with
at least one digit on each side of the point. -/
def positional (ds : List Char) (e : Int) : String :=
  if e ≤ 0 then "0." ++ zeros (-e).toNat ++ String.ofList ds
  else if e.toNat < ds.length then
    String.ofList (ds.take e.toNat) ++ "." ++ String.ofList (ds.drop e.toNat)
  else String.ofList ds ++ zeros (e.toNat - ds.length) ++ ".0"

/-- Digits `ds` with decimal exponent `e`, written as the first digit, the others after a
point, the mark and the exponent of the first digit. -/
def exponential (mark : String) (ds : List Char) (e : Int) : String :=
  let rest := ds.drop 1
  String.ofList (ds.take 1) ++ (if rest.isEmpty then "" else "." ++ String.ofList rest) ++
    mark ++ toString (e - 1)

/-- The text of a double in the format. -/
def FloatFormat.render (f : FloatFormat) (x : Double) : String :=
  let sign (negative : Bool) := if negative then "-" else ""
  match read x with
  | .nan => f.nanText
  | .infinite negative => sign negative ++ f.infinityText
  | .zero negative => sign negative ++ "0.0"
  | .finite negative b =>
    let (d, p) := b.shortest
    let ds := Nat.toDigits 10 d
    let e : Int := p + ds.length
    sign negative ++
      if f.positionalFrom ≤ e ∧ e ≤ f.positionalTo then positional ds e
      else exponential f.exponentMark ds e

end ActorCore.Decimal
