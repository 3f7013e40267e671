import SqlAssembly.Number.Shortest

namespace SqlAssembly

/-!
# Layout of decimals

How the digits of a finite double are laid out as text: all positions written out, or one digit
before the point and a power of ten behind.

* `Layout` — the decisions of one format;
* `Layout.text` — the text of a finite double.
-/

/-- The decisions of a number format. -/
structure Layout where
  /-- Of two shortest decimals at the same distance. -/
  tie : Tie
  /-- The numbers `d.ddd · 10 ^ e` that are written with all positions, by `e`. -/
  positional : Int → Bool
  /-- Written behind a whole number. -/
  wholeSuffix : String
  /-- Written before an exponent that is not negative. -/
  plusSign : String

namespace Layout

private def zeros (n : Nat) : String := String.ofList (List.replicate n '0')

/-- All positions of the digits `ds`, the first of which has the weight `10 ^ e`. -/
def positions (l : Layout) (ds : List Char) (e : Int) : String :=
  if e < 0 then "0." ++ zeros (-e - 1).toNat ++ String.ofList ds
  else
    let whole := e.toNat + 1
    if ds.length ≤ whole then
      String.ofList ds ++ zeros (whole - ds.length) ++ l.wholeSuffix
    else String.ofList (ds.take whole) ++ "." ++ String.ofList (ds.drop whole)

/-- The digits `ds` with a point after the first, times a power of ten. -/
def scientific (l : Layout) (ds : List Char) (e : Int) : String :=
  let digits := String.ofList (ds.take 1) ++ (if ds.length ≤ 1 then "" else ".")
    ++ String.ofList (ds.drop 1)
  digits ++ "e" ++ (if e < 0 then "-" else l.plusSign) ++ toString e.natAbs

/-- The text of a finite double. -/
def text (l : Layout) (x : Binary64) : String :=
  let sign := if x.isNegative then "-" else ""
  if x.isZero then sign ++ "0" ++ l.wholeSuffix
  else
    let decimal := x.shortest l.tie
    let ds := Nat.toDigits 10 decimal.digits
    let e := decimal.exponent + ds.length - 1
    sign ++ if l.positional e then l.positions ds e else l.scientific ds e

end Layout

end SqlAssembly
