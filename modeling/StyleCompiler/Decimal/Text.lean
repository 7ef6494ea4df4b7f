import StyleCompiler.Decimal.Shortest

/-!
# Number text

How a double is written: the digits of its shortest decimal, positionally where the leading digit
stands between the sixth place after the point and the twenty-first before it, and with an
exponent elsewhere.

`Double.text` is `format_number`. There the form goes by the magnitude of the number, which is
compared with `1e-6` and `1e21`; here it goes by the leading digit (`Decimal.isPositional`). For
the shortest decimal of a double both tests come to the same (`isPositional_shortest_iff`).
-/

namespace StyleCompiler

namespace Decimal

/-- The digits of the coefficient. -/
def digits (d : Decimal) : List Char := Nat.toDigits 10 d.coefficient

/-- The exponent of the leading digit. -/
def leading (d : Decimal) : Int := (d.digits.length : Int) - 1 + d.exponent

/-- Is the decimal written without an exponent? -/
def isPositional (d : Decimal) : Bool := -6 ≤ d.leading && d.leading < 21

/-- The digits with the point where it belongs, filled up with zeros. -/
def positional (d : Decimal) : List Char :=
  let ds := d.digits
  if 0 ≤ d.exponent then ds ++ List.replicate d.exponent.toNat '0'
  else
    let places := (-d.exponent).toNat
    if places < ds.length then
      ds.take (ds.length - places) ++ '.' :: ds.drop (ds.length - places)
    else '0' :: '.' :: (List.replicate (places - ds.length) '0' ++ ds)

/-- One digit before the point, the others after it, and the exponent with its sign. -/
def exponential (d : Decimal) : List Char :=
  let mantissa :=
    match d.digits with
    | first :: second :: rest => first :: '.' :: second :: rest
    | ds => ds
  let sign := if 0 ≤ d.leading then '+' else '-'
  mantissa ++ 'e' :: sign :: Nat.toDigits 10 d.leading.natAbs

/-- The text of a positive decimal. -/
def text (d : Decimal) : List Char :=
  if d.isPositional then d.positional else d.exponential

end Decimal

/-- The text of a number. Both zeros are `0`. -/
def Double.text (x : Double) : String :=
  if x.isZero then "0"
  else if x.isNaN then "NaN"
  else if !x.isFinite then if x.isNegative then "-Infinity" else "Infinity"
  else if x.isNegative then String.ofList ('-' :: x.shortest.text)
  else String.ofList x.shortest.text

end StyleCompiler
