import PointQuery.Number.Binary64
/-!
# Decimal numerals

A decimal number is `digits · 10^exponent`. A numeral is an optional sign, digits with an optional
point, and an optional exponent; or one of the words for infinity and NaN. Reading rounds correctly:
it gives the binary64 number nearest to the value written.
-/

namespace PointQuery

/-- The number `digits · 10^exponent`. -/
structure Decimal where
  digits : Nat
  exponent : Int
deriving DecidableEq, Repr

namespace Decimal

/-! ## Rounding to binary64 -/

/-- The count of decimal digits. -/
def width (n : Nat) : Nat := (Nat.toDigits 10 n).length

/-- The nearest magnitude; none past the largest. Values from `10^310` on have none and values below
`10^-330` are zero, whatever their digits, so no power of ten larger than that is ever formed. -/
def toMagnitude (d : Decimal) : Option Magnitude :=
  let top : Int := width d.digits + d.exponent
  if d.digits = 0 ∨ top < -330 then some .zero
  else if 310 < top then none
  else if 0 ≤ d.exponent then Magnitude.nearest (d.digits * Nat.pow 10 d.exponent.toNat) 1
  else Magnitude.nearest d.digits (Nat.pow 10 (-d.exponent).toNat)

/-! ## Reading -/

/-- The value of a run of digits. -/
def digitsValue (ds : List Char) : Nat :=
  ds.foldl (fun n c => 10 * n + (c.toNat - '0'.toNat)) 0

/-- Takes a sign off the front; no sign means positive. -/
def takeSign : List Char → Bool × List Char
  | '-' :: cs => (true, cs)
  | '+' :: cs => (false, cs)
  | cs => (false, cs)

/-- Reads an exponent to the end of the text: nothing, or `e` or `E`, a sign if wanted and at least
one digit. -/
def readExponent : List Char → Option Int
  | [] => some 0
  | c :: cs =>
    if c = 'e' ∨ c = 'E' then
      let (negative, ds) := takeSign cs
      if ds ≠ [] ∧ ds.all Char.isDigit then
        some (if negative then -(digitsValue ds : Int) else digitsValue ds)
      else none
    else none

/-- Takes a point and the digits after it off the front. -/
def takeFraction : List Char → List Char × List Char
  | '.' :: cs => (cs.takeWhile Char.isDigit, cs.dropWhile Char.isDigit)
  | cs => ([], cs)

/-- Reads an unsigned numeral to the end of the text. At least one digit stands before or after the
point. -/
def read (cs : List Char) : Option Decimal :=
  let whole := cs.takeWhile Char.isDigit
  let (fraction, rest) := takeFraction (cs.dropWhile Char.isDigit)
  if whole ++ fraction = [] then none
  else (readExponent rest).map fun e => ⟨digitsValue (whole ++ fraction), e - fraction.length⟩

end Decimal

namespace Binary64

/-- Reads a word for a number that has no numeral, in any case. -/
def readWord (negative : Bool) (cs : List Char) : Option Binary64 :=
  let word := cs.map Char.toLower
  if word = "inf".toList ∨ word = "infinity".toList then some (.infinite negative)
  else if word = "nan".toList then some .nan
  else none

/-- Reads a number from the whole of a text, with no blanks around it. -/
def parse (s : String) : Option Binary64 :=
  let (negative, cs) := Decimal.takeSign s.toList
  match Decimal.read cs with
  | some d =>
    match d.toMagnitude with
    | some x => some (.finite negative x)
    | none => some (.infinite negative)
  | none => readWord negative cs

end Binary64

end PointQuery
