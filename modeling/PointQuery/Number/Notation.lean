import PointQuery.Number.Shortest
/-!
# Number notation

The texts in which a binary64 number is written: plain (never an exponent), as an approximate number
(always a point or an exponent), and with a fixed number of places.
-/

namespace PointQuery

/-! ## Decimals -/

namespace Decimal

/-- The digits of a natural number. -/
def digitChars (n : Nat) : List Char := Nat.toDigits 10 n

/-- The digits with a point before the last `places`, and a zero before the point if it is first. -/
def pointed (ds : List Char) (places : Nat) : List Char :=
  let padded := List.replicate (places + 1 - ds.length) '0' ++ ds
  padded.take (padded.length - places) ++ '.' :: padded.drop (padded.length - places)

/-- Positional notation: a point only if there are places after it, no exponent. -/
def positional (d : Decimal) : List Char :=
  if 0 ≤ d.exponent then digitChars d.digits ++ List.replicate d.exponent.toNat '0'
  else pointed (digitChars d.digits) (-d.exponent).toNat

/-- Scientific notation: one digit before the point, the point only if more follow. -/
def scientific (d : Decimal) : List Char :=
  let ds := digitChars d.digits
  let fraction := ds.drop 1
  ds.take 1 ++ (if fraction = [] then [] else '.' :: fraction) ++
    'e' :: (toString (d.exponent + fraction.length)).toList

end Decimal

/-! ## Numbers -/

namespace Binary64

private def minus (negative : Bool) : List Char := if negative then ['-'] else []

/-- The characters of a number whose finite magnitudes are written by `magnitude`. -/
def writeWith (magnitude : Magnitude → List Char) : Binary64 → List Char
  | .nan => "NaN".toList
  | .infinite negative => minus negative ++ "inf".toList
  | .finite negative x => minus negative ++ magnitude x

/-- Plain notation: the shortest decimal, positional. Zero keeps its sign. -/
def toPlain (x : Binary64) : String :=
  String.ofList (x.writeWith fun m => m.shortest.positional)

/-- The notation that databases read as an approximate number: the shortest decimal, positional with
at least one place after the point if its leading digit stands for `10^-4` to `10^15`, else
scientific. -/
def toApproximate (x : Binary64) : String :=
  String.ofList <| x.writeWith fun m =>
    let d := m.shortest
    let leading : Int := Decimal.width d.digits + d.exponent - 1
    if d.digits ≠ 0 ∧ (leading < -4 ∨ 16 ≤ leading) then d.scientific
    else if d.exponent < 0 then d.positional
    else d.positional ++ ".0".toList

/-- The exact value rounded to `places` digits after the point; halfway, to the even neighbour. -/
def toFixed (places : Nat) (x : Binary64) : String :=
  String.ofList <| x.writeWith fun m =>
    let rounded := Magnitude.roundHalfEven (m.units * Nat.pow 10 places) (Nat.pow 2 1074)
    Decimal.pointed (Decimal.digitChars rounded) places

end Binary64

end PointQuery
