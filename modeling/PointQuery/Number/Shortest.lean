import PointQuery.Number.Decimal
/-!
# Shortest decimals

The decimal with the fewest digits that reads back as a given magnitude. That it does is checked
before it is taken. That none with fewer digits does is because on the grid of a given number of
digits a value has two neighbours, and if any point of the grid reads back, one of them does.
-/

namespace PointQuery

namespace Magnitude

/-! ## The two neighbours on a grid -/

/-- The count of digits before the point; zero or negative if the value is below one. The power
`10^400` lifts every value but zero above one. -/
def pointPosition (x : Magnitude) : Int :=
  Decimal.width (x.units * Nat.pow 10 400 / Nat.pow 2 1074) - 400

/-- The value in steps of `10^exponent`, as a quotient. -/
def inSteps (x : Magnitude) (exponent : Int) : Nat × Nat :=
  (x.units * Nat.pow 10 (-exponent).toNat, Nat.pow 2 1074 * Nat.pow 10 exponent.toNat)

/-- Whether a decimal reads back as the magnitude. -/
def readBy (x : Magnitude) (d : Decimal) : Bool := d.toMagnitude = some x

/-- A decimal of `count` digits that reads back, if there is one: of the value's two neighbours on
the grid the one that reads back, and if both do, the nearer; halfway, the upper. -/
def onGrid? (x : Magnitude) (count : Nat) : Option Decimal :=
  let exponent := x.pointPosition - count
  let (num, den) := x.inSteps exponent
  let below : Decimal := ⟨num / den, exponent⟩
  let above : Decimal := ⟨num / den + 1, exponent⟩
  let order := if 2 * (num % den) < den then [below, above] else [above, below]
  order.find? x.readBy

/-- The value itself, with all its digits. -/
def exactDecimal (x : Magnitude) : Decimal := ⟨x.units * Nat.pow 5 1074, -1074⟩

/-- The decimal with the fewest digits that reads back as the magnitude, and of those the nearest.
Seventeen digits are always enough. -/
def shortest (x : Magnitude) : Decimal :=
  if x = .zero then ⟨0, 0⟩
  else ((List.range 18).findSome? x.onGrid?).getD x.exactDecimal

end Magnitude

end PointQuery
