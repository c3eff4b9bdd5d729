import PointQuery.Basic
import PointQuery.Number.Binary64
import PointQuery.Text.Basic
/-!
# Units of distance

Kilometres and statute miles: their names, and the length of a degree in each.
-/

namespace PointQuery

/-- The unit of a radius and of computed distances. -/
inductive DistanceUnit where
  | kilometer
  | mile
deriving DecidableEq, Inhabited

namespace DistanceUnit

/-- The short name. -/
def symbol : DistanceUnit → String
  | kilometer => "km"
  | mile => "mil"

/-- The length of one degree of latitude, roughly: 111.045 kilometres or 69 miles. -/
def lengthPerDegree : DistanceUnit → Binary64
  | kilometer => Binary64.ofRatio false 111045 1000
  | mile => Binary64.ofInt 69

/-- Reads a unit; blanks around it and its case do not matter. -/
def parse (s : String) : Except QueryError DistanceUnit :=
  let word := Text.lowerAscii (Text.trim s)
  if word = "km" ∨ word = "kilometer" ∨ word = "kilometers" then .ok kilometer
  else if word = "mil" ∨ word = "mi" ∨ word = "mile" ∨ word = "miles" then .ok mile
  else .error (.unknownUnit s)

end DistanceUnit

end PointQuery
