import PointQuery.Dialect
import PointQuery.Spatial.Search
/-!
# Aggregates

Aggregate functions over the rows of a query. Each result is cast to a double, so that it is read in
the same way from both dialects.
-/

namespace PointQuery

/-- An aggregate function. -/
inductive AggregateFunction where
  | count
  | countDistinct
  | sum
  | average
  | minimum
  | maximum
deriving DecidableEq, Inhabited

/-- The call of the function on a column. -/
def AggregateFunction.call (column : String) : AggregateFunction → String
  | count => "COUNT(" ++ column ++ ")"
  | countDistinct => "COUNT(DISTINCT " ++ column ++ ")"
  | sum => "SUM(" ++ column ++ ")"
  | average => "AVG(" ++ column ++ ")"
  | minimum => "MIN(" ++ column ++ ")"
  | maximum => "MAX(" ++ column ++ ")"

/-- The name of the double precision type. -/
def Dialect.doubleType : Dialect → String
  | mysql => "DOUBLE"
  | postgresql => "DOUBLE PRECISION"

/-- A function applied to a column. -/
structure Aggregate where
  function : AggregateFunction
  column : String
deriving DecidableEq, Inhabited

namespace Aggregate

/-- A function applied to the distances of a proximity search. -/
def ofDistance (function : AggregateFunction) : Aggregate := ⟨function, distanceColumn⟩

/-- The aggregate as a double. -/
def toDouble (a : Aggregate) (d : Dialect) : String :=
  "CAST(" ++ a.function.call a.column ++ " AS " ++ d.doubleType ++ ")"

/-- The count of rows. -/
def rowCount : String := "COUNT(*)"

/-- The count of rows and the least, mean and greatest distance, as one list of expressions. -/
def distanceSummary (d : Dialect) : String :=
  ", ".intercalate
    (rowCount :: [.minimum, .average, .maximum].map fun f => (ofDistance f).toDouble d)

example :
    (ofDistance .average).toDouble .postgresql = "CAST(AVG(_distance) AS DOUBLE PRECISION)" := by
  decide

/-- A distance with its unit, to three places; a dash if there is none. -/
def showDistance (distance : Option Binary64) (unit : DistanceUnit) : String :=
  match distance with
  | some d => d.toFixed 3 ++ " " ++ unit.symbol
  | none => "-"

end Aggregate

end PointQuery
