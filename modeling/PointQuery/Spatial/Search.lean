import PointQuery.Basic
import PointQuery.Spatial.Distance
import PointQuery.Spatial.DistanceUnit
import PointQuery.Sql.Query
/-!
# Proximity searches

A search asks for the rows within a radius of an origin, nearest first. The query that it restricts
becomes a derived table with one more column, the distance, on which the outer query filters and
orders. The column that distances are measured from is the one text of a search that is written into
the SQL, so it has to be a plain identifier or two of them joined by a point.
-/

namespace PointQuery

/-! ## Attributes -/

namespace Attribute

/-- The first character of an identifier: an ASCII letter or an underscore. -/
def isIdentifierStart (c : Char) : Bool := c.isAlpha || c = '_'

/-- A later character of an identifier. -/
def isIdentifierRest (c : Char) : Bool := c.isAlphanum || c = '_'

/-- A whole identifier. -/
def isIdentifier : List Char → Bool
  | [] => false
  | c :: cs => isIdentifierStart c && cs.all isIdentifierRest

/-- An identifier, or two joined by a point. -/
def isAttribute (cs : List Char) : Bool :=
  let table := cs.takeWhile (· ≠ '.')
  match cs.dropWhile (· ≠ '.') with
  | [] => isIdentifier table
  | _ :: column => isIdentifier table && isIdentifier column

/-- Accepts an attribute, or says that it is none. -/
def validate (column : String) : Except QueryError Unit :=
  if isAttribute column.toList then .ok () else .error (.invalidAttribute column)

end Attribute

/-! ## Searches -/

/-- A proximity search. -/
structure Search where
  origin : Coordinate
  /-- The point column that distances are measured from. -/
  column : String
  /-- The greatest distance, in the unit. -/
  radius : Binary64 := Binary64.ofInt 100
  unit : DistanceUnit := .kilometer
deriving DecidableEq

/-- The name of the computed column. -/
def distanceColumn : String := "_distance"

/-- The alias of the derived table that computes it. -/
def distanceAlias : String := "distance"

namespace Search

/-- The distance from the column to the origin, in the unit of the search. -/
def distance (s : Search) (d : Dialect) : Sql.Fragment :=
  (d.distance s.column s.origin).scaled s.unit.lengthPerDegree

/-- The query with the distance as one more column. -/
def measure (s : Search) (d : Dialect) (q : Sql.Query) : Sql.Query :=
  let select := if q.select.isEmpty then [.plain "*"] else q.select
  { q with select := select ++ [.expression (s.distance d) (some distanceColumn)] }

/-- The query that keeps the rows within the radius, nearest first. -/
def restrict (s : Search) (d : Dialect) (q : Sql.Query) : Sql.Query where
  select := [.wildcardOf distanceAlias]
  source := some (.derived (s.measure d q) distanceAlias)
  condition := some (.lessThan distanceColumn (.float s.radius))
  orderBy := [.ascending distanceColumn]

end Search

end PointQuery
