import PointQuery.Dialect
import PointQuery.Spatial.Coordinate
import PointQuery.Sql.Fragment
/-!
# Distance in a dialect

How each dialect makes a point of a bound origin, measures a distance and shows a point as text.
Coordinates are always bound, never written into the SQL.
-/

namespace PointQuery

namespace Dialect

/-- The point of an origin: one well-known text on MySQL, latitude and longitude on PostgreSQL. -/
def point (d : Dialect) (origin : Coordinate) : Sql.Fragment :=
  match d with
  | mysql => ⟨"ST_PointFromText(?)", [.text origin.wellKnownText]⟩
  | postgresql => ⟨"point(?, ?)", [.float origin.lat, .float origin.lng]⟩

/-- The distance from a point column to an origin, in degrees. -/
def distance (d : Dialect) (column : String) (origin : Coordinate) : Sql.Fragment :=
  match d with
  | mysql => .raw ("ST_Distance(" ++ column ++ ", ") ++ d.point origin ++ .raw ")"
  | postgresql => .raw ("(" ++ column ++ " <-> ") ++ d.point origin ++ .raw ")"

/-- Whether point columns have to be converted to be read as text. -/
def convertsPoints : Dialect → Bool
  | mysql => true
  | postgresql => false

/-- A point column as text. -/
def pointAsText (d : Dialect) (column : String) : String :=
  match d with
  | mysql => "ST_AsText(" ++ column ++ ")"
  | postgresql => column

end Dialect

end PointQuery
