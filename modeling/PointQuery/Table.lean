import PointQuery.Text.Basic
/-!
# Tables

What is known of the table that a query is about: its name and its columns, in order, and which of
them hold points.
-/

namespace PointQuery

/-! ## Columns -/

/-- A column, with its type as the database names it. -/
structure Column where
  name : String
  dataType : String
  /-- Says that the column holds points whatever its type. -/
  point : Bool := false
deriving DecidableEq, Inhabited

/-- Whether a type is one of points: `point`, or `geometry` restricted to them. The case of the type
and blanks around it do not matter. -/
def Column.isPointType (dataType : String) : Bool :=
  let type := Text.lowerAscii (Text.trim dataType)
  type == "point" || "geometry(point".toList.isPrefixOf type.toList

/-- Whether the column holds points: it is marked so, or its type is one of points. -/
def Column.isPoint (c : Column) : Bool := c.point || isPointType c.dataType

example : Column.isPointType " POINT " ∧ Column.isPointType "geometry(Point,4326)" := by decide

/-! ## Tables -/

/-- The name and the columns of a table. -/
structure Table where
  name : String
  columns : List Column := []
deriving DecidableEq, Inhabited

namespace Table

/-- The first column with this name. -/
def column? (t : Table) (name : String) : Option Column := t.columns.find? (·.name == name)

/-- The columns that hold points, in order. -/
def points (t : Table) : List Column := t.columns.filter Column.isPoint

end Table

end PointQuery
