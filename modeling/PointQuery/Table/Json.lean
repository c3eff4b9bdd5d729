import PointQuery.Json.Record
import PointQuery.Json.Writer
import PointQuery.Table
/-!
# Tables as JSON

A table is written as an object with its `name` and `columns`, a column as one with its `name`,
`type` and `point` mark. All but the names may be left out.
-/

namespace PointQuery

/-! ## Columns -/

namespace Column

/-- The fields of a column as far as they have been read. -/
structure Draft where
  name : Option String := none
  dataType : Option String := none
  point : Option Bool := none

/-- The fields of a column, in the order in which a list gives them. -/
def fields : List (Json.Field Draft) :=
  [{ name := "name", required := true, isSet := (·.name.isSome)
     read := fun d cs => (Json.string cs).map fun r => ({ d with name := some r.1 }, r.2) },
   { name := "type", required := false, isSet := (·.dataType.isSome)
     read := fun d cs => (Json.string cs).map fun r => ({ d with dataType := some r.1 }, r.2) },
   { name := "point", required := false, isSet := (·.point.isSome)
     read := fun d cs => (Json.bool cs).map fun r => ({ d with point := some r.1 }, r.2) }]

/-- The column of the fields read; those left out are empty. -/
def Draft.column (d : Draft) : Column :=
  ⟨d.name.getD "", d.dataType.getD "", d.point.getD false⟩

/-- Reads a column. -/
def json : Json.Reader Column := fun cs =>
  (Json.Record.read fields {} cs).map fun r => (r.1.column, r.2)

/-- The column as JSON. -/
def toJson (c : Column) : List Char :=
  Json.writeObject [
    Json.writeMember "name" (Json.writeString c.name),
    Json.writeMember "type" (Json.writeString c.dataType),
    Json.writeMember "point" (Json.writeBool c.point)]

end Column

/-! ## Tables -/

namespace Table

/-- The fields of a table as far as they have been read. -/
structure Draft where
  name : Option String := none
  columns : Option (List Column) := none

/-- The fields of a table, in the order in which a list gives them. -/
def fields : List (Json.Field Draft) :=
  [{ name := "name", required := true, isSet := (·.name.isSome)
     read := fun d cs => (Json.string cs).map fun r => ({ d with name := some r.1 }, r.2) },
   { name := "columns", required := false, isSet := (·.columns.isSome)
     read := fun d cs =>
       (Json.list Column.json cs).map fun r => ({ d with columns := some r.1 }, r.2) }]

/-- The table of the fields read; without columns it has none. -/
def Draft.table (d : Draft) : Table := ⟨d.name.getD "", d.columns.getD []⟩

/-- Reads a table. -/
def json : Json.Reader Table := fun cs =>
  (Json.Record.read fields {} cs).map fun r => (r.1.table, r.2)

/-- Reads a table from a whole text. -/
def ofJson (text : String) : Except Json.Failure Table := Json.whole json text

/-- The table as compact JSON. -/
def toJson (t : Table) : String :=
  String.ofList <| Json.writeObject [
    Json.writeMember "name" (Json.writeString t.name),
    Json.writeMember "columns" (Json.writeList (t.columns.map Column.toJson))]

end Table

end PointQuery
