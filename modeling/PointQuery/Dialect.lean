import PointQuery.Basic
import PointQuery.Sql.Placeholder
import PointQuery.Text.Basic
/-!
# Dialects

The two dialects of SQL that are supported, how the driver of a connection tells which one it
speaks, and how each writes placeholders.
-/

namespace PointQuery

/-- A dialect of SQL. -/
inductive Dialect where
  /-- MySQL and MariaDB. -/
  | mysql
  | postgresql
deriving DecidableEq, Inhabited

namespace Dialect

/-- The name of the dialect. -/
def name : Dialect → String
  | mysql => "mysql"
  | postgresql => "postgresql"

/-- The dialect that a driver speaks; blanks around the driver's name and its case do not matter. -/
def ofDriver (driver : String) : Except QueryError Dialect :=
  let word := Text.lowerAscii (Text.trim driver)
  if word = "mysql" ∨ word = "mariadb" then .ok mysql
  else if word = "pgsql" ∨ word = "postgres" ∨ word = "postgresql" then .ok postgresql
  else .error (.unsupportedDialect driver)

/-- The placeholder of the parameter with this number, from one on. -/
def placeholder : Dialect → Nat → String
  | mysql, _ => "?"
  | postgresql, index => "$" ++ toString index

/-- Writes the placeholders of a text, which are question marks outside quotes, in the dialect. -/
def writePlaceholders (d : Dialect) (sql : String) : String :=
  String.ofList (Sql.replacePlaceholders (fun n => (d.placeholder n).toList) none 0 sql.toList)

end Dialect

end PointQuery
