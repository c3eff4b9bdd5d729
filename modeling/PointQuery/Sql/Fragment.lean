import PointQuery.Sql.Value
/-!
# SQL fragments

A fragment is a piece of SQL text together with the values of its placeholders, in the order in
which the placeholders stand. Joining fragments joins both, so text and values cannot drift apart.
-/

namespace PointQuery.Sql

/-- SQL text and the values of its `?` placeholders. -/
structure Fragment where
  sql : String
  params : List Value
deriving DecidableEq, Inhabited

namespace Fragment

/-- Text without values. -/
def raw (sql : String) : Fragment := ⟨sql, []⟩

/-- One fragment after another. -/
def append (a b : Fragment) : Fragment := ⟨a.sql ++ b.sql, a.params ++ b.params⟩

instance : Append Fragment := ⟨append⟩

@[simp] theorem sql_append (a b : Fragment) : (a ++ b).sql = a.sql ++ b.sql := rfl
@[simp] theorem params_append (a b : Fragment) : (a ++ b).params = a.params ++ b.params := rfl
@[simp] theorem sql_raw (s : String) : (raw s).sql = s := rfl
@[simp] theorem params_raw (s : String) : (raw s).params = [] := rfl

/-- Fragments in a row with a separator between them. -/
def join (separator : String) : List Fragment → Fragment
  | [] => raw ""
  | [f] => f
  | f :: fs => f ++ raw separator ++ join separator fs

/-! ## Conditions and expressions -/

/-- A column compared with a bound value. -/
def compare (column operator : String) (value : Value) : Fragment :=
  ⟨column ++ " " ++ operator ++ " ?", [value]⟩

/-- `column = ?` -/
def equals (column : String) (value : Value) : Fragment := compare column "=" value

/-- `column < ?` -/
def lessThan (column : String) (value : Value) : Fragment := compare column "<" value

/-- `column > ?` -/
def greaterThan (column : String) (value : Value) : Fragment := compare column ">" value

/-- The fragment in parentheses. -/
def paren (f : Fragment) : Fragment := raw "(" ++ f ++ raw ")"

/-- Both conditions. -/
def and (a b : Fragment) : Fragment := a ++ raw " AND " ++ b

/-- The expression times a constant. The constant is written as an approximate number, so that the
product is computed in floating point. -/
def scaled (f : Fragment) (factor : Binary64) : Fragment :=
  raw ("(" ++ factor.toApproximate ++ " * ") ++ f ++ raw ")"

/-- The same text and equal values. -/
def ieeeEq (a b : Fragment) : Bool := a.sql == b.sql && Value.ieeeEqList a.params b.params

end Fragment

end PointQuery.Sql
