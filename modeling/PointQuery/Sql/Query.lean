import PointQuery.Sql.Fragment
/-!
# Queries

A SELECT query as a tree: its select list and its source may hold further queries, and so do the
members of a UNION. A query is built and changed by edits, each of which touches one clause.
-/

namespace PointQuery.Sql

/-! ## Parts of a query -/

/-- The direction of an ordering. -/
inductive Direction where
  | ascending
  | descending
deriving DecidableEq, Inhabited

/-- An ordering by one column. -/
structure SortKey where
  column : String
  direction : Direction
deriving DecidableEq, Inhabited

namespace SortKey

/-- Smallest first. -/
def ascending (column : String) : SortKey := ⟨column, .ascending⟩

/-- Largest first. -/
def descending (column : String) : SortKey := ⟨column, .descending⟩

/-- Reads an ordering: a minus sign before the column means descending. -/
def parse (spec : String) : SortKey :=
  match spec.toList with
  | '-' :: column => descending (String.ofList column)
  | _ => ascending spec

/-- The ordering as it stands in ORDER BY. -/
def render (o : SortKey) : String :=
  match o.direction with
  | .ascending => o.column ++ " ASC"
  | .descending => o.column ++ " DESC"

end SortKey

/-- The kind of a join. -/
inductive JoinKind where
  | inner
  | left
  | right
deriving DecidableEq, Inhabited

/-- A joined table, with its alias if it has one, and the condition it is joined on. -/
structure Join where
  kind : JoinKind
  table : String
  condition : String
deriving DecidableEq, Inhabited

/-- An item of a select list. Expressions are opaque; a column may be a wildcard. -/
inductive SelectItem (Q : Type) where
  | column (name : String) (label : Option String)
  | expression (fragment : Fragment) (label : Option String)
  | subquery (query : Q) (label : String)

/-- What a query reads from: a table, written as a name or as a name and an alias in one text, with
a further alias if wanted; or a derived table. -/
inductive Source (Q : Type) where
  | table (name : String) (label : Option String)
  | derived (query : Q) (label : String)

/-- A query appended by UNION, or by UNION ALL if duplicates are kept. -/
structure UnionMember (Q : Type) where
  all : Bool
  query : Q

/-- A SELECT query. An empty select list asks for all columns. -/
structure Query where
  select : List (SelectItem Query) := []
  source : Option (Source Query) := none
  joins : List Join := []
  condition : Option Fragment := none
  groupBy : List String := []
  orderBy : List SortKey := []
  limit : Option Nat := none
  offset : Option Nat := none
  distinct : Bool := false
  unions : List (UnionMember Query) := []

instance : Inhabited Query := ⟨{}⟩

/-! ## Wildcards -/

/-- A wildcard: over everything a level reads, or over one table. -/
inductive Wildcard where
  | all
  | table (name : String)
deriving DecidableEq

namespace SelectItem

variable {Q : Type}

/-- A column under its own name. -/
def plain (name : String) : SelectItem Q := .column name none

/-- All columns of one table. -/
def wildcardOf (table : String) : SelectItem Q := plain (table ++ ".*")

/-- An expression without values or alias. -/
def raw (sql : String) : SelectItem Q := .expression (.raw sql) none

/-- The wildcard that a column name is. -/
def wildcardOfName? (name : String) : Option Wildcard :=
  if name = "*" then some .all
  else
    match name.toList.reverse with
    | '*' :: '.' :: table => some (.table (String.ofList table.reverse))
    | _ => none

/-- The wildcard that an item is; only a column can be one, whatever its alias. -/
def wildcard? : SelectItem Q → Option Wildcard
  | .column name _ => wildcardOfName? name
  | .expression .. => none
  | .subquery .. => none

end SelectItem

/-! ## Editing -/

/-- A change to one clause of a query. -/
inductive Edit where
  /-- Replaces the select list by columns. -/
  | select (columns : List String)
  | addSelect (item : SelectItem Query)
  | readTable (name : String) (label : Option String)
  | readDerived (query : Query) (label : String)
  | join (kind : JoinKind) (table condition : String)
  /-- Replaces the condition. -/
  | setCondition (condition : Fragment)
  /-- Adds a condition to those there are. -/
  | andCondition (condition : Fragment)
  /-- Replaces the grouping. -/
  | groupBy (columns : List String)
  /-- Adds an ordering after those there are. -/
  | orderBy (spec : String)
  | limit (count : Nat)
  | offset (count : Nat)
  | distinct
  | union (all : Bool) (query : Query)

namespace Query

/-- Adds a condition. Both the old and the new one are put in parentheses, so that neither reaches
into the other. -/
def andCondition (q : Query) (condition : Fragment) : Query :=
  { q with
    condition := some <|
      match q.condition with
      | some existing => existing.paren.and condition.paren
      | none => condition }

/-- Makes one change. -/
def edit (q : Query) : Edit → Query
  | .select columns => { q with select := columns.map SelectItem.plain }
  | .addSelect item => { q with select := q.select ++ [item] }
  | .readTable name label => { q with source := some (.table name label) }
  | .readDerived query label => { q with source := some (.derived query label) }
  | .join kind table condition => { q with joins := q.joins ++ [⟨kind, table, condition⟩] }
  | .setCondition condition => { q with condition := some condition }
  | .andCondition condition => q.andCondition condition
  | .groupBy columns => { q with groupBy := columns }
  | .orderBy spec => { q with orderBy := q.orderBy ++ [.parse spec] }
  | .limit count => { q with limit := some count }
  | .offset count => { q with offset := some count }
  | .distinct => { q with distinct := true }
  | .union all query => { q with unions := q.unions ++ [⟨all, query⟩] }

/-- Makes changes one after another. -/
def editAll (q : Query) (edits : List Edit) : Query := edits.foldl edit q

/-- The query that reads from the table if it had no source. -/
def readingFrom (q : Query) (table : String) : Query :=
  match q.source with
  | some _ => q
  | none => { q with source := some (.table table none) }

/-- The alias of the derived table that the query reads from. -/
def derivedLabel? (q : Query) : Option String :=
  match q.source with
  | some (.derived _ label) => some label
  | _ => none

end Query

end PointQuery.Sql
