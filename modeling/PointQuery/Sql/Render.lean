import PointQuery.Sql.Query
/-!
# Rendering queries

The text of a query with `?` placeholders, and the bound values in the order of the placeholders.
The two are built together, clause by clause, from the select list to the unions.
-/

namespace PointQuery.Sql

/-! ## Clauses that hold no queries -/

/-- A list of texts with commas between them. -/
def commaList (texts : List String) : Fragment := Fragment.join ", " (texts.map Fragment.raw)

/-- A clause that is left out if its list is empty. -/
def listClause (keyword : String) (texts : List String) : Fragment :=
  if texts.isEmpty then .raw "" else .raw keyword ++ commaList texts

/-- The alias of a select item. -/
def labelClause : Option String → Fragment
  | some label => .raw (" AS " ++ label)
  | none => .raw ""

/-- The words that join a table. -/
def JoinKind.keyword : JoinKind → String
  | .inner => "INNER JOIN"
  | .left => "LEFT JOIN"
  | .right => "RIGHT JOIN"

/-- The joins, in order. -/
def joinClauses (joins : List Join) : Fragment :=
  Fragment.join "" <| joins.map fun j =>
    .raw (" " ++ j.kind.keyword ++ " " ++ j.table ++ " ON " ++ j.condition)

/-- The condition. -/
def conditionClause : Option Fragment → Fragment
  | some condition => .raw " WHERE " ++ condition
  | none => .raw ""

/-- A clause with a count. -/
def countClause (keyword : String) : Option Nat → Fragment
  | some count => .raw (keyword ++ toString count)
  | none => .raw ""

/-- The clauses after the source, without the unions. -/
def tailClauses (joins : List Join) (condition : Option Fragment) (groupBy : List String)
    (orderBy : List SortKey) (limit offset : Option Nat) : Fragment :=
  joinClauses joins ++ conditionClause condition ++ listClause " GROUP BY " groupBy ++
    listClause " ORDER BY " (orderBy.map SortKey.render) ++ countClause " LIMIT " limit ++
    countClause " OFFSET " offset

/-! ## The tree -/

/-- The select list; an empty one is a star. -/
def selectList : List Fragment → Fragment
  | [] => .raw "*"
  | items => Fragment.join ", " items

mutual

/-- The query with its placeholders. If it has union members, it and each of them is put in
parentheses. -/
def Query.render : Query → Fragment
  | { select, source, joins, condition, groupBy, orderBy, limit, offset, distinct, unions } =>
    let level :=
      .raw (if distinct then "SELECT DISTINCT " else "SELECT ") ++
        selectList (renderItems select) ++
        renderSource source ++ tailClauses joins condition groupBy orderBy limit offset
    if unions.isEmpty then level else level.paren ++ renderUnions unions

/-- The items of a select list. -/
def renderItems : List (SelectItem Query) → List Fragment
  | [] => []
  | item :: items => renderItem item :: renderItems items

/-- An item of a select list. -/
def renderItem : SelectItem Query → Fragment
  | .column name label => .raw name ++ labelClause label
  | .expression fragment label => fragment ++ labelClause label
  | .subquery query label => query.render.paren ++ labelClause (some label)

/-- The source. -/
def renderSource : Option (Source Query) → Fragment
  | none => .raw ""
  | some (.table name none) => .raw (" FROM " ++ name)
  | some (.table name (some label)) => .raw (" FROM " ++ name ++ " " ++ label)
  | some (.derived query label) => .raw " FROM " ++ query.render.paren ++ .raw (" " ++ label)

/-- The union members, in order. -/
def renderUnions : List (UnionMember Query) → Fragment
  | [] => .raw ""
  | ⟨all, query⟩ :: members =>
    .raw (if all then " UNION ALL " else " UNION ") ++ query.render.paren ++ renderUnions members

end

end PointQuery.Sql
