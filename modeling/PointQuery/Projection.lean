import PointQuery.Event
import PointQuery.Sql.Alias
import PointQuery.Table
/-!
# Projecting points as text

On a dialect that hands out points in binary, a query is changed so that the point columns of its
table come back as text. Only one select list is touched: that of the level which reads the table,
however many derived tables lie around it.
-/

namespace PointQuery

open Sql

/-- An item of a select list. -/
abbrev Item := SelectItem Query

/-! ## What a level sees -/

/-- The names under which a level sees the table and those joined to it. -/
structure Visible where
  primary : String
  joined : List String
deriving DecidableEq

namespace Visible

/-- The names that a level sees; without a source it reads the table itself. -/
def ofLevel (q : Query) (table : Table) : Visible := ⟨q.sourceAlias table.name, q.joinAliases⟩

/-- Whether a wildcard covers the columns of the table itself. -/
def owns (v : Visible) : Wildcard → Bool
  | .all => true
  | .table name => name == v.primary

/-- Whether an item is a wildcard that covers the columns of the table itself. -/
def ownsItem (v : Visible) (item : Item) : Bool := item.wildcard?.any v.owns

/-- The items asked for; an empty select list asks for each table in turn. -/
def requested (v : Visible) (select : List Item) : List Item :=
  if select.isEmpty then (v.primary :: v.joined).map SelectItem.wildcardOf else select

end Visible

/-- The last part of a column name that may be qualified. -/
def lastSegment (name : String) : String :=
  String.ofList (name.toList.reverse.takeWhile (· ≠ '.')).reverse

/-! ## One level -/

/-- What is projected: the columns of a table, in a dialect. -/
structure Projection where
  dialect : Dialect
  table : Table

namespace Projection

/-- A point column as text, under a name of its own. -/
def cast (p : Projection) (column output : String) : Item :=
  .expression (.raw (p.dialect.pointAsText column)) (some output)

/-- A column that a wildcard over the table stands for. -/
def expandColumn (p : Projection) (v : Visible) (c : Column) : Item :=
  let qualified := v.primary ++ "." ++ c.name
  if c.isPoint then p.cast qualified c.name else .plain qualified

/-- What a wildcard over the table stands for: its columns, and if it covers all tables, the
wildcards of those joined. Without known columns it stays. -/
def expand (p : Projection) (v : Visible) (item : Item) (wildcard : Wildcard) : List Item :=
  if p.table.columns.isEmpty then [item]
  else
    p.table.columns.map (p.expandColumn v) ++
      (if wildcard = .all then v.joined.map SelectItem.wildcardOf else [])

/-- A column that is asked for by name: as text if the table says that it holds points. It keeps its
alias, or else the last part of its name. -/
def namedColumn (p : Projection) (name : String) (label : Option String) : Item :=
  match p.table.column? (lastSegment name) with
  | some c => if c.isPoint then p.cast name (label.getD (lastSegment name)) else .column name label
  | none => .column name label

/-- What an item becomes. -/
def projectItem (p : Projection) (v : Visible) (style : ProjectionStyle) (item : Item) :
    List Item :=
  match item.wildcard? with
  | some wildcard =>
    if v.owns wildcard then
      match style with
      | .additive => [item]
      | .replace => p.expand v item wildcard
    else [item]
  | none =>
    match item with
    | .column name label => [p.namedColumn name label]
    | other => [other]

/-- The text form of each point column, each name once. -/
def pointCasts (p : Projection) : List Item :=
  (p.table.points.map Column.name).eraseDups.map fun name => p.cast name name

/-- The new select list of a level. -/
def projectSelect (p : Projection) (v : Visible) (style : ProjectionStyle) (select : List Item) :
    List Item :=
  let requested := v.requested select
  requested.flatMap (p.projectItem v style) ++
    (if style = .additive ∧ requested.any v.ownsItem then p.pointCasts else [])

/-- Projects the select list of a level that reads the table. -/
def projectLevel (p : Projection) (style : ProjectionStyle) (q : Query) : Query :=
  { q with select := p.projectSelect (.ofLevel q p.table) style q.select }

end Projection

/-! ## The innermost level -/

namespace Sql.Query

/-- Whether the query reads from a derived table. -/
def readsDerived (q : Query) : Bool := q.derivedLabel?.isSome

/-- The innermost level: the one that the derived tables, one inside the other, end in. -/
def innermost : Query → Query
  | { source := some (.derived inner _), .. } => inner.innermost
  | q => q

/-- Changes the innermost level. -/
def mapInnermost (f : Query → Query) : Query → Query
  | { select, source := some (.derived inner label), joins, condition, groupBy, orderBy, limit,
      offset, distinct, unions } =>
    { select, source := some (.derived (inner.mapInnermost f) label), joins, condition, groupBy,
      orderBy, limit, offset, distinct, unions }
  | q => f q

end Sql.Query

/-! ## The whole query -/

namespace Projection

/-- Projects a query. Inside a derived table names may not occur twice, so there the style is always
to replace. A level that reads from a derived table gets text already and is left alone, and so is
the outermost level in suppressed mode. -/
def project (p : Projection) (style : ProjectionStyle) (mode : ProjectionMode) (q : Query) :
    Query :=
  if !p.dialect.convertsPoints then q
  else if q.readsDerived then q.mapInnermost (p.projectLevel .replace)
  else
    match mode with
    | .normal => p.projectLevel style q
    | .suppressed => q

/-- What is reported when a level is projected. -/
def levelEvent (p : Projection) (style : ProjectionStyle) (q : Query) : Event :=
  .pointsProjected (q.sourceAlias p.table.name) style (p.projectLevel style q).select.length

/-- What is reported when a query is projected. -/
def events (p : Projection) (style : ProjectionStyle) (mode : ProjectionMode) (q : Query) :
    List Event :=
  if !p.dialect.convertsPoints then []
  else
    (if q.readsDerived then [p.levelEvent .replace q.innermost] else []) ++
      match mode with
      | .suppressed => [.projectionSuppressed]
      | .normal => if q.readsDerived then [] else [p.levelEvent style q]

end Projection

end PointQuery
