import PointQuery.Compiler.Config
import PointQuery.Projection
import PointQuery.Sql.Render
/-!
# The compiler

A compiler holds a query, the table that it is about and the driver of the connection that it will
run on. Searches change the query; compiling makes a statement of a projected copy and leaves the
query as it is.
-/

namespace PointQuery

open Sql

/-- A statement ready to be run: text with the placeholders of a dialect, and their values. -/
structure Statement where
  sql : String
  params : List Value
deriving DecidableEq

/-- A query under way. -/
structure Compiler where
  query : Query
  table : Table
  driver : String
  config : Config := {}
  mode : ProjectionMode := .normal

namespace Compiler

/-- The dialect of the connection. -/
def dialect (c : Compiler) : Except QueryError Dialect := Dialect.ofDriver c.driver

/-- What is projected as text. -/
def projection (c : Compiler) (d : Dialect) : Projection := ⟨d, c.table⟩

/-! ## Proximity searches -/

/-- Something done to a compiler that may fail. What it changed before it failed stays changed. -/
abbrev Operation := EStateM QueryError Compiler

/-- The dialect of a search, which is checked before the query is touched: the dialect first, then
the column. -/
def checkSearch (c : Compiler) (search : Search) : Except QueryError Dialect := do
  let dialect ← c.dialect
  Attribute.validate search.column
  return dialect

/-- Makes the query read from the table if it has no source. -/
def fillSource (c : Compiler) : Compiler := { c with query := c.query.readingFrom c.table.name }

/-- Puts the query inside a search. -/
def restrict (search : Search) (dialect : Dialect) (c : Compiler) : Compiler :=
  { c with query := search.restrict dialect c.query }

/-- Restricts the query to the rows within a radius, nearest first. -/
def search (search : Search) : Operation Unit := do
  let dialect ← ofExcept ((← get).checkSearch search)
  modify fillSource
  modify (restrict search dialect)

/-- The same with an origin given as text. One that cannot be read is an error or leaves the query
as it is, as the settings say. -/
def searchNear (origin column : String) (radius : Binary64) (unit : DistanceUnit) :
    Operation Unit := do
  match Coordinate.parse origin with
  | .ok origin => search { origin, column, radius, unit }
  | .error error =>
    match (← get).config.originPolicy with
    | .reject => throw error
    | .ignore => return

/-! ## Compiling -/

/-- The statement of a query: it reads from the table if it has no source, its points are projected,
and its placeholders are written in the dialect. -/
def statement (c : Compiler) (mode : ProjectionMode) (query : Query) :
    Except QueryError Statement := do
  let dialect ← c.dialect
  let projected := (c.projection dialect).project c.config.projectionStyle mode
    (query.readingFrom c.table.name)
  let rendered := projected.render
  return ⟨dialect.writePlaceholders rendered.sql, rendered.params⟩

/-- Compiles the query in a given mode. -/
def compileIn (c : Compiler) (mode : ProjectionMode) : Except QueryError Statement :=
  c.statement mode c.query

/-- Compiles the query in the current mode. -/
def compile (c : Compiler) : Except QueryError Statement := c.compileIn c.mode

/-! ## Scalar queries -/

/-- The alias of the derived table that a scalar query may need. -/
def scalarAlias : String := "c"

/-- Whether the rows of a query are those of its source, joins and condition. -/
def keepsRows (q : Query) : Bool := !q.distinct && q.groupBy.isEmpty && q.unions.isEmpty

/-- The query that computes one expression over the rows of the query. Where rows are merged or
added, the query becomes a derived table; otherwise the expression takes the place of the select
list, and ordering and paging are dropped. -/
def scalarForm (c : Compiler) (expression : String) : Query :=
  let query := c.query.readingFrom c.table.name
  if keepsRows query then
    { query with select := [.raw expression], orderBy := [], limit := none, offset := none }
  else { select := [.raw expression], source := some (.derived query scalarAlias) }

/-- Compiles the scalar query in the current mode. -/
def compileScalar (c : Compiler) (expression : String) : Except QueryError Statement :=
  c.statement c.mode (c.scalarForm expression)

/-- Runs something in scalar mode, and restores the mode afterwards whatever came of it. -/
def inScalarMode {α : Type} (c : Compiler) (body : Compiler → α × Compiler) : α × Compiler :=
  let (result, after) := body { c with mode := .suppressed }
  (result, { after with mode := c.mode })

/-- Compiles a scalar query in scalar mode and hands it to `execute`. -/
def runScalar {α : Type} (c : Compiler) (expression : String) (execute : Statement → α) :
    Except QueryError α × Compiler :=
  c.inScalarMode fun inner => ((inner.compileScalar expression).map execute, inner)

/-! ## Events -/

/-- What is reported by a search. -/
def searchEvents (c : Compiler) (search : Search) : List Event :=
  match c.checkSearch search with
  | .ok dialect => [.searchApplied dialect search]
  | .error _ => []

/-- What is reported by a search with an origin given as text. -/
def searchNearEvents (c : Compiler) (origin column : String) (radius : Binary64)
    (unit : DistanceUnit) : List Event :=
  match Coordinate.parse origin with
  | .ok origin => c.searchEvents { origin, column, radius, unit }
  | .error error =>
    match c.config.originPolicy with
    | .reject => []
    | .ignore => [.searchIgnored error]

/-- What is reported when a statement is made of a query. -/
def statementEvents (c : Compiler) (mode : ProjectionMode) (query : Query) : List Event :=
  match c.dialect, c.statement mode query with
  | .ok dialect, .ok statement =>
    (c.projection dialect).events c.config.projectionStyle mode (query.readingFrom c.table.name) ++
      [.compiled dialect mode statement.sql statement.params.length]
  | _, _ => []

/-- What is reported when a scalar query is compiled in the current mode. -/
def compileScalarEvents (c : Compiler) (expression : String) : List Event :=
  c.statementEvents c.mode (c.scalarForm expression)

/-- What is reported when a scalar query is compiled in scalar mode. -/
def scalarEvents (c : Compiler) (expression : String) : List Event :=
  (c.inScalarMode fun inner => (inner.compileScalarEvents expression, inner)).1

end Compiler

end PointQuery
