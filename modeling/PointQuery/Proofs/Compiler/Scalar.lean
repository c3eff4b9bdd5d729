import PointQuery.Proofs.Compiler.Statement
import PointQuery.Proofs.Projection.Select
import PointQuery.Proofs.Search.Stack
/-!
# What a scalar statement depends on

A scalar query asks for one expression, which the projection does not look into, or reads the query
as a derived table, whose points are projected in one way only. So neither mode nor style matters:
`project_scalar`. Of the query itself only the rows matter, as long as they are neither merged nor
added to: `compileScalar_eq_of_sameRows`.
-/

namespace PointQuery

open Sql

/-- Two queries read the same rows: these come from the same source and joins under the same
condition, and neither query merges rows or adds any. What they select of a row, in which order they
give the rows and which page of them is left open. -/
structure SameRows (q q' : Query) : Prop where
  source : q.source = q'.source
  joins : q.joins = q'.joins
  condition : q.condition = q'.condition
  keepsRows : Compiler.keepsRows q = true
  keepsRows' : Compiler.keepsRows q' = true

/-! ## Projecting one expression -/

namespace Projection

variable {p : Projection} {q : Query} {expression : String}

/-- A level that computes one expression is left alone in either style. -/
theorem projectLevel_scalar (style : ProjectionStyle) (h : q.select = [.raw expression]) :
    p.projectLevel style q = q := by
  obtain ⟨select, source, joins, condition, groupBy, orderBy, limit, offset, distinct, unions⟩ := q
  cases h
  cases style with
  | additive => rfl
  | replace => rfl

/-- A query that computes one expression is projected alike in all styles and modes. -/
theorem project_scalar (style : ProjectionStyle) (mode : ProjectionMode)
    (h : q.select = [.raw expression]) :
    p.project style mode q = p.project .replace .suppressed q := by
  cases hconverts : p.dialect.convertsPoints with
  | false => rw [project_of_plain hconverts, project_of_plain hconverts]
  | true =>
      cases hderived : q.readsDerived with
      | true => rw [project_of_derived hconverts hderived, project_of_derived hconverts hderived]
      | false =>
          rw [project_suppressed_level hderived]
          cases mode with
          | suppressed => exact project_suppressed_level hderived
          | normal => rw [project_of_level hconverts hderived, projectLevel_scalar style h]

end Projection

/-! ## The scalar form -/

namespace Compiler

variable {c c' : Compiler} {q : Query}

theorem keepsRows_iff :
    keepsRows q = true ↔ q.distinct = false ∧ q.groupBy = [] ∧ q.unions = [] := by
  simp [keepsRows, and_assoc]

theorem keepsRows_readingFrom (q : Query) (table : String) :
    keepsRows (q.readingFrom table) = keepsRows q := by
  rw [Query.readingFrom]
  split
  · rfl
  · rfl

/-- Where the rows are kept, the expression is computed over the source and joins of the query,
under its condition; no other clause is left. -/
theorem scalarForm_of_keepsRows (h : keepsRows c.query = true) (expression : String) :
    c.scalarForm expression =
      { select := [.raw expression]
        source := some (c.query.source.getD (.table c.table.name none))
        joins := c.query.joins
        condition := c.query.condition } := by
  obtain ⟨hdistinct, hgroup, hunions⟩ := keepsRows_iff.mp h
  have hfilled : keepsRows (c.query.readingFrom c.table.name) = true :=
    (keepsRows_readingFrom _ _).trans h
  rw [scalarForm]
  simp only [hfilled, if_true]
  rw [Query.readingFrom]
  split
  · rename_i source hsource
    simp only [hdistinct, hgroup, hunions, hsource, Option.getD_some]
  · rename_i hsource
    simp only [hdistinct, hgroup, hunions, hsource, Option.getD_none]

/-- Elsewhere the query becomes a derived table as it is. -/
theorem scalarForm_of_not_keepsRows (h : keepsRows c.query = false) (expression : String) :
    c.scalarForm expression =
      { select := [.raw expression]
        source := some (.derived (c.query.readingFrom c.table.name) scalarAlias) } := by
  have hfilled : keepsRows (c.query.readingFrom c.table.name) = false :=
    (keepsRows_readingFrom _ _).trans h
  rw [scalarForm]
  simp only [hfilled, Bool.false_eq_true, if_false]

/-- A scalar query computes the expression and nothing else. -/
theorem select_scalarForm (c : Compiler) (expression : String) :
    (c.scalarForm expression).select = [.raw expression] := by
  cases h : keepsRows c.query with
  | true => rw [scalarForm_of_keepsRows h]
  | false => rw [scalarForm_of_not_keepsRows h]

theorem scalarForm_eq_of_sameRows (htable : c.table = c'.table) (h : SameRows c.query c'.query)
    (expression : String) : c.scalarForm expression = c'.scalarForm expression := by
  rw [scalarForm_of_keepsRows h.keepsRows, scalarForm_of_keepsRows h.keepsRows', h.source, h.joins,
    h.condition, htable]

theorem scalarForm_eq_of_query (htable : c.table = c'.table) (h : c.query = c'.query)
    (expression : String) : c.scalarForm expression = c'.scalarForm expression := by
  rw [scalarForm, scalarForm, h, htable]

/-! ## The scalar statement -/

/-- A scalar query is projected alike whatever the mode and the settings. -/
theorem projected_scalarForm (htable : c.table = c'.table) (d : Dialect) (expression : String)
    (hform : c.scalarForm expression = c'.scalarForm expression) :
    c.projected d c.mode (c.scalarForm expression) =
      c'.projected d c'.mode (c'.scalarForm expression) := by
  have hselect : ((c'.scalarForm expression).readingFrom c'.table.name).select =
      [.raw expression] :=
    (Query.select_readingFrom _ _).trans (select_scalarForm c' expression)
  rw [projected, projected, projection, projection, hform, htable,
    Projection.project_scalar c.config.projectionStyle c.mode hselect,
    Projection.project_scalar c'.config.projectionStyle c'.mode hselect]

/-- **A scalar statement depends on the rows only.** Take two compilers of one table and one driver,
in whatever modes and with whatever settings. If they hold the same query, or queries that read the
same rows, then a scalar query compiles to the same statement in both, text and values, or fails
with the same error: what the queries select, values bound there included, how they order and page
the rows leaves no trace. -/
theorem compileScalar_eq_of_sameRows (hdriver : c.driver = c'.driver) (htable : c.table = c'.table)
    (hquery : c.query = c'.query ∨ SameRows c.query c'.query) (expression : String) :
    c.compileScalar expression = c'.compileScalar expression := by
  have hform : c.scalarForm expression = c'.scalarForm expression := by
    rcases hquery with heq | hrows
    · exact scalarForm_eq_of_query htable heq expression
    · exact scalarForm_eq_of_sameRows htable hrows expression
  have hdialect : c.dialect = c'.dialect := by rw [dialect, dialect, hdriver]
  rw [compileScalar, compileScalar]
  cases hd : c.dialect with
  | error e => rw [statement_error hd, statement_error (hdialect.symm.trans hd)]
  | ok d =>
      rw [statement_eq hd, statement_eq (hdialect.symm.trans hd),
        projected_scalarForm htable d expression hform]

/-- The parks that are open, ten at a time by size, with what is said of them. -/
def openParks : Compiler where
  query :=
    { select := [.plain "name", .expression ⟨"area > ?", [.int 5]⟩ (some "large")]
      condition := some (.equals "open" (.bool true))
      orderBy := [.descending "area"]
      limit := some 10 }
  table := ⟨"parks", [⟨"name", "text", false⟩, ⟨"geom", "point", false⟩]⟩
  driver := "mysql"

/-- The same parks, of which everything is asked for, in scalar mode and with another style. -/
def allOfOpenParks : Compiler where
  query := { condition := some (.equals "open" (.bool true)) }
  table := openParks.table
  driver := "mysql"
  config := { projectionStyle := .replace }
  mode := .suppressed

theorem openParks_compileScalar_eq :
    openParks.driver = allOfOpenParks.driver ∧ openParks.table = allOfOpenParks.table ∧
      SameRows openParks.query allOfOpenParks.query ∧
      openParks.compileScalar "COUNT(*)" = allOfOpenParks.compileScalar "COUNT(*)" := by
  have hdriver : openParks.driver = allOfOpenParks.driver := rfl
  have htable : openParks.table = allOfOpenParks.table := rfl
  have hrows : SameRows openParks.query allOfOpenParks.query := ⟨rfl, rfl, rfl, rfl, rfl⟩
  exact ⟨hdriver, htable, hrows,
    compileScalar_eq_of_sameRows hdriver htable (.inr hrows) "COUNT(*)"⟩

example : (openParks.compileScalar "COUNT(*)").toOption =
    some ⟨"SELECT COUNT(*) FROM parks WHERE open = ?", [.bool true]⟩ := by decide +kernel

end Compiler

end PointQuery
