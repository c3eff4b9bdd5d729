import PointQuery.Proofs.Compiler.Source
import PointQuery.Proofs.Projection.Commutation
import PointQuery.Proofs.Search.Calls
import PointQuery.Proofs.Search.Stack
/-!
# An empty select list and a star

An empty select list asks for everything, and so does a star. Both are written as a star; to replace
expands both to the same columns; and a search puts a star into the empty list. Only where points
are shown beside the wildcards is there a difference, as long as no search takes effect.
-/

namespace PointQuery

open Sql

/-- The query with a star as its select list. -/
def Sql.Query.starred (q : Query) : Query := q.edit (.select ["*"])

section

variable {p : Projection} {mode : ProjectionMode} {q : Query} {table : String}

/-- An empty select list is written as a star. -/
theorem render_starred (h : q.select = []) : q.starred.render = q.render := by
  obtain ⟨select, source, joins, condition, groupBy, orderBy, limit, offset, distinct, unions⟩ := q
  cases h
  have hstar : selectList (renderItems [.plain "*"]) = selectList (renderItems []) := by
    decide +kernel
  simp only [Query.starred, Query.edit, List.map_cons, List.map_nil, Query.render, hstar]

theorem starred_readingFrom (q : Query) (table : String) :
    q.starred.readingFrom table = (q.readingFrom table).starred :=
  (Query.edit_readingFrom rfl q table).symm

/-! ## Projecting -/

/-- At the level that reads the table, to replace gives one list for both. -/
theorem projectLevel_starred (h : q.select = []) (hcolumns : p.table.columns ≠ [])
    (hjoin : q.sourceAlias p.table.name ∉ q.joinAliases) :
    p.projectLevel .replace q.starred = p.projectLevel .replace q := by
  have hlist : p.projectSelect (.ofLevel q p.table) .replace [.plain "*"] =
      p.projectSelect (.ofLevel q p.table) .replace q.select := by
    rw [h]
    exact Projection.projectSelect_star hcolumns hjoin
  exact congrArg (fun select => { q with select }) hlist

theorem render_project_starred (h : q.select = []) (hcolumns : p.table.columns ≠ [])
    (hjoin : q.sourceAlias p.table.name ∉ q.joinAliases) (mode : ProjectionMode) :
    (p.project .replace mode q.starred).render = (p.project .replace mode q).render := by
  cases hconverts : p.dialect.convertsPoints with
  | false =>
      rw [Projection.project_of_plain hconverts, Projection.project_of_plain hconverts,
        render_starred h]
  | true =>
      cases hderived : q.readsDerived with
      | true =>
          -- the select list stays as it is, above the derived table
          obtain ⟨inner, label, hs⟩ := Query.readsDerived_eq_true hderived
          rw [Projection.project_of_derived (q := q.starred) hconverts hderived,
            Projection.project_of_derived hconverts hderived,
            Query.mapInnermost_of_derived (q := q.starred) hs, Query.mapInnermost_of_derived hs]
          exact render_starred (q := { q with source := _ }) h
      | false =>
          cases mode with
          | normal =>
              rw [Projection.project_of_level (q := q.starred) hconverts hderived,
                Projection.project_of_level hconverts hderived,
                projectLevel_starred h hcolumns hjoin]
          | suppressed =>
              rw [Projection.project_suppressed_level (q := q.starred) hderived,
                Projection.project_suppressed_level hderived, render_starred h]

/-! ## Searching -/

/-- A search puts a star into the empty list. -/
theorem restrict_starred (h : q.select = []) (s : Search) (d : Dialect) (table : String) :
    s.restrict d (q.starred.readingFrom table) = s.restrict d (q.readingFrom table) := by
  have hselect : (q.readingFrom table).select = [] := (Query.select_readingFrom q table).trans h
  have hmeasure :
      s.measure d (q.readingFrom table).starred = s.measure d (q.readingFrom table) := by
    rw [Projection.measure_of_nil hselect]
    rfl
  rw [starred_readingFrom, Search.restrict, Search.restrict, hmeasure]

end

namespace Compiler

variable {c : Compiler} {q : Query} {calls : List Action}

/-- Calls of which one takes effect make the same of both. -/
theorem foldl_queryAfter_starred (h : q.select = []) (heffect : ∃ call ∈ calls, c.Effective call) :
    calls.foldl c.queryAfter q.starred = calls.foldl c.queryAfter q := by
  induction calls with
  | nil =>
      obtain ⟨call, hmem, -⟩ := heffect
      cases hmem
  | cons first calls ih =>
      rw [List.foldl_cons, List.foldl_cons]
      rcases c.queryAfter_cases first with ⟨hidle, hnone⟩ | ⟨s, d, hsearch⟩
      · rw [hnone, hnone]
        refine ih ?_
        obtain ⟨call, hmem, hcall⟩ := heffect
        rcases List.mem_cons.mp hmem with rfl | hlater
        · exact absurd hcall hidle
        · exact ⟨call, hlater, hcall⟩
      · rw [hsearch, hsearch, restrict_starred h]

/-- Calls that are all done take effect where the origin can be read. -/
theorem exists_effective_of_done (hcalls : ∀ call ∈ calls, call.isSearch = true)
    (hread : ∃ call ∈ calls, call.search?.isSome)
    (hdone : ∀ r ∈ (c.runAll calls).1, r.answer = .done) : ∃ call ∈ calls, c.Effective call := by
  obtain ⟨call, hmem, hsome⟩ := hread
  obtain ⟨s, hs⟩ := Option.isSome_iff_exists.mp hsome
  have hanswers : (c.runAll calls).1.map Report.answer = _ :=
    (runAll_searches hcalls c c.query).1
  have hanswer : (c.run call).answer ∈ (c.runAll calls).1.map Report.answer := by
    rw [hanswers]
    exact List.mem_map_of_mem hmem
  obtain ⟨r, hr, hra⟩ := List.mem_map.mp hanswer
  exact ⟨call, hmem, effective_of_done hs (hra ▸ hdone r hr)⟩

/-- Where points are replaced, a statement of the one is a statement of the other. -/
theorem statement_starred (hstyle : c.config.projectionStyle = .replace) (h : q.select = [])
    (hcolumns : c.table.columns ≠ [])
    (hjoin : (q.readingFrom c.table.name).sourceAlias c.table.name ∉ q.joinAliases)
    (mode : ProjectionMode) : c.statement mode q.starred = c.statement mode q := by
  cases hd : c.dialect with
  | error e => rw [statement_error hd, statement_error hd]
  | ok d =>
      have hselect : (q.readingFrom c.table.name).select = [] :=
        (Query.select_readingFrom q _).trans h
      have hnames : (q.readingFrom c.table.name).joinAliases = q.joinAliases := by
        rw [Query.joinAliases, Query.joins_readingFrom]
        rfl
      have hrender : (c.projected d mode q.starred).render = (c.projected d mode q).render := by
        rw [projected, projected, hstyle, starred_readingFrom]
        exact render_project_starred hselect hcolumns (hnames ▸ hjoin) mode
      rw [statement_eq hd, statement_eq hd, hrender]

/-- **An empty select list means a star.** Take a compiler of a query with an empty select list and
a second one of the same query with a star. Where points are replaced, both compile to the same
statement in every mode, if the columns of the table are known and no joined table goes by its name.
Whatever the style, they do so after any searches that are all done and of which one takes effect:
the searches answer alike, and leave the same compiler. -/
theorem starred_sameStatements (c : Compiler) (hselect : c.query.select = [])
    (hcolumns : c.table.columns ≠ [])
    (hjoin : (c.query.readingFrom c.table.name).sourceAlias c.table.name ∉ c.query.joinAliases) :
    let starred := { c with query := c.query.edit (.select ["*"]) }
    (c.config.projectionStyle = .replace →
      ∀ mode, starred.compileIn mode = c.compileIn mode) ∧
    ∀ calls : List Action, (∀ call ∈ calls, call.isSearch = true) →
      (∃ call ∈ calls, call.search?.isSome) → (∀ r ∈ (c.runAll calls).1, r.answer = .done) →
        (starred.runAll calls).1.map Report.answer = (c.runAll calls).1.map Report.answer ∧
          (starred.runAll calls).2 = (c.runAll calls).2 ∧
          ∀ mode, (starred.runAll calls).2.compileIn mode = (c.runAll calls).2.compileIn mode := by
  intro starred
  constructor
  · intro hstyle mode
    exact statement_starred hstyle hselect hcolumns hjoin mode
  · intro calls hcalls hread hdone
    obtain ⟨hanswers, hafter⟩ := runAll_searches hcalls c c.query
    obtain ⟨hanswers', hafter'⟩ := runAll_searches hcalls c c.query.starred
    have hsame : (starred.runAll calls).2 = (c.runAll calls).2 := by
      rw [show (starred.runAll calls).2 = _ from hafter', show (c.runAll calls).2 = _ from hafter,
        foldl_queryAfter_starred hselect (exists_effective_of_done hcalls hread hdone)]
    exact ⟨hanswers'.trans hanswers.symm, hsame, fun mode => by rw [hsame]⟩

/-- Everything about the vineyards and the growers who own them. -/
def vineyards : Compiler where
  query :=
    { joins := [⟨.inner, "growers g", "g.id = vineyards.grower"⟩]
      distinct := true }
  table := ⟨"vineyards", [⟨"id", "int", false⟩, ⟨"geom", "point", false⟩]⟩
  driver := "mariadb"
  config := { projectionStyle := .replace }

/-- A search that is left out, and one that takes effect. -/
def vineyardCalls : List Action :=
  [.searchNear "nowhere" "geom" (.ofInt 5) .mile,
    .search { origin := ⟨.ofInt 10, .ofInt 20⟩, column := "vineyards.geom" }]

theorem vineyards_starred_sameStatements :
    let starred := { vineyards with query := vineyards.query.edit (.select ["*"]) }
    vineyards.query.select = [] ∧ vineyards.table.columns ≠ [] ∧
      (vineyards.query.readingFrom vineyards.table.name).sourceAlias vineyards.table.name ∉
        vineyards.query.joinAliases ∧
      vineyards.config.projectionStyle = .replace ∧
      starred.compileIn .normal = vineyards.compileIn .normal ∧
      (∀ call ∈ vineyardCalls, call.isSearch = true) ∧
      (∃ call ∈ vineyardCalls, call.search?.isSome) ∧
      (∀ r ∈ (vineyards.runAll vineyardCalls).1, r.answer = .done) ∧
      (starred.runAll vineyardCalls).2.compileIn .suppressed =
        (vineyards.runAll vineyardCalls).2.compileIn .suppressed := by
  intro starred
  have hcolumns : vineyards.table.columns ≠ [] := by decide
  have hjoin : (vineyards.query.readingFrom vineyards.table.name).sourceAlias
      vineyards.table.name ∉ vineyards.query.joinAliases := by decide +kernel
  have hcalls : ∀ call ∈ vineyardCalls, call.isSearch = true := by decide
  have hread : ∃ call ∈ vineyardCalls, call.search?.isSome :=
    ⟨_, List.mem_cons_of_mem _ List.mem_cons_self, rfl⟩
  have hanswers : (vineyards.runAll vineyardCalls).1.map Report.answer = [.done, .done] := by
    rfl
  have hdone : ∀ r ∈ (vineyards.runAll vineyardCalls).1, r.answer = .done := by
    intro r hr
    have hmem := List.mem_map_of_mem (f := Report.answer) hr
    rw [hanswers] at hmem
    simpa using hmem
  obtain ⟨hreplaced, hsearched⟩ := starred_sameStatements vineyards rfl hcolumns hjoin
  obtain ⟨-, -, hmodes⟩ := hsearched vineyardCalls hcalls hread hdone
  exact ⟨rfl, hcolumns, hjoin, rfl, hreplaced rfl .normal, hcalls, hread, hdone,
    hmodes .suppressed⟩

end Compiler

end PointQuery
