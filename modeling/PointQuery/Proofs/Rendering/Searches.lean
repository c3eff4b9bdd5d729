import PointQuery.Proofs.Projection.Frame
import PointQuery.Proofs.Search.Stack
/-!
# The values of searches

A search puts its origin among the values of the query that it measures, behind those of the select
list, and its radius behind all of them. The next search finds a select list without values, so its
origin comes first. `params_stack` follows this through any number of searches, and
`searches_bindingOrder` says in which order the compiled statement binds.
-/

namespace PointQuery

open Sql

/-! ## One search -/

/-- The values that bind the origin of a search: one well-known text on MySQL, latitude and then
longitude on PostgreSQL. -/
def Search.originValues (d : Dialect) (s : Search) : List Value :=
  match d with
  | .mysql => [.text s.origin.wellKnownText]
  | .postgresql => [.float s.origin.lat, .float s.origin.lng]

section

variable {d : Dialect} {q : Query} {table : String}

theorem params_distance (d : Dialect) (s : Search) : (s.distance d).params = s.originValues d := by
  cases d with
  | mysql => rfl
  | postgresql => rfl

/-- The values of a level but for those of its select list and its union members, in the order in
which it binds them. -/
def Sql.Query.restValues (q : Query) : List Value :=
  (renderSource q.source).params ++ q.condition.toList.flatMap Fragment.params

theorem Sql.Query.params_render_of_no_unions (h : q.unions = []) :
    q.render.params = q.select.flatMap itemValues ++ q.restValues := by
  rw [Query.params_render, h, renderUnions, Fragment.params_raw, List.append_nil,
    List.append_assoc]
  rfl

/-- To fill in a source brings no values. -/
theorem restValues_readingFrom (q : Query) (table : String) :
    (q.readingFrom table).restValues = q.restValues := by
  rw [Query.readingFrom_eq, Query.restValues, Query.restValues]
  cases hsource : q.source with
  | none => rw [Option.getD_none, params_renderSource_table, renderSource]; rfl
  | some source => rfl

theorem selectValues_measure (s : Search) (d : Dialect) (q : Query) :
    (s.measure d q).select.flatMap itemValues =
      q.select.flatMap itemValues ++ s.originValues d := by
  rw [Search.measure, ← params_distance]
  cases hselect : q.select with
  | nil => simp [SelectItem.plain]
  | cons item items => simp

/-- A search binds what its query selects, the origin, the rest of the query, and the radius. -/
theorem params_restrict (s : Search) (h : q.unions = []) :
    (s.restrict d (q.readingFrom table)).render.params =
      q.select.flatMap itemValues ++ s.originValues d ++ q.restValues ++ [.float s.radius] := by
  have hunions : (s.measure d (q.readingFrom table)).unions = [] :=
    (Query.unions_readingFrom q table).trans h
  have hrest : (s.measure d (q.readingFrom table)).restValues = q.restValues :=
    restValues_readingFrom q table
  have hinner : (s.measure d (q.readingFrom table)).render.params =
      q.select.flatMap itemValues ++ s.originValues d ++ q.restValues := by
    rw [Query.params_render_of_no_unions hunions, hrest, selectValues_measure,
      Query.select_readingFrom]
  rw [Query.params_render_of_no_unions rfl, Search.restrict, Query.restValues,
    params_renderSource_derived, hinner]
  simp [SelectItem.wildcardOf, SelectItem.plain, Fragment.lessThan, Fragment.compare]

/-! ## Any number of searches -/

/-- A search of a searched query binds its origin before all there is, and its radius behind. -/
theorem params_restrict_restrict (s s' : Search) (q : Query) :
    (s.restrict d ((s'.restrict d q).readingFrom table)).render.params =
      s.originValues d ++ (s'.restrict d q).render.params ++ [.float s.radius] := by
  have hselect : (s'.restrict d q).select.flatMap itemValues = [] := by
    simp [Search.restrict, SelectItem.wildcardOf, SelectItem.plain]
  rw [params_restrict s rfl, Query.params_render_of_no_unions (q := s'.restrict d q) rfl, hselect,
    List.nil_append, List.nil_append]

/-- Whatever searches a query is inside, the outermost level is that of a search. -/
theorem stack_eq_restrict (d : Dialect) (table : String) (q : Query) (later : List Search)
    (first : Search) :
    ∃ s below, Search.stack d table q (later ++ [first]) = Search.restrict s d below := by
  cases later with
  | nil => exact ⟨_, _, rfl⟩
  | cons s later => exact ⟨_, _, rfl⟩

/-- The first search binds in the middle, the later ones around it. -/
theorem params_stack (h : q.unions = []) (later : List Search) (first : Search) :
    (Search.stack d table q (later ++ [first])).render.params =
      later.flatMap (Search.originValues d) ++
        (q.select.flatMap itemValues ++ first.originValues d ++ q.restValues) ++
        (first :: later.reverse).map fun s => Value.float s.radius := by
  induction later with
  | nil => exact params_restrict first h
  | cons s later ih =>
      -- the latest search finds the outcome of another one, which selects no values
      obtain ⟨s', below, hbelow⟩ := stack_eq_restrict d table q later first
      rw [List.cons_append, Search.stack, hbelow, params_restrict_restrict, ← hbelow, ih]
      simp

end

/-! ## Searches of a compiler -/

namespace Compiler

variable {c c' : Compiler} {d : Dialect}

/-- Searches one after another succeed if and only if each is on an attribute, and then they make a
stack of the query. -/
theorem searches_run_ok_iff (hd : c.dialect = .ok d) (searches : List Search) :
    (searches.forM search).run c = .ok () c' ↔
      (∀ s ∈ searches, Attribute.isAttribute s.column.toList) ∧
        c' = { c with query := Search.stack d c.table.name c.query searches.reverse } := by
  induction searches generalizing c with
  | nil =>
      show EStateM.Result.ok () c = .ok () c' ↔ _
      constructor
      · intro h
        cases h
        exact ⟨by simp, rfl⟩
      · rintro ⟨-, rfl⟩
        rfl
  | cons s searches ih =>
      show (search s >>= fun _ => searches.forM search).run c = .ok () c' ↔ _
      rw [EStateM.run_bind, search_run]
      by_cases ha : Attribute.isAttribute s.column.toList
      · rw [checkSearch_ok hd ha]
        have hnext : (restrict s d c.fillSource).dialect = .ok d := hd
        -- the other searches run on the outcome of the first, the bottom of the stack
        have hstack : Search.stack d c.table.name c.query (s :: searches).reverse =
            Search.stack d c.table.name (s.restrict d (c.query.readingFrom c.table.name))
              searches.reverse := by
          rw [List.reverse_cons, stack_append]
          rfl
        rw [List.forall_mem_cons, hstack]
        exact (ih hnext).trans ⟨fun h => ⟨⟨ha, h.1⟩, h.2⟩, fun h => ⟨h.1.2, h.2⟩⟩
      · rw [checkSearch_invalid hd ha]
        simp [ha]

/-- Compiling changes nothing in the values of a query. -/
theorem params_projected (c : Compiler) (d : Dialect) (mode : ProjectionMode) {q : Query}
    (h : q.unions = []) : (c.projected d mode q).render.params = q.render.params := by
  rw [projected, (Projection.framed_project _ _ _ _).values,
    Query.params_render_of_no_unions ((Query.unions_readingFrom q _).trans h),
    Query.params_render_of_no_unions h, restValues_readingFrom, Query.select_readingFrom]

/-- **Searches on top of each other bind in a closed order.** Take a query without union members and
one or more searches that succeed, one after another. Whatever the mode in which the outcome is
compiled, its values are the origins of the later searches, the latest first, then what the query
selects, the origin of the first search, the rest of the query, and at last all radii, the first one
first. -/
theorem searches_bindingOrder (first : Search) (later : List Search) (hd : c.dialect = .ok d)
    (hunions : c.query.unions = []) (hrun : ((first :: later).forM search).run c = .ok () c')
    (mode : ProjectionMode) :
    let selected := c.query.select.flatMap itemValues
    c.query.render.params = selected ++ c.query.restValues ∧
      ∃ sql, c'.compileIn mode = .ok ⟨sql,
        later.reverse.flatMap (Search.originValues d) ++
          (selected ++ first.originValues d ++ c.query.restValues) ++
          (first :: later).map fun s => Value.float s.radius⟩ := by
  intro selected
  refine ⟨Query.params_render_of_no_unions hunions, ?_⟩
  obtain ⟨-, hc'⟩ := (searches_run_ok_iff hd _).mp hrun
  rw [List.reverse_cons] at hc'
  have hd' : c'.dialect = .ok d := by rw [hc']; exact hd
  have hquery : c'.query =
      Search.stack d c.table.name c.query (later.reverse ++ [first]) := by rw [hc']
  have hsearched : c'.query.unions = [] := by
    obtain ⟨s, below, hbelow⟩ := stack_eq_restrict d c.table.name c.query later.reverse first
    rw [hquery, hbelow]
    rfl
  have hvalues : (c'.projected d mode c'.query).render.params =
      later.reverse.flatMap (Search.originValues d) ++
        (selected ++ first.originValues d ++ c.query.restValues) ++
        (first :: later).map fun s => Value.float s.radius := by
    rw [params_projected c' d mode hsearched, hquery, params_stack hunions, List.reverse_reverse]
  exact ⟨_, hvalues ▸ statement_eq hd' mode c'.query⟩

/-- Fast ferries that are open and boats with a crew, with a value in the select list and values in
the derived table. -/
def ferries : Compiler where
  query :=
    { select := [.plain "f.name", .expression ⟨"f.speed * ?", [.int 2]⟩ (some "doubled")]
      source := some (.derived
        { source := some (.table "ferries" none)
          condition := some (.equals "open" (.bool true))
          unions := [⟨true,
            { source := some (.table "boats" none)
              condition := some (.equals "crew" (.int 4)) }⟩] } "f")
      condition := some (.greaterThan "f.speed" (.int 10)) }
  table := ⟨"ferries", [⟨"name", "text", false⟩, ⟨"geom", "point", false⟩]⟩
  driver := "pgsql"

/-- The ferries within a radius of a place. -/
def ferriesNear (latitude longitude radius : Int) : Search :=
  { origin := ⟨.ofInt latitude, .ofInt longitude⟩, column := "geom", radius := .ofInt radius }

/-- The ferries after three searches, one on top of the other. -/
def ferriesFound : Compiler :=
  { ferries with
    query := Search.stack .postgresql "ferries" ferries.query
      [ferriesNear 3 30 300, ferriesNear 2 20 200, ferriesNear 1 10 100] }

theorem ferries_bindingOrder :
    let later := [ferriesNear 2 20 200, ferriesNear 3 30 300]
    let selected := ferries.query.select.flatMap itemValues
    ferries.dialect = .ok .postgresql ∧ ferries.query.unions = [] ∧
      ((ferriesNear 1 10 100 :: later).forM search).run ferries = .ok () ferriesFound ∧
      ferries.query.render.params = selected ++ ferries.query.restValues ∧
      ∃ sql, ferriesFound.compileIn .normal = .ok ⟨sql,
        later.reverse.flatMap (Search.originValues .postgresql) ++
          (selected ++ (ferriesNear 1 10 100).originValues .postgresql ++
            ferries.query.restValues) ++
          (ferriesNear 1 10 100 :: later).map fun s => Value.float s.radius⟩ := by
  intro later selected
  have hd : ferries.dialect = .ok .postgresql := by decide +kernel
  have hrun : ((ferriesNear 1 10 100 :: later).forM search).run ferries = .ok () ferriesFound :=
    (searches_run_ok_iff hd _).mpr ⟨by decide, rfl⟩
  exact ⟨hd, rfl, hrun, searches_bindingOrder _ _ hd rfl hrun .normal⟩

example : (ferriesFound.compile.map Statement.params).toOption = some
    [.float (.ofInt 3), .float (.ofInt 30), .float (.ofInt 2), .float (.ofInt 20), .int 2,
      .float (.ofInt 1), .float (.ofInt 10), .bool true, .int 4, .int 10,
      .float (.ofInt 100), .float (.ofInt 200), .float (.ofInt 300)] := by
  decide +kernel

end Compiler

end PointQuery
