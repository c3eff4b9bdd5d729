import PointQuery.Proofs.Compiler.Statement
import PointQuery.Proofs.Output.Columns
import PointQuery.Proofs.Search.Stack
/-!
# The names that stacked searches expose

A search selects all that the query inside it exposes, and computes one more column of the name
`_distance`. A second search on top of it therefore exposes this name twice, a third one three
times. `searched_distinctNames_iff` says what each derived table of a compiled search exposes, and
that the names are distinct everywhere if and only if at most one search took effect.
-/

namespace PointQuery

open Sql

variable {d : Dialect} {table : String} {t : Table} {q : Query}

/-! ## One search -/

theorem selectOutputs_measure (s : Search) (v : Visible) (columns : List OutputColumn) :
    v.selectOutputs t columns (s.measure d q).select =
      v.selectOutputs t columns q.select ++
        [⟨some distanceColumn, t.isPointText (s.distance d).sql⟩] := by
  rw [Search.measure, Visible.selectOutputs, Visible.selectOutputs]
  cases q.select with
  | nil => simp [Visible.itemOutputs]
  | cons item items => simp [Visible.itemOutputs]

/-- To measure a query adds the distance to its output. -/
theorem outputs_measure (s : Search) (q : Query) :
    (s.measure d q).outputs t =
      q.outputs t ++ [⟨some distanceColumn, t.isPointText (s.distance d).sql⟩] := by
  cases hd : q.readsDerived with
  | true =>
      obtain ⟨inner, label, hs⟩ := Query.readsDerived_eq_true hd
      rw [Query.outputs_of_derived hs, Query.outputs_of_derived (q := s.measure d q) hs]
      exact selectOutputs_measure s (.ofLevel q t) _
  | false =>
      rw [Query.outputs_of_level hd, Query.outputs_of_level (q := s.measure d q) hd]
      exact selectOutputs_measure s (.ofLevel q t) _

/-- A query that selects all of the derived table that it reads, and nothing else, exposes what that
exposes. -/
theorem outputs_of_wildcardOf {inner : Query} {label : String}
    (hs : q.source = some (.derived inner label)) (hselect : q.select = [.wildcardOf label]) :
    q.outputs t = inner.outputs t := by
  have hprimary : (Visible.ofLevel q t).primary = label := by
    simp only [Visible.ofLevel, Query.sourceAlias, hs]
  have hown : (Visible.ofLevel q t).itemOutputs t (inner.outputs t) (.wildcardOf label) =
      inner.outputs t := by
    rw [SelectItem.wildcardOf, SelectItem.plain, Visible.itemOutputs, wildcardOfName?_table]
    simp only [hprimary, if_true]
  rw [Query.outputs_of_derived hs, hselect]
  exact (List.flatMap_singleton _ _).trans hown

/-- A search hands on what its derived table exposes. -/
theorem outputs_restrict (s : Search) (q : Query) :
    (s.restrict d q).outputs t = (s.measure d q).outputs t :=
  outputs_of_wildcardOf rfl rfl

/-- An empty select list exposes the columns of the table, and some more for each joined table. -/
theorem outputs_of_nil (h : q.readsDerived = false) (hselect : q.select = []) :
    q.outputs t = t.outputs ++ q.joinAliases.map fun _ => ⟨none, false⟩ := by
  rw [Query.outputs_of_level h, hselect]
  exact List.flatMap_singleton _ _

/-! ## A stack of searches -/

/-- Each search of a stack adds one distance to the names that are exposed. -/
theorem names_measure_stack (s : Search) (searches : List Search) :
    (s.measure d ((Search.stack d table q searches).readingFrom table)).outputNames t =
      (q.readingFrom table).outputNames t ++
        List.replicate (searches.length + 1) (some distanceColumn) := by
  rw [Query.outputNames, outputs_measure, List.map_append]
  show Query.outputNames t _ ++ [some distanceColumn] = _
  rw [List.replicate_succ', ← List.append_assoc]
  congr 1
  induction searches with
  | nil => rw [List.length_nil, List.replicate_zero, List.append_nil, Search.stack]
  | cons s' earlier ih =>
      show ((s'.restrict d _).outputs t).map OutputColumn.name = _
      rw [outputs_restrict, outputs_measure, List.map_append, List.length_cons,
        List.replicate_succ', ← List.append_assoc, ← ih]
      rfl

theorem map_reverse_range_succ {A : Type} (f : Nat → A) (n : Nat) :
    (List.range (n + 1)).reverse.map f = f n :: (List.range n).reverse.map f := by
  rw [List.range_succ, List.reverse_append, List.reverse_singleton, List.singleton_append,
    List.map_cons]

/-- The derived tables of a stack expose one distance for each search inside them. -/
theorem names_derivedTables_stack (h : q.readsDerived = false) (searches : List Search) :
    (Search.stack d table q searches).derivedTables.map (Query.outputNames t) =
      (List.range searches.length).reverse.map fun below =>
        (q.readingFrom table).outputNames t ++
          List.replicate (below + 1) (some distanceColumn) := by
  induction searches with
  | nil => rw [Search.stack, Query.derivedTables_of_level h]; rfl
  | cons s earlier ih =>
      rw [derivedTables_stack_cons, List.map_cons, ih, List.length_cons, map_reverse_range_succ,
        names_measure_stack]

/-! ## The projected stack -/

theorem derivedTables_project_of_level {p : Projection} (style : ProjectionStyle)
    (mode : ProjectionMode) (h : q.readsDerived = false) :
    (p.project style mode q).derivedTables = [] := by
  refine Query.derivedTables_of_level ?_
  cases mode with
  | suppressed => rw [Projection.project_suppressed_level h]; exact h
  | normal =>
      cases hconverts : p.dialect.convertsPoints with
      | false => rw [Projection.project_of_plain hconverts]; exact h
      | true => rw [Projection.project_of_level hconverts h]; exact h

/-- Projecting a query that reads a derived table keeps the names that its derived tables expose, if
its innermost level asks for nothing by name and joins no table under the alias of the table. -/
theorem names_derivedTables_project {p : Projection} (hstars : p.table.NoStars)
    (style : ProjectionStyle) (mode : ProjectionMode) (hd : q.readsDerived = true)
    (hselect : q.innermost.select ≠ [])
    (hjoin : q.innermost.sourceAlias p.table.name ∉ q.innermost.joinAliases)
    (hitems : ∀ item ∈ q.innermost.select, item.wildcard?.isSome ∨ isComputed item = true) :
    (p.project style mode q).derivedTables.map (Query.outputNames p.table) =
      q.derivedTables.map (Query.outputNames p.table) := by
  cases hconverts : p.dialect.convertsPoints with
  | false => rw [Projection.project_of_plain hconverts]
  | true =>
      have hinnermost : (p.projectLevel .replace q.innermost).outputNames p.table =
          q.innermost.outputNames p.table := by
        have hlevel := Query.innermost_readsDerived q
        rw [Query.outputNames, Query.outputNames, Query.outputs_of_level hlevel,
          Query.outputs_of_level (q := p.projectLevel .replace q.innermost) hlevel]
        refine Projection.names_projectSelect (v := .ofLevel q.innermost p.table) hjoin ?_
        rw [Projection.requested_of_ne_nil hselect]
        exact fun item hmem => Projection.names_projectItem hstars hjoin (hitems item hmem)
      rw [Projection.project_of_derived hconverts hd]
      exact Query.names_derivedTables_mapInnermost (f := p.projectLevel .replace) q (fun _ h => h)
        hinnermost

/-- The names of an empty select list without joins are those of the table, whether the query names
its source or not. -/
theorem names_readingFrom (h : q.readsDerived = false) (hselect : q.select = [])
    (hjoins : q.joins = []) :
    (q.readingFrom table).outputNames t = t.columns.map fun c => some c.name := by
  have hlevel : (q.readingFrom table).readsDerived = false :=
    (Query.readsDerived_readingFrom q table).trans h
  have hempty : (q.readingFrom table).select = [] := by rw [Query.select_readingFrom, hselect]
  rw [Query.outputNames, outputs_of_nil hlevel hempty, Query.joinAliases, Query.joins_readingFrom,
    hjoins, List.map_nil, List.map_nil, List.append_nil, Table.names_outputs]

/-- The derived tables of a projected stack expose the columns of the table and one distance for
each search inside them. -/
theorem names_derivedTables_projected {c : Compiler} {searches : List Search}
    (hstars : c.table.NoStars) (hd : q.readsDerived = false) (hselect : q.select = [])
    (hjoins : q.joins = []) (hquery : c.query = Search.stack d c.table.name q searches)
    (mode : ProjectionMode) :
    (c.projected d mode c.query).derivedTables.map (Query.outputNames c.table) =
      (List.range searches.length).reverse.map fun below =>
        (c.table.columns.map fun column => some column.name) ++
          List.replicate (below + 1) (some distanceColumn) := by
  rw [Compiler.projected, hquery]
  cases searches with
  | nil =>
      have hlevel := (Query.readsDerived_readingFrom q c.table.name).trans hd
      rw [Search.stack, derivedTables_project_of_level _ _ hlevel]
      rfl
  | cons s earlier =>
      let stacked := Search.stack d c.table.name q (s :: earlier)
      obtain ⟨distance, hlist⟩ : ∃ distance, stacked.innermost.select =
          [.plain "*", .expression distance (some distanceColumn)] :=
        select_innermost_stack hd hselect (List.cons_ne_nil _ _)
      have halone : stacked.innermost.joinAliases = [] := by
        rw [Query.joinAliases, joins_innermost_stack hd (List.cons_ne_nil _ _), hjoins]
        rfl
      have hitems : ∀ item ∈ stacked.innermost.select,
          item.wildcard?.isSome ∨ isComputed item = true := by
        rw [hlist]
        intro item hitem
        rcases List.mem_cons.mp hitem with rfl | hitem
        · exact .inl rfl
        · obtain rfl := List.mem_singleton.mp hitem
          exact .inr rfl
      have hproject := names_derivedTables_project (p := c.projection d) (q := stacked) hstars
        c.config.projectionStyle mode rfl (by rw [hlist]; exact List.cons_ne_nil _ _)
        (by rw [halone]; exact List.not_mem_nil) hitems
      -- a search has a source, so none is filled in
      refine hproject.trans ?_
      rw [names_derivedTables_stack hd, names_readingFrom hd hselect hjoins]
      rfl

/-! ## Distinct names -/

theorem nodup_append_replicate_iff {A : Type} {xs : List A} {a : A} (hxs : xs.Nodup) (ha : a ∉ xs)
    (n : Nat) : (xs ++ List.replicate n a).Nodup ↔ n ≤ 1 := by
  rw [List.nodup_append, List.nodup_replicate]
  constructor
  · exact fun h => h.2.1
  · refine fun h => ⟨hxs, h, ?_⟩
    intro x hx y hy he
    rw [List.eq_of_mem_replicate hy] at he
    exact ha (he ▸ hx)

/-- Next to the columns of a table there is room for one distance. -/
theorem nodup_columns_distances_iff {t : Table} (hnames : (t.columns.map Column.name).Nodup)
    (hdistance : distanceColumn ∉ t.columns.map Column.name) (n : Nat) :
    ((t.columns.map fun column => some column.name) ++
      List.replicate n (some distanceColumn)).Nodup ↔ n ≤ 1 := by
  have hsome : (t.columns.map fun column => some column.name) =
      (t.columns.map Column.name).map some := by
    rw [List.map_map]
    rfl
  rw [hsome]
  refine nodup_append_replicate_iff (hnames.map fun _ _ => Option.some.inj) ?_ n
  intro hmem
  obtain ⟨name, hname, he⟩ := List.mem_map.mp hmem
  exact hdistance (Option.some.inj he ▸ hname)

/-- **Stacked searches expose the distance more than once.** Take a table with distinct column names,
none of them that of the distance or like a wildcard, and a query that reads it with an empty select
list and no joins. Any number of searches, of which some took effect, compile to a query whose
derived tables each expose the columns of the table and a distance for each search inside: so the
names are distinct at every depth if and only if at most one search took effect. -/
theorem searched_distinctNames_iff {c c' : Compiler} (hd : c.dialect = .ok d)
    (hs : c.Searched c') (hstars : c.table.NoStars)
    (hnames : (c.table.columns.map Column.name).Nodup)
    (hdistance : distanceColumn ∉ c.table.columns.map Column.name)
    (hreads : c.query.readsDerived = false) (hselect : c.query.select = [])
    (hjoins : c.query.joins = []) (mode : ProjectionMode) :
    let compiled := c'.projected d mode c'.query
    ∃ searches, c'.query = Search.stack d c.table.name c.query searches ∧
      c'.compileIn mode =
        .ok ⟨d.writePlaceholders compiled.render.sql, compiled.render.params⟩ ∧
      compiled.derivedTables.map (Query.outputNames c.table) =
        ((List.range searches.length).reverse.map fun below =>
          (c.table.columns.map fun column => some column.name) ++
            List.replicate (below + 1) (some distanceColumn)) ∧
      ((∀ derived ∈ compiled.derivedTables, (derived.outputNames c.table).Nodup) ↔
        searches.length ≤ 1) := by
  intro compiled
  obtain ⟨searches, hquery⟩ := hs.exists_stack hd
  have hframe := hs.frame
  have hd' : c'.dialect = .ok d := by rw [hframe]; exact hd
  have htable : c'.table = c.table := by rw [hframe]
  have hexposed : compiled.derivedTables.map (Query.outputNames c.table) =
      (List.range searches.length).reverse.map fun below =>
        (c.table.columns.map fun column => some column.name) ++
          List.replicate (below + 1) (some distanceColumn) := by
    rw [← htable] at hstars hquery ⊢
    exact names_derivedTables_projected hstars hreads hselect hjoins hquery mode
  refine ⟨searches, hquery, Compiler.statement_eq hd' mode c'.query, hexposed, ?_⟩
  have hmapped : (∀ derived ∈ compiled.derivedTables, (derived.outputNames c.table).Nodup) ↔
      ∀ names ∈ compiled.derivedTables.map (Query.outputNames c.table), names.Nodup :=
    List.forall_mem_map.symm
  rw [hmapped, hexposed, List.forall_mem_map]
  constructor
  · intro hdistinct
    by_contra hmany
    -- the outermost derived table has a distance for every search
    have houtermost := hdistinct (searches.length - 1) (by
      rw [List.mem_reverse, List.mem_range]
      omega)
    rw [nodup_columns_distances_iff hnames hdistance] at houtermost
    omega
  · intro hfew below hbelow
    rw [List.mem_reverse, List.mem_range] at hbelow
    rw [nodup_columns_distances_iff hnames hdistance]
    omega

/-- A table of stations, of which everything is asked for. -/
def stations : Compiler where
  query := {}
  table := ⟨"stations", [⟨"id", "int", false⟩, ⟨"geom", "point", false⟩]⟩
  driver := "mysql"

/-- The stations within a hundred kilometres of a place. -/
def stationsNear (latitude longitude : Int) : Search :=
  { origin := ⟨.ofInt latitude, .ofInt longitude⟩, column := "geom" }

theorem stations_dialect : stations.dialect = .ok .mysql := by decide +kernel

/-- A search of the stations around one place, and among them of those around another. -/
theorem stations_searchedTwice : stations.Searched
    (Compiler.restrict (stationsNear 11 21) .mysql
      (Compiler.restrict (stationsNear 10 20) .mysql stations.fillSource).fillSource) := by
  have hcolumn : Attribute.isAttribute "geom".toList := by decide
  exact (Compiler.Searched.refl.search_valid stations_dialect hcolumn).search_valid
    stations_dialect hcolumn

theorem stations_searched_distinctNames :
    stations.dialect = .ok .mysql ∧ stations.table.NoStars ∧
      (stations.table.columns.map Column.name).Nodup ∧
      distanceColumn ∉ stations.table.columns.map Column.name ∧
      ∃ c', stations.Searched c' ∧
        let compiled := c'.projected .mysql .normal c'.query
        ∃ searches, c'.query = Search.stack .mysql "stations" {} searches ∧
          c'.compileIn .normal =
            .ok ⟨Dialect.mysql.writePlaceholders compiled.render.sql, compiled.render.params⟩ ∧
          compiled.derivedTables.map (Query.outputNames stations.table) =
            ((List.range searches.length).reverse.map fun below =>
              [some "id", some "geom"] ++
                List.replicate (below + 1) (some distanceColumn)) ∧
          ((∀ derived ∈ compiled.derivedTables, (derived.outputNames stations.table).Nodup) ↔
            searches.length ≤ 1) := by
  have hstars : stations.table.NoStars := by decide
  have hnames : (stations.table.columns.map Column.name).Nodup := by decide
  have hdistance : distanceColumn ∉ stations.table.columns.map Column.name := by decide
  exact ⟨stations_dialect, hstars, hnames, hdistance, _, stations_searchedTwice,
    searched_distinctNames_iff stations_dialect stations_searchedTwice hstars hnames hdistance
      rfl rfl rfl .normal⟩

/-- After two searches the inner derived table has distinct names, and the outer one the distance
twice. -/
theorem stations_searchedTwice_repeatDistance :
    (stations.table.columns.map Column.name).Nodup ∧
      distanceColumn ∉ stations.table.columns.map Column.name ∧
      stations.query.select = [] ∧ stations.query.joins = [] ∧ stations.query.unions = [] ∧
      ∃ c' st, stations.Searched c' ∧ c'.compileIn .normal = .ok st ∧
        let compiled := c'.projected .mysql .normal c'.query
        compiled.derivedTables.map (Query.outputNames stations.table) =
          [[some "id", some "geom", some "_distance", some "_distance"],
            [some "id", some "geom", some "_distance"]] ∧
        ¬ ∀ derived ∈ compiled.derivedTables, (derived.outputNames stations.table).Nodup := by
  refine ⟨by decide, by decide, rfl, rfl, rfl, _, _, stations_searchedTwice,
    Compiler.statement_eq stations_dialect .normal _, ?_⟩
  decide +kernel

end PointQuery
