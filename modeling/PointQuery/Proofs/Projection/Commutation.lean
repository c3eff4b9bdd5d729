import PointQuery.Proofs.Projection.Chain
import PointQuery.Proofs.Projection.Select
import PointQuery.Proofs.Search.Outcome
/-!
# Searching and projecting commute

A search puts the query into a derived table, so the projection that follows finds it one level
further down and always replaces. The same comes out if the query is first projected so and then
searched: `projectLevel_measure` says it of the level that reads the table, the only one where the
two could meet, since there both rewrite the select list.
-/

namespace PointQuery

open Sql

namespace Projection

variable {p : Projection} {v : Visible} {style : ProjectionStyle} {mode : ProjectionMode}
  {q : Query} {s : Search} {d : Dialect}

/-! ## An empty list and a star -/

/-- An empty select list asks for each table in turn, a star for all of them at once. To replace
gives the same for both, if the columns are known and the joined tables go by other names. -/
theorem projectSelect_star (hcolumns : p.table.columns ≠ []) (hjoin : v.primary ∉ v.joined) :
    p.projectSelect v .replace [.plain "*"] = p.projectSelect v .replace [] := by
  have hjoined : (v.joined.map SelectItem.wildcardOf).flatMap (p.projectItem v .replace) =
      v.joined.map SelectItem.wildcardOf := by
    rw [List.flatMap_map, ← List.flatMap_singleton' (v.joined.map _), List.flatMap_map]
    refine List.flatMap_congr fun table htable => ?_
    exact projectItem_wildcardOf_foreign fun he => hjoin (he ▸ htable)
  calc p.projectSelect v .replace [.plain "*"]
      = p.projectItem v .replace (.plain "*") := by
        rw [projectSelect_replace, requested_of_ne_nil (List.cons_ne_nil _ _),
          List.flatMap_singleton]
    _ = p.projectItem v .replace (.wildcardOf v.primary) ++
          (v.joined.map SelectItem.wildcardOf).flatMap (p.projectItem v .replace) := by
        rw [projectItem_star hcolumns, projectItem_wildcardOf_primary hcolumns, hjoined]
    _ = p.projectSelect v .replace [] := by
        rw [projectSelect_replace]
        rfl

/-! ## Measuring a level -/

theorem measure_of_ne_nil (h : q.select ≠ []) :
    s.measure d q =
      { q with select := q.select ++ [.expression (s.distance d) (some distanceColumn)] } := by
  have hempty : q.select.isEmpty = false := by simpa using h
  rw [Search.measure, hempty]
  rfl

theorem measure_of_nil (h : q.select = []) :
    s.measure d q =
      { q with select := [.plain "*"] ++ [.expression (s.distance d) (some distanceColumn)] } := by
  rw [Search.measure, h]
  rfl

/-- It does not matter whether the distance is added before a level is projected or after. -/
theorem projectLevel_measure (h : q.select ≠ [] ∨
      (p.table.columns ≠ [] ∧ q.sourceAlias p.table.name ∉ q.joinAliases)) :
    p.projectLevel .replace (s.measure d q) = s.measure d (p.projectLevel .replace q) := by
  have hprojected : (p.projectLevel .replace q).select ≠ [] := projectSelect_ne_nil _
  have hlist : p.projectSelect (.ofLevel q p.table) .replace (s.measure d q).select =
      p.projectSelect (.ofLevel q p.table) .replace q.select ++
        [.expression (s.distance d) (some distanceColumn)] := by
    by_cases hselect : q.select = []
    · obtain ⟨hcolumns, hjoin⟩ := h.resolve_left (fun hne => hne hselect)
      have hstar := projectSelect_star (p := p) (v := .ofLevel q p.table) hcolumns hjoin
      rw [measure_of_nil hselect, projectSelect_append_expression (List.cons_ne_nil _ _), hstar,
        hselect]
    · rw [measure_of_ne_nil hselect, projectSelect_append_expression hselect]
  rw [measure_of_ne_nil hprojected]
  exact congrArg (fun select => { q with select }) hlist

/-- A query that reads a derived table keeps its own select list, so the distance is added to the
same one. -/
theorem mapInnermost_measure (f : Query → Query) (h : q.readsDerived = true) :
    (s.measure d q).mapInnermost f = s.measure d (q.mapInnermost f) := by
  obtain ⟨inner, label, hs⟩ := Query.readsDerived_eq_true h
  rw [Query.mapInnermost_of_derived hs, Query.mapInnermost_of_derived (q := s.measure d q) hs]
  rfl

/-! ## The whole query -/

/-- Projecting a search projects the query that it measures. -/
theorem project_restrict (hd : p.dialect.convertsPoints = true) :
    p.project style mode (s.restrict d q) =
      { s.restrict d q with
        source := some (.derived ((s.measure d q).mapInnermost (p.projectLevel .replace))
          distanceAlias) } := by
  rw [project_of_derived (q := s.restrict d q) hd rfl]
  exact Query.mapInnermost_of_derived rfl

/-- The projection of a searched query is the search of the projected query. -/
theorem project_restrict_comm (hd : p.dialect.convertsPoints = true)
    (h : q.select ≠ [] ∨ q.readsDerived = true ∨
      (p.table.columns ≠ [] ∧ q.sourceAlias p.table.name ∉ q.joinAliases)) :
    p.project style mode (s.restrict d q) = s.restrict d (p.project .replace .normal q) := by
  rw [project_restrict hd]
  cases hderived : q.readsDerived with
  | true =>
      rw [mapInnermost_measure _ hderived, project_of_derived hd hderived]
      rfl
  | false =>
      have hlevel : (s.measure d q).readsDerived = false := hderived
      have hlist : q.select ≠ [] ∨
          (p.table.columns ≠ [] ∧ q.sourceAlias p.table.name ∉ q.joinAliases) := by
        rcases h with hselect | hreads | hempty
        · exact .inl hselect
        · rw [hderived] at hreads
          cases hreads
        · exact .inr hempty
      rw [Query.mapInnermost_of_level hlevel, projectLevel_measure hlist,
        project_of_level hd hderived]
      rfl

theorem project_source_isSome (h : q.source.isSome) :
    (p.project style mode q).source.isSome := by
  rw [project.eq_def]
  split
  · exact h
  · split
    · rename_i hderived
      obtain ⟨inner, label, hs⟩ := Query.readsDerived_eq_true hderived
      rw [Query.mapInnermost_of_derived hs]
      rfl
    · cases mode with
      | normal => exact h
      | suppressed => exact h

/-- A valid search of a query that has a source restricts that query. -/
theorem search_run_of_source {c : Compiler} (hd : c.dialect = .ok d)
    (ha : Attribute.isAttribute s.column.toList) (hsource : c.query.source.isSome) :
    (Compiler.search s).run c = .ok () { c with query := s.restrict d c.query } := by
  obtain ⟨source, hs⟩ := Option.isSome_iff_exists.mp hsource
  have hfill : c.query.readingFrom c.table.name = c.query := by rw [Query.readingFrom, hs]
  rw [Compiler.search_run, Compiler.checkSearch_ok hd ha]
  simp only [Compiler.restrict, Compiler.fillSource, hfill]

/-- **Searching and projecting commute** on MySQL, for a query that has a source: to project the
outcome of a search, in any style and mode, is to search the query with its points replaced. The
select list must not be empty, or the query read from a derived table, or the columns of the table
be known and no joined table go by its name; otherwise the star that the search puts into the empty
list covers other columns than the projection lists for it. -/
theorem search_project_comm (c : Compiler) (s : Search) (style : ProjectionStyle)
    (mode : ProjectionMode) (hd : c.dialect = .ok .mysql)
    (ha : Attribute.isAttribute s.column.toList) (hsource : c.query.source.isSome)
    (h : c.query.select ≠ [] ∨ c.query.readsDerived = true ∨
      (c.table.columns ≠ [] ∧ c.query.sourceAlias c.table.name ∉ c.query.joinAliases)) :
    let p := c.projection .mysql
    ∃ searched searched',
      (Compiler.search s).run c = .ok () searched ∧
      (Compiler.search s).run { c with query := p.project .replace .normal c.query } =
        .ok () searched' ∧
      p.project style mode searched.query = searched'.query := by
  intro p
  have hsource' : (p.project .replace .normal c.query).source.isSome :=
    project_source_isSome hsource
  refine ⟨_, _, search_run_of_source hd ha hsource, search_run_of_source hd ha hsource', ?_⟩
  exact project_restrict_comm (p := p) rfl h

/-- Cinemas with their towns, all columns of both. -/
def cinemasInTowns : Compiler where
  query :=
    { source := some (.table "cinemas m" none)
      joins := [⟨.left, "towns AS t", "t.id = m.town"⟩]
      limit := some 5
      distinct := true }
  table := ⟨"cinemas", [⟨"id", "int", false⟩, ⟨"geom", "point", false⟩]⟩
  driver := "mysql"

theorem cinemasInTowns_search_project_comm :
    let c := cinemasInTowns
    let s : Search := { origin := ⟨.ofInt 10, .ofInt 20⟩, column := "m.geom" }
    c.dialect = .ok .mysql ∧ Attribute.isAttribute s.column.toList ∧ c.query.source.isSome ∧
      (c.table.columns ≠ [] ∧ c.query.sourceAlias c.table.name ∉ c.query.joinAliases) ∧
      ∃ searched searched',
        (Compiler.search s).run c = .ok () searched ∧
        (Compiler.search s).run
            { c with query := (c.projection .mysql).project .replace .normal c.query } =
          .ok () searched' ∧
        (c.projection .mysql).project .additive .suppressed searched.query = searched'.query := by
  intro c s
  have hd : c.dialect = .ok .mysql := by decide +kernel
  have ha : Attribute.isAttribute s.column.toList := by decide
  have hnames : c.table.columns ≠ [] ∧
      c.query.sourceAlias c.table.name ∉ c.query.joinAliases := by decide +kernel
  exact ⟨hd, ha, rfl, hnames, search_project_comm c s .additive .suppressed hd ha rfl
    (.inr (.inr hnames))⟩

end Projection

end PointQuery
