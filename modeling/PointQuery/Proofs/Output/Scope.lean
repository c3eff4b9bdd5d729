import PointQuery.Proofs.Compiler.Scalar
import PointQuery.Proofs.Compiler.Source
import PointQuery.Proofs.Output.Measured
/-!
# The distance in scope

A search computes the distance in a derived table and hands it on, with all else that this table
exposes. Whatever is then changed of the other clauses, and however many searches follow, a scalar
query reads a derived table with a column of that name, so an expression over distances is never
left without it: `scalarForm_distanceInScope`.
-/

namespace PointQuery

open Sql Projection

namespace Sql

/-- Whether a change leaves alone what a query selects. -/
def Edit.keepsSelect : Edit → Bool
  | .select _ => false
  | .addSelect _ => false
  | _ => true

namespace Query

/-- The source of a query is a derived table that exposes a column of this name. -/
def Sees (t : Table) (label name : String) (q : Query) : Prop :=
  ∃ inner, q.source = some (.derived inner label) ∧ some name ∈ inner.outputNames t

/-- A query computes the distance, or hands on a derived table that gives it. -/
inductive GivesDistance : Query → Prop where
  | computed {q : Query} (fragment : Fragment) :
      SelectItem.expression fragment (some distanceColumn) ∈ q.select → GivesDistance q
  | handedOn {q inner : Query} : q.HandsOn inner → GivesDistance inner → GivesDistance q

/-- What searches leave: a query that hands on all of the derived table `distance`, and with it the
distance. -/
def HandsOnDistance (q : Query) : Prop :=
  ∃ inner, q.source = some (.derived inner distanceAlias) ∧
    q.select = [.wildcardOf distanceAlias] ∧ inner.GivesDistance

end Query

end Sql

/-! ## What is exposed -/

section

variable {t : Table} {p : Projection} {q inner : Query} {label name : String}

/-- The output of a query is that of its select list, over the columns of what it reads. -/
theorem outputs_eq_selectOutputs (t : Table) (q : Query) :
    ∃ columns, q.outputs t = (Visible.ofLevel q t).selectOutputs t columns q.select := by
  cases hd : q.readsDerived with
  | true =>
      obtain ⟨inner, label, hs⟩ := Query.readsDerived_eq_true hd
      exact ⟨_, Query.outputs_of_derived hs⟩
  | false => exact ⟨_, Query.outputs_of_level hd⟩

/-- A computed column is exposed under its alias. -/
theorem mem_outputNames_of_expression {fragment : Fragment}
    (h : SelectItem.expression fragment (some name) ∈ q.select) : some name ∈ q.outputNames t := by
  obtain ⟨columns, hcolumns⟩ := outputs_eq_selectOutputs t q
  have hselect : q.select ≠ [] := List.ne_nil_of_mem h
  rw [Query.outputNames, hcolumns, Visible.selectOutputs, if_neg (by simpa using hselect),
    List.map_flatMap]
  exact List.mem_flatMap.mpr ⟨_, h, List.mem_singleton_self _⟩

/-- A computed column stays where the level is projected. -/
theorem mem_projectLevel_of_computed {style : ProjectionStyle} {item : Item} (h : item ∈ q.select)
    (hcomputed : isComputed item = true) : item ∈ (p.projectLevel style q).select := by
  refine List.mem_append_left _ (List.mem_flatMap.mpr ⟨item, ?_, ?_⟩)
  · rw [requested_of_ne_nil (List.ne_nil_of_mem h)]
    exact h
  · rw [projectItem_of_computed hcomputed]
    exact List.mem_singleton_self _

namespace Sql.Query

theorem GivesDistance.mem_outputNames (h : q.GivesDistance) (t : Table) :
    some distanceColumn ∈ q.outputNames t := by
  induction h with
  | computed fragment hmem => exact mem_outputNames_of_expression hmem
  | handedOn hands _ ih =>
      obtain ⟨label, hs, hselect⟩ := hands
      rw [outputNames, outputs_of_wildcardOf hs hselect]
      exact ih

/-- The projection takes the distance from no query. -/
theorem GivesDistance.project (h : q.GivesDistance) (p : Projection) (style : ProjectionStyle) :
    (q.mapInnermost (p.projectLevel style)).GivesDistance := by
  induction h with
  | handedOn hands _ ih => exact .handedOn (hands.mapInnermost _) ih
  | @computed q fragment hmem =>
      cases hd : q.readsDerived with
      | true =>
          obtain ⟨inner, label, hs⟩ := readsDerived_eq_true hd
          rw [mapInnermost_of_derived hs]
          exact .computed fragment hmem
      | false =>
          rw [mapInnermost_of_level hd]
          exact .computed fragment (mem_projectLevel_of_computed hmem rfl)

/-- Whoever reads a derived table that gives the distance sees it, before the points are projected
and after. -/
theorem sees_project (hs : q.source = some (.derived inner label)) (h : inner.GivesDistance)
    (p : Projection) (style : ProjectionStyle) (mode : ProjectionMode) :
    (p.project style mode q).Sees p.table label distanceColumn := by
  cases hconverts : p.dialect.convertsPoints with
  | false =>
      rw [project_of_plain hconverts]
      exact ⟨inner, hs, h.mem_outputNames _⟩
  | true =>
      have hd : q.readsDerived = true := by
        rw [readsDerived, derivedLabel?, hs]
        rfl
      rw [project_of_derived hconverts hd, mapInnermost_of_derived hs]
      exact ⟨_, rfl, (h.project p .replace).mem_outputNames _⟩

/-! ## What keeps the distance -/

theorem handsOnDistance_restrict (s : Search) (d : Dialect) (q : Query) :
    (s.restrict d q).HandsOnDistance :=
  ⟨s.measure d q, rfl, rfl,
    .computed (s.distance d) (List.mem_append_right _ (List.mem_singleton_self _))⟩

theorem select_edit {e : Edit} (h : e.keepsSelect = true) (q : Query) :
    (q.edit e).select = q.select := by
  cases e with
  | select | addSelect => cases h
  | _ => rfl

theorem HandsOnDistance.edit (h : q.HandsOnDistance) {e : Edit} (hsource : e.keepsSource = true)
    (hselect : e.keepsSelect = true) : (q.edit e).HandsOnDistance := by
  obtain ⟨inner, hs, hall, hgives⟩ := h
  exact ⟨inner, (source_edit hsource q).trans hs, (select_edit hselect q).trans hall, hgives⟩

end Sql.Query

end

/-! ## What aggregates name -/

namespace Aggregate

/-- An aggregate reads nothing but the distance. -/
def ReadsDistance (a : Aggregate) : Prop := a.column = distanceColumn

/-- The summary of distances is the count of rows, which names no column, and aggregates that read
the distance. -/
theorem distanceSummary_readsDistance :
    ∃ aggregates : List Aggregate, (∀ a ∈ aggregates, a.ReadsDistance) ∧
      ∀ d, distanceSummary d =
        ", ".intercalate (rowCount :: aggregates.map fun a => a.toDouble d) := by
  refine ⟨[.minimum, .average, .maximum].map ofDistance, fun a ha => ?_, fun d => ?_⟩
  · obtain ⟨f, -, rfl⟩ := List.mem_map.mp ha
    rfl
  · rw [distanceSummary, List.map_map, Function.comp_def]

end Aggregate

namespace Compiler

variable {c₀ c c' : Compiler}

/-! ## Searches and changes -/

/-- The second compiler is the first after any number of searches that succeeded, and of changes to
clauses other than the select list and the source. -/
inductive Refined (c : Compiler) : Compiler → Prop where
  | refl : Refined c c
  | edit {c' : Compiler} (e : Edit) : Refined c c' → e.keepsSource = true →
      e.keepsSelect = true → Refined c { c' with query := c'.query.edit e }
  | searched {c' c'' : Compiler} : Refined c c' → c'.Searched c'' → Refined c c''

theorem Refined.frame (h : c.Refined c') : c' = { c with query := c'.query } := by
  induction h with
  | refl => rfl
  | edit e _ _ _ ih => rw [ih]
  | searched _ hsearched ih =>
      have hframe := hsearched.frame
      rw [ih] at hframe
      exact hframe

theorem Refined.handsOnDistance (h : c.Refined c') (hc : c.query.HandsOnDistance) :
    c'.query.HandsOnDistance := by
  induction h with
  | refl => exact hc
  | edit e _ hsource hselect ih => exact ih.edit hsource hselect
  | searched _ hsearched ih =>
      exact hsearched.preserves (P := fun x => x.query.HandsOnDistance)
        (fun _ s d _ _ _ => Query.handsOnDistance_restrict s d _) ih

/-! ## The scalar query -/

/-- The name under which a scalar query reads what it aggregates: the rows of a search directly, or
the query as a whole. -/
def scopeAlias (q : Query) : String := if keepsRows q then distanceAlias else scalarAlias

/-- A scalar query over what searches leave reads one derived table, which gives the distance. -/
theorem scalarForm_source (h : c.query.HandsOnDistance) (expression : String) :
    ∃ inner, (c.scalarForm expression).source = some (.derived inner (scopeAlias c.query)) ∧
      inner.GivesDistance := by
  obtain ⟨inner, hs, hselect, hgives⟩ := h
  cases hkeeps : keepsRows c.query with
  | true =>
      refine ⟨inner, ?_, hgives⟩
      rw [scalarForm_of_keepsRows hkeeps, scopeAlias, hkeeps, hs]
      rfl
  | false =>
      have hfilled := Query.readingFrom_of_source hs c.table.name
      refine ⟨c.query, ?_, .handedOn ⟨distanceAlias, hs, hselect⟩ hgives⟩
      rw [scalarForm_of_not_keepsRows hkeeps, scopeAlias, hkeeps, hfilled]
      rfl

/-- The column that aggregates over distances name is one of those that a query sees, under the name
that the scalar query of this compiler reads them by. -/
def DistanceInScope (c : Compiler) (q : Query) : Prop :=
  q.Sees c.table (scopeAlias c.query) distanceColumn

/-- **Aggregates over distances are always in scope.** After a search that took effect, and however
many searches and changes to clauses other than the select list and the source, a scalar query
compiles in either mode, and the one source of the query that is rendered is a derived table that
exposes a column with the name of the distance: the table of the last search, or the query as a
whole where it merges rows or adds some. That holds of it as it stands and projected for either
dialect in any mode and style. So neither an aggregate over distances nor the summary of them names
a column that is missing. -/
theorem scalarForm_distanceInScope (heffect : c₀.TakesEffect c) (hrefined : c.Refined c')
    (expression : String) :
    c'.DistanceInScope (c'.scalarForm expression) ∧
    (∀ (d : Dialect) (style : ProjectionStyle) (mode : ProjectionMode),
      c'.DistanceInScope ((c'.projection d).project style mode (c'.scalarForm expression))) ∧
    (∃ d, c'.dialect = .ok d ∧ ∀ mode : ProjectionMode,
      let rendered := c'.projected d mode (c'.scalarForm expression)
      c'.DistanceInScope rendered ∧
      ({ c' with mode := mode } : Compiler).compileScalar expression =
        .ok ⟨d.writePlaceholders rendered.render.sql, rendered.render.params⟩) ∧
    (∀ f, (Aggregate.ofDistance f).ReadsDistance) ∧
    ∃ aggregates : List Aggregate, (∀ a ∈ aggregates, a.ReadsDistance) ∧
      ∀ d, Aggregate.distanceSummary d =
        ", ".intercalate (Aggregate.rowCount :: aggregates.map fun a => a.toDouble d) := by
  obtain ⟨s, d, hd, rfl⟩ := heffect.exists_restrict
  have hands : c'.query.HandsOnDistance :=
    hrefined.handsOnDistance (Query.handsOnDistance_restrict s d _)
  obtain ⟨inner, hsource, hgives⟩ := scalarForm_source hands expression
  have projected (d : Dialect) (style : ProjectionStyle) (mode : ProjectionMode) :
      c'.DistanceInScope ((c'.projection d).project style mode (c'.scalarForm expression)) :=
    Query.sees_project hsource hgives (c'.projection d) style mode
  have hdialect : c'.dialect = .ok d := by
    rw [hrefined.frame]
    exact hd
  refine ⟨⟨inner, hsource, hgives.mem_outputNames _⟩, projected, ⟨d, hdialect, fun mode => ?_⟩,
    fun _ => rfl, Aggregate.distanceSummary_readsDistance⟩
  have hfilled := Query.readingFrom_of_source hsource c'.table.name
  refine ⟨?_, statement_eq hdialect mode (c'.scalarForm expression)⟩
  rw [Compiler.projected, hfilled]
  exact projected d c'.config.projectionStyle mode

/-- The museums of a table. -/
def museums : Compiler where
  query := {}
  table := ⟨"museums", [⟨"name", "text", false⟩, ⟨"geom", "point", false⟩]⟩
  driver := "mysql"

def museumsNearby : Search := { origin := ⟨.ofInt 10, .ofInt 20⟩, column := "geom" }

/-- The museums around a place. -/
def museumsFound : Compiler := restrict museumsNearby .mysql museums.fillSource

/-- One museum of each name, searched again, each only once. -/
def museumsNamed : Compiler :=
  let grouped : Compiler :=
    { museumsFound with query := museumsFound.query.edit (.groupBy ["name"]) }
  let searched := restrict museumsNearby .mysql grouped.fillSource
  { searched with query := searched.query.edit .distinct }

theorem museums_dialect : museums.dialect = .ok .mysql := by decide +kernel

theorem museumsNearby_isAttribute : Attribute.isAttribute museumsNearby.column.toList := by decide

theorem museums_takesEffect : museums.TakesEffect museumsFound :=
  .search museumsNearby (by rw [search_run, checkSearch_ok museums_dialect
    museumsNearby_isAttribute, museumsFound])

theorem museumsFound_refined : museumsFound.Refined museumsNamed := by
  refine .edit .distinct (.searched (.edit (.groupBy ["name"]) .refl rfl rfl) ?_) rfl rfl
  exact Searched.refl.search_valid museums_dialect museumsNearby_isAttribute

theorem museums_distanceInScope :
    museums.TakesEffect museumsFound ∧ museumsFound.Refined museumsNamed ∧
      museumsNamed.DistanceInScope (museumsNamed.scalarForm "MIN(_distance)") ∧
      ∃ d, museumsNamed.dialect = .ok d ∧ ∀ mode : ProjectionMode,
        let rendered := museumsNamed.projected d mode (museumsNamed.scalarForm "MIN(_distance)")
        museumsNamed.DistanceInScope rendered ∧
        ({ museumsNamed with mode := mode } : Compiler).compileScalar "MIN(_distance)" =
          .ok ⟨d.writePlaceholders rendered.render.sql, rendered.render.params⟩ := by
  obtain ⟨hform, -, hcompiled, -⟩ :=
    scalarForm_distanceInScope museums_takesEffect museumsFound_refined "MIN(_distance)"
  exact ⟨museums_takesEffect, museumsFound_refined, hform, hcompiled⟩

example : scopeAlias museumsFound.query = "distance" ∧ scopeAlias museumsNamed.query = "c" := by
  decide

end Compiler

end PointQuery
