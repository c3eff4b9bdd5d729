import PointQuery.Proofs.Output.Names
import PointQuery.Proofs.Projection.Select
/-!
# To replace twice is to replace once

What a replacement writes, no further replacement touches: point columns have become expressions,
the other columns of the table are found again under their qualified names and have no points, and
the wildcards that are left cover other tables or a table without known columns. `Settled` says so
of an item, `settled_of_mem_projectItem` of all that an item becomes, and
`project_replace_idempotent` of the query.
-/

namespace PointQuery

open Sql

namespace Sql.Query

/-! ## Changing the innermost level twice -/

/-- Two changes one after the other come to the second of them where the innermost level is. -/
theorem mapInnermost_mapInnermost {f : Query → Query}
    (hf : ∀ q : Query, q.readsDerived = false → (f q).readsDerived = false) (q : Query)
    (h : f (f q.innermost) = f q.innermost) :
    (q.mapInnermost f).mapInnermost f = q.mapInnermost f := by
  induction q using chain_induction with
  | level q hlevel =>
      rw [innermost_of_level hlevel] at h
      rw [mapInnermost_of_level hlevel, mapInnermost_of_level (hf q hlevel), h]
  | derived q inner label hderived ih =>
      rw [innermost_of_derived hderived] at h
      rw [mapInnermost_of_derived hderived, mapInnermost_of_derived rfl, ih h]

end Sql.Query

namespace Projection

variable {p : Projection} {v : Visible} {item item' : Item} {name : String} {label : Option String}

/-! ## Settled items -/

/-- To replace leaves the item as it is. -/
def Settled (p : Projection) (v : Visible) (item : Item) : Prop :=
  p.projectItem v .replace item = [item]

theorem settled_of_computed (h : isComputed item = true) : p.Settled v item :=
  projectItem_of_computed h

theorem settled_column (hname : SelectItem.wildcardOfName? name = none)
    (hpoint : p.table.hasPoint name = false) : p.Settled v (.column name label) := by
  rw [Settled, projectItem_column hname, namedColumn_eq, hpoint]
  rfl

/-- What a name becomes is settled: it is text, or it is the column itself and has no points. -/
theorem settled_namedColumn (hname : SelectItem.wildcardOfName? name = none) :
    p.Settled v (p.namedColumn name label) := by
  rw [namedColumn_eq]
  split
  · exact settled_of_computed rfl
  · rename_i hpoint
    exact settled_column hname (eq_false_of_ne_true hpoint)

/-! ## What a wildcard stands for -/

/-- The columns listed for a wildcard over the table are found again: each name is that of one
column only, and the alias of the table in front of it does not hide it. -/
theorem settled_expandColumn (ht : p.table.Plain) {c : Column} (hc : c ∈ p.table.columns) :
    p.Settled v (p.expandColumn v c) := by
  have hnames : EndsIn c.name (v.primary ++ "." ++ c.name) := .inr ⟨v.primary, rfl⟩
  rw [expandColumn]
  cases hpoint : c.isPoint with
  | true => exact settled_of_computed rfl
  | false =>
      refine settled_column (ht.wildcardOfName?_eq_none hc hnames) ?_
      rw [Table.hasPoint, ht.lastSegment_eq hc hnames, ht.column?_eq hc, Option.any_some, hpoint]

theorem settled_of_mem_expand (ht : p.table.columns ≠ [] → p.table.Plain)
    (hjoin : v.primary ∉ v.joined) {w : Wildcard} (hw : item.wildcard? = some w)
    (howns : v.owns w = true) (h : item' ∈ p.expand v item w) : p.Settled v item' := by
  have hitem : p.projectItem v .replace item = p.expand v item w := by
    rw [projectItem.eq_def, hw]
    simp only [howns, if_true]
  by_cases hcolumns : p.table.columns = []
  · -- without known columns the wildcard stays
    have hexpand : p.expand v item w = [item] := by rw [expand, hcolumns]; rfl
    rw [hexpand] at h hitem
    rw [List.mem_singleton.mp h]
    exact hitem
  · have hknown : p.table.columns.isEmpty = false := by simpa using hcolumns
    rw [expand, hknown] at h
    rcases List.mem_append.mp h with hcolumn | hjoined
    · obtain ⟨c, hc, rfl⟩ := List.mem_map.mp hcolumn
      exact settled_expandColumn (ht hcolumns) hc
    · split at hjoined
      · obtain ⟨table, htable, rfl⟩ := List.mem_map.mp hjoined
        exact projectItem_wildcardOf_foreign fun he => hjoin (he ▸ htable)
      · cases hjoined

/-- All that an item becomes is settled. -/
theorem settled_of_mem_projectItem (ht : p.table.columns ≠ [] → p.table.Plain)
    (hjoin : v.primary ∉ v.joined) (h : item' ∈ p.projectItem v .replace item) :
    p.Settled v item' := by
  cases hw : item.wildcard? with
  | some w =>
      cases howns : v.owns w with
      | true =>
          rw [projectItem.eq_def, hw] at h
          simp only [howns, if_true] at h
          exact settled_of_mem_expand ht hjoin hw howns h
      | false =>
          have hitem : p.projectItem v .replace item = [item] := by
            rw [projectItem.eq_def, hw]
            simp [howns]
          rw [hitem] at h
          rw [List.mem_singleton.mp h]
          exact hitem
  | none =>
      cases item with
      | column name label =>
          rw [projectItem.eq_def, hw] at h
          rw [List.mem_singleton.mp h]
          exact settled_namedColumn hw
      | expression fragment label =>
          rw [projectItem_of_computed rfl] at h
          rw [List.mem_singleton.mp h]
          exact settled_of_computed rfl
      | subquery query label =>
          rw [projectItem_of_computed rfl] at h
          rw [List.mem_singleton.mp h]
          exact settled_of_computed rfl

/-! ## Levels and queries -/

/-- A list that is not empty and holds settled items only stays as it is. -/
theorem projectSelect_of_settled {select : List Item} (hne : select ≠ [])
    (h : ∀ item ∈ select, p.Settled v item) : p.projectSelect v .replace select = select := by
  calc p.projectSelect v .replace select
      = select.flatMap (p.projectItem v .replace) := by
        rw [projectSelect_replace, requested_of_ne_nil hne]
    _ = select.flatMap fun item => [item] := List.flatMap_congr h
    _ = select := List.flatMap_singleton' select

theorem projectLevel_projectLevel (ht : p.table.columns ≠ [] → p.table.Plain) {q : Query}
    (hjoin : q.sourceAlias p.table.name ∉ q.joinAliases) :
    p.projectLevel .replace (p.projectLevel .replace q) = p.projectLevel .replace q := by
  let v : Visible := .ofLevel q p.table
  have hsettled : ∀ item ∈ p.projectSelect v .replace q.select, p.Settled v item := by
    intro item hitem
    rw [projectSelect_replace] at hitem
    obtain ⟨asked, -, hmem⟩ := List.mem_flatMap.mp hitem
    exact settled_of_mem_projectItem ht hjoin hmem
  have hselect : p.projectSelect v .replace (p.projectSelect v .replace q.select) =
      p.projectSelect v .replace q.select :=
    projectSelect_of_settled (projectSelect_ne_nil _) hsettled
  -- a level is seen the same way whatever its select list is
  exact congrArg (fun select => { q with select }) hselect

/-- **To replace points by their text twice is to replace them once.** Take a table whose columns
have distinct names, not qualified and no stars, and a query whose innermost level joins no table
under the alias of the table. Projecting it in replace style, in whatever mode, gives a query that
the same projection leaves as it is: every select list, however deep it lies and whatever it asks
for, is already what it becomes. The table may be without known columns. -/
theorem project_replace_idempotent (p : Projection)
    (hdistinct : (p.table.columns.map Column.name).Nodup) (hnames : p.table.Undotted)
    (mode : ProjectionMode) (q : Query)
    (hjoin : q.innermost.sourceAlias p.table.name ∉ q.innermost.joinAliases) :
    p.project .replace mode (p.project .replace mode q) = p.project .replace mode q := by
  have ht : p.table.columns ≠ [] → p.table.Plain := fun hne =>
    ⟨hne, hdistinct, fun c hc => (hnames c hc).1, fun c hc => (hnames c hc).2⟩
  have hinner := projectLevel_projectLevel ht hjoin
  cases hconverts : p.dialect.convertsPoints with
  | false => rw [project_of_plain hconverts, project_of_plain hconverts]
  | true =>
      cases hderived : q.readsDerived with
      | true =>
          have hprojected : (q.mapInnermost (p.projectLevel .replace)).readsDerived = true := by
            obtain ⟨inner, label, hs⟩ := Query.readsDerived_eq_true hderived
            rw [Query.mapInnermost_of_derived hs]
            rfl
          rw [project_of_derived hconverts hderived, project_of_derived hconverts hprojected]
          exact Query.mapInnermost_mapInnermost (p.readsDerived_projectLevel .replace) q hinner
      | false =>
          cases mode with
          | suppressed =>
              rw [project_suppressed_level hderived, project_suppressed_level hderived]
          | normal =>
              have hprojected := p.readsDerived_projectLevel .replace q hderived
              rw [Query.innermost_of_level hderived] at hinner
              rw [project_of_level hconverts hderived, project_of_level hconverts hprojected,
                hinner]

/-- Orchards with the farms they belong to: the star of both, the place under an alias, and all
columns of the farms once more, two levels below the top. -/
def orchardsOfFarms : Query where
  select := [.plain "*"]
  source := some <| .derived
    { source := some <| .derived
        { select := [.plain "*", .column "o.geom" (some "place"), .wildcardOf "f"]
          source := some (.table "orchards o" none)
          joins := [⟨.left, "farms AS f", "f.id = o.farm"⟩] } "inner_rows" }
    "outer_rows"

theorem orchardsOfFarms_project_replace_idempotent :
    let p : Projection :=
      ⟨.mysql, ⟨"orchards", [⟨"id", "int", false⟩, ⟨"geom", "point", false⟩]⟩⟩
    let q := orchardsOfFarms
    (p.table.columns.map Column.name).Nodup ∧ p.table.Undotted ∧
      q.innermost.sourceAlias p.table.name ∉ q.innermost.joinAliases ∧
      p.project .replace .suppressed (p.project .replace .suppressed q) =
        p.project .replace .suppressed q := by
  intro p q
  have hdistinct : (p.table.columns.map Column.name).Nodup := by decide
  have hnames : p.table.Undotted := by decide
  have hjoin : q.innermost.sourceAlias p.table.name ∉ q.innermost.joinAliases := by
    decide +kernel
  exact ⟨hdistinct, hnames, hjoin,
    project_replace_idempotent p hdistinct hnames .suppressed q hjoin⟩

end Projection

end PointQuery
