import PointQuery.Proofs.Projection.Chain
import PointQuery.Proofs.Projection.Names
/-!
# Projecting a select list

What the projection makes of a query by what it reads, of a select list by its items, and of an item
by its kind. To replace turns a list that is not empty into one item by item, so what stands at its
end stays there.
-/

namespace PointQuery

open Sql

/-- Whether an item is computed: an expression or a subquery, which the projection does not look
into. -/
def isComputed : Item → Bool
  | .column .. => false
  | .expression .. => true
  | .subquery .. => true

namespace Projection

variable {p : Projection} {v : Visible} {style : ProjectionStyle} {mode : ProjectionMode}
  {q : Query}

/-! ## By what the query reads -/

theorem project_of_plain (hd : p.dialect.convertsPoints = false) :
    p.project style mode q = q := by
  rw [project.eq_def, hd]
  rfl

theorem project_of_derived (hd : p.dialect.convertsPoints = true) (h : q.readsDerived = true) :
    p.project style mode q = q.mapInnermost (p.projectLevel .replace) := by
  rw [project.eq_def, hd, h]
  rfl

theorem project_of_level (hd : p.dialect.convertsPoints = true) (h : q.readsDerived = false) :
    p.project style .normal q = p.projectLevel style q := by
  rw [project.eq_def, hd, h]
  rfl

theorem project_suppressed_level (h : q.readsDerived = false) :
    p.project style .suppressed q = q := by
  rw [project.eq_def, h]
  split
  · rfl
  · rfl

/-- To replace, or to project inside a derived table, leaves a query as it is or replaces what its
innermost level asks for. -/
theorem project_eq_self_or_mapInnermost (mode : ProjectionMode)
    (h : style = .replace ∨ q.readsDerived = true) :
    p.project style mode q = q ∨
      p.project style mode q = q.mapInnermost (p.projectLevel .replace) := by
  cases hconverts : p.dialect.convertsPoints with
  | false => exact .inl (project_of_plain hconverts)
  | true =>
      cases hderived : q.readsDerived with
      | true => exact .inr (project_of_derived hconverts hderived)
      | false =>
          obtain rfl : style = .replace := by simpa [hderived] using h
          cases mode with
          | suppressed => exact .inl (project_suppressed_level hderived)
          | normal =>
              rw [Query.mapInnermost_of_level hderived]
              exact .inr (project_of_level hconverts hderived)

/-- A level keeps its source when it is projected. -/
theorem readsDerived_projectLevel (p : Projection) (style : ProjectionStyle) (q : Query)
    (h : q.readsDerived = false) : (p.projectLevel style q).readsDerived = false := h

/-! ## By the items -/

theorem projectSelect_replace (p : Projection) (v : Visible) (select : List Item) :
    p.projectSelect v .replace select =
      (v.requested select).flatMap (p.projectItem v .replace) := by
  rw [projectSelect, if_neg (by simp), List.append_nil]

theorem requested_of_ne_nil {select : List Item} (h : select ≠ []) :
    v.requested select = select := by
  have hempty : select.isEmpty = false := by simpa using h
  rw [Visible.requested, hempty]
  rfl

theorem requested_ne_nil (select : List Item) : v.requested select ≠ [] := by
  rw [Visible.requested]
  split
  · exact List.cons_ne_nil _ _
  · rename_i h
    simpa using h

/-- All that an empty list asks for are columns. -/
theorem requested_nil_column {item : Item} (h : item ∈ v.requested []) :
    isComputed item = false := by
  obtain ⟨table, -, rfl⟩ := List.mem_map.mp h
  rfl

theorem projectItem_of_computed {item : Item} (h : isComputed item = true) :
    p.projectItem v style item = [item] := by
  cases item with
  | column => cases h
  | expression => rfl
  | subquery => rfl

/-- A name is converted if the table has a point column of it, and stays as it is otherwise. -/
theorem namedColumn_eq (p : Projection) (name : String) (label : Option String) :
    p.namedColumn name label =
      if p.table.hasPoint name then p.cast name (label.getD (lastSegment name))
      else .column name label := by
  rw [namedColumn, Table.hasPoint]
  cases p.table.column? (lastSegment name) with
  | none => rfl
  | some c => rfl

/-- A column that is no wildcard becomes one item. -/
theorem projectItem_column {name : String} (hname : SelectItem.wildcardOfName? name = none)
    (label : Option String) :
    p.projectItem v style (.column name label) = [p.namedColumn name label] := by
  have hwild : (SelectItem.column name label : Item).wildcard? = none := hname
  rw [projectItem.eq_def, hwild]

theorem expand_ne_nil (item : Item) (w : Wildcard) : p.expand v item w ≠ [] := by
  rw [expand]
  split
  · exact List.cons_ne_nil _ _
  · rename_i hcolumns
    have hne : p.table.columns ≠ [] := by simpa using hcolumns
    exact List.append_ne_nil_of_left_ne_nil (by simpa using hne) _

theorem projectItem_ne_nil (item : Item) : p.projectItem v style item ≠ [] := by
  rw [projectItem.eq_def]
  split
  · split
    · cases style with
      | additive => exact List.cons_ne_nil _ _
      | replace => exact expand_ne_nil _ _
    · exact List.cons_ne_nil _ _
  · split
    · exact List.cons_ne_nil _ _
    · exact List.cons_ne_nil _ _

theorem projectSelect_ne_nil (select : List Item) : p.projectSelect v style select ≠ [] := by
  obtain ⟨item, hitem⟩ := List.exists_mem_of_ne_nil _ (requested_ne_nil (v := v) select)
  rw [projectSelect]
  refine List.append_ne_nil_of_left_ne_nil (fun hnil => ?_) _
  exact projectItem_ne_nil item (List.flatMap_eq_nil_iff.mp hnil item hitem)

/-- An expression at the end of a list that asks for something else too stays there. -/
theorem projectSelect_append_expression {select : List Item} (h : select ≠ [])
    (fragment : Fragment) (label : Option String) :
    p.projectSelect v .replace (select ++ [.expression fragment label]) =
      p.projectSelect v .replace select ++ [.expression fragment label] := by
  have hadded : select ++ [.expression fragment label] ≠ [] :=
    List.append_ne_nil_of_left_ne_nil h _
  rw [projectSelect_replace, projectSelect_replace, requested_of_ne_nil h,
    requested_of_ne_nil hadded, List.flatMap_append, List.flatMap_singleton,
    projectItem_of_computed rfl]

/-! ## Wildcards -/

theorem projectItem_wildcardOf_primary (h : p.table.columns ≠ []) :
    p.projectItem v .replace (.wildcardOf v.primary) =
      p.table.columns.map (p.expandColumn v) := by
  have hwild : (SelectItem.wildcardOf v.primary : Item).wildcard? = some (.table v.primary) :=
    wildcardOfName?_table _
  rw [projectItem.eq_def, hwild]
  simp [Visible.owns, expand, h]

theorem projectItem_wildcardOf_foreign {table : String} (h : table ≠ v.primary) :
    p.projectItem v style (.wildcardOf table) = [.wildcardOf table] := by
  have hwild : (SelectItem.wildcardOf table : Item).wildcard? = some (.table table) :=
    wildcardOfName?_table _
  rw [projectItem.eq_def, hwild]
  simp [Visible.owns, h]

theorem projectItem_star (h : p.table.columns ≠ []) :
    p.projectItem v .replace (.plain "*") =
      p.table.columns.map (p.expandColumn v) ++ v.joined.map SelectItem.wildcardOf := by
  show p.expand v (.plain "*") .all = _
  simp [expand, h]

end Projection

end PointQuery
