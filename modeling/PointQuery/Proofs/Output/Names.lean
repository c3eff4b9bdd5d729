import PointQuery.Proofs.Output.Columns
/-!
# To replace keeps the names of the output

`Visible.itemNames` reads the names that an item gives to its columns off the item: the alias, the
last part of the name of a column, the columns of the table behind a wildcard. As long as these have
no points in their names, that is what the output of a level calls them (`levelNames_eq`), and to
replace point columns by their text changes none of the names and none of their places
(`project_levelNames`), neither at the innermost level nor in any derived table around it.
-/

namespace PointQuery

open Sql

/-! ## Names read off the items -/

namespace Visible

/-- The names of the columns that an item stands for, at a level that reads the table. Nothing is
known of a wildcard over another table but that it is there. -/
def itemNames (v : Visible) (t : Table) : Item → List (Option String)
  | .column _ (some label) => [some label]
  | .column name none =>
    match SelectItem.wildcardOfName? name with
    | some .all => (t.columns.map fun c => some c.name) ++ v.joined.map fun _ => none
    | some (.table table) =>
      if table = v.primary then t.columns.map fun c => some c.name else [none]
    | none => [some (lastSegment name)]
  | .expression _ label => [label]
  | .subquery _ label => [some label]

/-- The names of a select list; an empty one stands for the columns of the table and, for each
joined table, those of that. -/
def selectNames (v : Visible) (t : Table) (select : List Item) : List (Option String) :=
  if select.isEmpty then (t.columns.map fun c => some c.name) ++ v.joined.map fun _ => none
  else select.flatMap (v.itemNames t)

end Visible

/-- The names of the select list of a level that reads the table. -/
def levelNames (t : Table) (q : Query) : List (Option String) :=
  (Visible.ofLevel q t).selectNames t q.select

/-- No column of the table has a point in its name, and none is a star. -/
def Table.Undotted (t : Table) : Prop := ∀ c ∈ t.columns, '.' ∉ c.name.toList ∧ c.name ≠ "*"

instance (t : Table) : Decidable t.Undotted :=
  inferInstanceAs (Decidable (∀ c ∈ t.columns, '.' ∉ c.name.toList ∧ c.name ≠ "*"))

/-- Whether an item is a wildcard under an alias, which no database accepts. -/
def isLabelledWildcard : Item → Bool
  | .column name (some _) => (SelectItem.wildcardOfName? name).isSome
  | _ => false

/-! ## The names of the output are those of the items -/

section

variable {t : Table} {v : Visible} {item : Item} {name : String} {label : Option String}

theorem Table.Undotted.noStars (ht : t.Undotted) : t.NoStars := by
  intro c hc
  obtain ⟨hdot, hstar⟩ := ht c hc
  rw [wildcardOfName?_eq_none_iff, lastSegment_of_undotted hdot]
  exact hstar

/-- The last part of a name is known either way: if the name is that of a column of the table after
its alias, the last part is the column. -/
theorem columnName_of_undotted (ht : t.Undotted) (name : String) :
    v.columnName t.outputs name = lastSegment name := by
  rw [Visible.columnName]
  cases hf : (t.outputs.filterMap OutputColumn.name).find?
      fun c => v.primary ++ "." ++ c == name with
  | none => rfl
  | some found =>
      have hqualified : v.primary ++ "." ++ found = name := by simpa using List.find?_some hf
      have hmem : found ∈ t.outputs.filterMap OutputColumn.name := List.mem_of_find?_eq_some hf
      have hcolumn : ∃ c ∈ t.columns, c.name = found := by simpa [Table.outputs] using hmem
      obtain ⟨c, hc, rfl⟩ := hcolumn
      rw [Option.getD_some, ← hqualified, lastSegment_qualified _ (ht c hc).1]

theorem names_itemOutputs_column (ht : t.Undotted)
    (hname : SelectItem.wildcardOfName? name = none) :
    (v.itemOutputs t t.outputs (.column name label)).map OutputColumn.name =
      [some (label.getD (lastSegment name))] := by
  rw [Visible.itemOutputs, hname]
  simp only [List.map_cons, List.map_nil, columnName_of_undotted ht]

theorem itemNames_eq (ht : t.Undotted) (hitem : isLabelledWildcard item = false) :
    v.itemNames t item = (v.itemOutputs t t.outputs item).map OutputColumn.name := by
  cases item with
  | expression => rfl
  | subquery => rfl
  | column name label =>
      cases hname : SelectItem.wildcardOfName? name with
      | none =>
          rw [names_itemOutputs_column ht hname]
          cases label with
          | none => rw [Visible.itemNames, hname, Option.getD_none]
          | some label => rfl
      | some w =>
          cases label with
          | some label => simp [isLabelledWildcard, hname] at hitem
          | none =>
              rw [Visible.itemNames, Visible.itemOutputs, hname]
              cases w with
              | all => simp [Table.names_outputs]
              | table table =>
                  by_cases htable : table = v.primary
                  · simp [htable, Table.names_outputs]
                  · simp [htable]

theorem selectNames_eq {select : List Item} (ht : t.Undotted)
    (hitems : ∀ item ∈ select, isLabelledWildcard item = false) :
    v.selectNames t select = (v.selectOutputs t t.outputs select).map OutputColumn.name := by
  rw [Visible.selectNames, Visible.selectOutputs]
  cases hselect : select.isEmpty with
  | true =>
      have hstar : v.itemNames t (.plain "*") = _ := itemNames_eq ht rfl
      simp only [if_true, List.flatMap_singleton]
      rw [← hstar]
      rfl
  | false =>
      simp only [Bool.false_eq_true, if_false]
      rw [List.map_flatMap]
      exact List.flatMap_congr fun item hmem => itemNames_eq ht (hitems item hmem)

/-- What the output of a level calls its columns can be read off its items. -/
theorem levelNames_eq {q : Query} (ht : t.Undotted) (hlevel : q.readsDerived = false)
    (hitems : ∀ item ∈ q.select, isLabelledWildcard item = false) :
    levelNames t q = q.outputNames t := by
  rw [levelNames, selectNames_eq ht hitems, Query.outputNames, Query.outputs_of_level hlevel]

end

/-! ## To replace keeps names -/

namespace Projection

variable {p : Projection} {v : Visible} {item : Item} {select : List Item}

/-- A column that is asked for by its name keeps it, as text or not. -/
theorem names_namedColumn (ht : p.table.Undotted) {name : String} {label : Option String}
    (hname : SelectItem.wildcardOfName? name = none) :
    (v.itemOutputs p.table p.table.outputs (p.namedColumn name label)).map OutputColumn.name =
      [some (label.getD (lastSegment name))] := by
  rw [namedColumn_eq]
  split
  · rfl
  · exact names_itemOutputs_column ht hname

/-- To replace keeps the names of every item. -/
theorem names_replaceItem (ht : p.table.Undotted) (hjoin : v.primary ∉ v.joined) (item : Item) :
    ((p.projectItem v .replace item).flatMap
        (v.itemOutputs p.table p.table.outputs)).map OutputColumn.name =
      (v.itemOutputs p.table p.table.outputs item).map OutputColumn.name := by
  cases item with
  | expression => exact names_projectItem ht.noStars hjoin (.inr rfl)
  | subquery => exact names_projectItem ht.noStars hjoin (.inr rfl)
  | column name label =>
      cases hname : SelectItem.wildcardOfName? name with
      | some w =>
          have hwild : (SelectItem.column name label : Item).wildcard? = some w := hname
          exact names_projectItem ht.noStars hjoin (.inl (by rw [hwild]; rfl))
      | none =>
          rw [projectItem_column hname, List.flatMap_singleton, names_namedColumn ht hname,
            names_itemOutputs_column ht hname]

/-! ## No wildcard gets an alias -/

/-- What is written for a wildcard has no alias, unless it is the wildcard itself. -/
theorem labelled_mem_expand {w : Wildcard} {item' : Item} (h : item' ∈ p.expand v item w)
    (hlabelled : isLabelledWildcard item' = true) : item' = item := by
  rw [expand] at h
  split at h
  · exact List.mem_singleton.mp h
  · rcases List.mem_append.mp h with hcolumn | hjoined
    · obtain ⟨c, -, rfl⟩ := List.mem_map.mp hcolumn
      rw [expandColumn] at hlabelled
      split at hlabelled
      · cases hlabelled
      · cases hlabelled
    · split at hjoined
      · obtain ⟨table, -, rfl⟩ := List.mem_map.mp hjoined
        cases hlabelled
      · cases hjoined

theorem isLabelledWildcard_namedColumn {name : String} {label : Option String}
    (hname : SelectItem.wildcardOfName? name = none) :
    isLabelledWildcard (p.namedColumn name label) = false := by
  have hself : isLabelledWildcard (.column name label) = false := by
    cases label with
    | none => rfl
    | some label => simp [isLabelledWildcard, hname]
  rw [namedColumn_eq]
  split
  · rfl
  · exact hself

theorem labelled_mem_replaceItem {item' : Item} (h : item' ∈ p.projectItem v .replace item)
    (hlabelled : isLabelledWildcard item' = true) : item' = item := by
  rw [projectItem.eq_def] at h
  split at h
  · split at h
    · exact labelled_mem_expand h hlabelled
    · exact List.mem_singleton.mp h
  · rename_i hnone
    split at h
    · rename_i name label
      obtain rfl := List.mem_singleton.mp h
      rw [isLabelledWildcard_namedColumn hnone] at hlabelled
      cases hlabelled
    · exact List.mem_singleton.mp h

/-- To replace makes no wildcard with an alias. -/
theorem not_labelled_replaceSelect (h : ∀ item ∈ select, isLabelledWildcard item = false) :
    ∀ item ∈ p.projectSelect v .replace select, isLabelledWildcard item = false := by
  intro item' hmem
  by_contra hlabelled
  rw [Bool.not_eq_false] at hlabelled
  rw [projectSelect_replace] at hmem
  obtain ⟨item, hitem, hmem⟩ := List.mem_flatMap.mp hmem
  obtain rfl := labelled_mem_replaceItem hmem hlabelled
  by_cases hselect : select = []
  · subst hselect
    obtain ⟨table, -, rfl⟩ := List.mem_map.mp hitem
    cases hlabelled
  · rw [requested_of_ne_nil hselect] at hitem
    rw [h _ hitem] at hlabelled
    cases hlabelled

/-! ## The whole query -/

/-- To replace keeps the names of the output of a level that reads the table. -/
theorem outputNames_replaceLevel {q : Query} (ht : p.table.Undotted)
    (hlevel : q.readsDerived = false) (hjoin : q.sourceAlias p.table.name ∉ q.joinAliases) :
    (p.projectLevel .replace q).outputNames p.table = q.outputNames p.table := by
  rw [Query.outputNames, Query.outputNames, Query.outputs_of_level hlevel,
    Query.outputs_of_level (q := p.projectLevel .replace q) hlevel]
  exact names_projectSelect (v := .ofLevel q p.table) hjoin fun item _ =>
    names_replaceItem ht hjoin item

/-- To replace keeps the names of a level that reads the table. -/
theorem levelNames_replaceLevel {q : Query} (ht : p.table.Undotted)
    (hlevel : q.readsDerived = false) (hjoin : q.sourceAlias p.table.name ∉ q.joinAliases)
    (hitems : ∀ item ∈ q.select, isLabelledWildcard item = false) :
    levelNames p.table (p.projectLevel .replace q) = levelNames p.table q := by
  rw [levelNames_eq ht hlevel hitems, ← outputNames_replaceLevel ht hlevel hjoin]
  exact levelNames_eq ht hlevel (not_labelled_replaceSelect hitems)

/-- **To replace points by their text keeps the names of the output.** Take a table whose columns
have no points in their names and are no stars, and a query whose innermost level joins no table
under the alias of the table and puts no alias on a wildcard. If the style is to replace, or the
innermost level is inside a derived table, then that level names its columns after the projection as
it did before, in the same order, and so do all derived tables and the query itself. On PostgreSQL
nothing is projected, so the two dialects name the same columns. -/
theorem project_levelNames (p : Projection) (style : ProjectionStyle) (mode : ProjectionMode)
    (q : Query) (ht : p.table.Undotted) (hstyle : style = .replace ∨ q.readsDerived = true)
    (hjoin : q.innermost.sourceAlias p.table.name ∉ q.innermost.joinAliases)
    (hitems : ∀ item ∈ q.innermost.select, isLabelledWildcard item = false) :
    let q' := p.project style mode q
    levelNames p.table q'.innermost = levelNames p.table q.innermost ∧
      q'.derivedTables.map (Query.outputNames p.table) =
        q.derivedTables.map (Query.outputNames p.table) ∧
      q'.outputNames p.table = q.outputNames p.table ∧
      (⟨.postgresql, p.table⟩ : Projection).project style mode q = q := by
  intro q'
  have hinnermost := Query.innermost_readsDerived q
  have houtput := outputNames_replaceLevel ht hinnermost hjoin
  have hlevel := levelNames_replaceLevel ht hinnermost hjoin hitems
  have hpostgres : (⟨.postgresql, p.table⟩ : Projection).project style mode q = q :=
    project_of_plain rfl
  have hcases : q' = q ∨ q' = q.mapInnermost (p.projectLevel .replace) :=
    project_eq_self_or_mapInnermost mode hstyle
  rcases hcases with hq | hq
  · rw [hq]
    exact ⟨rfl, rfl, rfl, hpostgres⟩
  · have hkeeps := p.readsDerived_projectLevel .replace
    rw [hq, Query.innermost_mapInnermost hkeeps]
    exact ⟨hlevel, Query.names_derivedTables_mapInnermost q hkeeps houtput,
      Query.names_mapInnermost q houtput, hpostgres⟩

/-- Bridges and where they are. -/
def bridges : Table := ⟨"bridges", [⟨"id", "int", false⟩, ⟨"geom", "point", false⟩]⟩

/-- Bridges and the rivers below them: the place under a name of its own, then all columns. -/
def bridgesOverRivers : Query where
  select := [.plain "d.*"]
  source := some (.derived
    { select := [.column "b.geom" (some "place"), .plain "*", .raw "COUNT(*)"]
      source := some (.table "bridges b" none)
      joins := [⟨.left, "rivers r", "r.id = b.river"⟩] } "d")

theorem bridges_project_levelNames :
    let p : Projection := ⟨.mysql, bridges⟩
    let q := bridgesOverRivers
    p.table.Undotted ∧ q.readsDerived = true ∧
      q.innermost.sourceAlias p.table.name ∉ q.innermost.joinAliases ∧
      (∀ item ∈ q.innermost.select, isLabelledWildcard item = false) ∧
      let q' := p.project .additive .suppressed q
      levelNames p.table q'.innermost = levelNames p.table q.innermost ∧
        q'.derivedTables.map (Query.outputNames p.table) =
          q.derivedTables.map (Query.outputNames p.table) ∧
        q'.outputNames p.table = q.outputNames p.table ∧
        (⟨.postgresql, p.table⟩ : Projection).project .additive .suppressed q = q := by
  intro p q
  have ht : p.table.Undotted := by decide
  have hjoin : q.innermost.sourceAlias p.table.name ∉ q.innermost.joinAliases := by decide +kernel
  have hitems : ∀ item ∈ q.innermost.select, isLabelledWildcard item = false := by decide
  exact ⟨ht, rfl, hjoin, hitems,
    project_levelNames p .additive .suppressed q ht (.inr rfl) hjoin hitems⟩

example : levelNames bridges bridgesOverRivers.innermost =
    [some "place", some "id", some "geom", none, none] := by decide +kernel

end Projection

end PointQuery
