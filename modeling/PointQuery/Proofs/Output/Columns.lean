import PointQuery.Proofs.Projection.Chain
import PointQuery.Proofs.Projection.Select
/-!
# The output of a query

The columns that a query hands to whoever reads it, in order: the name of each, and whether it is a
point column turned into text. What a wildcard stands for depends on the level below, down to the
table itself. `names_mapInnermost` says that a change of the innermost level that keeps the names
there keeps them all the way up, and `names_projectSelect` that replacing wildcards is one.
-/

namespace PointQuery

open Sql

/-- A column in the output of a query. -/
structure OutputColumn where
  /-- Its name. A computed column without an alias has none, and no names are known of the columns
  of a joined table. -/
  name : Option String
  /-- Whether it is a point column turned into text. -/
  isPointText : Bool := false
deriving DecidableEq

/-! ## One item -/

/-- Whether an expression is the text form of a column, which may be qualified. -/
def isTextFormOf (column sql : String) : Bool :=
  let call := "ST_AsText(".toList
  let argument := sql.toList.drop call.length
  call.isPrefixOf sql.toList &&
    (argument == column.toList ++ [')'] || ('.' :: column.toList ++ [')']).isSuffixOf argument)

/-- Whether an expression is the text form of a point column of the table. -/
def Table.isPointText (t : Table) (sql : String) : Bool :=
  t.points.any fun c => isTextFormOf c.name sql

/-- The text form of a column is known as such, whether its name is qualified or not. -/
theorem isTextFormOf_asText {column name : String}
    (h : name = column ∨ ∃ qualifier, name = qualifier ++ "." ++ column) :
    isTextFormOf column ("ST_AsText(" ++ name ++ ")") = true := by
  have hchars : ("ST_AsText(" ++ name ++ ")").toList =
      "ST_AsText(".toList ++ (name.toList ++ [')']) := by
    have hclose : ")".toList = [')'] := by decide
    rw [String.toList_append, String.toList_append, hclose, List.append_assoc]
  have hdrop : ("ST_AsText(".toList ++ (name.toList ++ [')'])).drop "ST_AsText(".toList.length =
      name.toList ++ [')'] := List.drop_left
  have hstart : "ST_AsText(".toList.isPrefixOf ("ST_AsText(".toList ++ (name.toList ++ [')'])) =
      true := List.isPrefixOf_iff_prefix.mpr (List.prefix_append _ _)
  simp only [isTextFormOf, hchars, hdrop, hstart, Bool.true_and, Bool.or_eq_true, beq_iff_eq]
  rcases h with rfl | ⟨qualifier, rfl⟩
  · exact .inl rfl
  · have hdot : ".".toList = ['.'] := by decide
    refine .inr (List.isSuffixOf_iff_suffix.mpr ⟨qualifier.toList, ?_⟩)
    simp only [String.toList_append, hdot, List.append_assoc, List.cons_append, List.nil_append]

/-- The columns of a table as an output. -/
def Table.outputs (t : Table) : List OutputColumn := t.columns.map fun c => ⟨some c.name, false⟩

namespace Visible

/-- The name of a column in the output. One that is qualified by the alias of the source is a column
of the source; of any other the last part of its name is known. -/
def columnName (v : Visible) (columns : List OutputColumn) (name : String) : String :=
  ((columns.filterMap OutputColumn.name).find? fun c => v.primary ++ "." ++ c == name).getD
    (lastSegment name)

/-- What an item stands for in the output, where the source of the level has the given columns. -/
def itemOutputs (v : Visible) (t : Table) (columns : List OutputColumn) :
    Item → List OutputColumn
  | .column name label =>
    match SelectItem.wildcardOfName? name with
    | some .all => columns ++ v.joined.map fun _ => ⟨none, false⟩
    | some (.table table) => if table = v.primary then columns else [⟨none, false⟩]
    | none => [⟨some (label.getD (v.columnName columns name)), false⟩]
  | .expression fragment label => [⟨label, t.isPointText fragment.sql⟩]
  | .subquery _ label => [⟨some label, false⟩]

/-- What a select list stands for in the output; an empty one is a star. -/
def selectOutputs (v : Visible) (t : Table) (columns : List OutputColumn) (select : List Item) :
    List OutputColumn :=
  (if select.isEmpty then [.plain "*"] else select).flatMap (v.itemOutputs t columns)

end Visible

/-! ## The whole query -/

namespace Sql.Query

/-- The output of a query. A level that reads no derived table reads the table. -/
def outputs (t : Table) : Query → List OutputColumn
  | { select, source := some (.derived inner label), joins, .. } =>
    Visible.selectOutputs ⟨label, joins.map fun j => tableAlias j.table⟩ t (inner.outputs t) select
  | q => (Visible.ofLevel q t).selectOutputs t t.outputs q.select

/-- The names in the output of a query. -/
def outputNames (t : Table) (q : Query) : List (Option String) :=
  (q.outputs t).map OutputColumn.name

section

variable {t : Table} {q inner : Query} {label : String}

theorem outputs_of_derived (h : q.source = some (.derived inner label)) :
    q.outputs t = (Visible.ofLevel q t).selectOutputs t (inner.outputs t) q.select := by
  obtain ⟨select, source, joins, condition, groupBy, orderBy, limit, offset, distinct, unions⟩ := q
  cases h
  rw [outputs]
  rfl

theorem outputs_of_level (h : q.readsDerived = false) :
    q.outputs t = (Visible.ofLevel q t).selectOutputs t t.outputs q.select := by
  rw [outputs.eq_def]
  split
  · exact absurd rfl (readsDerived_eq_false h _ _)
  · rfl

end

end Sql.Query

/-! ## Names depend on names -/

section

variable {v : Visible} {t : Table} {columns columns' : List OutputColumn}

theorem columnName_congr (h : columns.map OutputColumn.name = columns'.map OutputColumn.name)
    (name : String) : v.columnName columns name = v.columnName columns' name := by
  have hnames : columns.filterMap OutputColumn.name = columns'.filterMap OutputColumn.name := by
    have hid : ∀ cs : List OutputColumn, cs.filterMap OutputColumn.name =
        (cs.map OutputColumn.name).filterMap id := by
      intro cs
      rw [List.filterMap_map]
      rfl
    rw [hid, hid, h]
  rw [Visible.columnName, Visible.columnName, hnames]

theorem names_itemOutputs_congr
    (h : columns.map OutputColumn.name = columns'.map OutputColumn.name) (item : Item) :
    (v.itemOutputs t columns item).map OutputColumn.name =
      (v.itemOutputs t columns' item).map OutputColumn.name := by
  cases item with
  | column name label =>
      rw [Visible.itemOutputs, Visible.itemOutputs]
      cases SelectItem.wildcardOfName? name with
      | none => simp only [List.map_cons, List.map_nil, columnName_congr h name]
      | some w =>
          cases w with
          | all => simp only [List.map_append, h]
          | table table =>
              by_cases ht : table = v.primary
              · simp only [ht, if_true, h]
              · simp only [ht, if_false]
  | expression => rfl
  | subquery => rfl

theorem names_selectOutputs_congr
    (h : columns.map OutputColumn.name = columns'.map OutputColumn.name) (select : List Item) :
    (v.selectOutputs t columns select).map OutputColumn.name =
      (v.selectOutputs t columns' select).map OutputColumn.name := by
  rw [Visible.selectOutputs, Visible.selectOutputs, List.map_flatMap, List.map_flatMap]
  exact List.flatMap_congr fun item _ => names_itemOutputs_congr h item

end

namespace Sql.Query

/-- If a change of the innermost level keeps the names of its output, it keeps those of all levels
around it. -/
theorem names_mapInnermost {t : Table} {f : Query → Query} (q : Query)
    (h : (f q.innermost).outputNames t = q.innermost.outputNames t) :
    (q.mapInnermost f).outputNames t = q.outputNames t := by
  induction q using chain_induction with
  | level q hq =>
      rw [innermost_of_level hq] at h
      rw [mapInnermost_of_level hq, h]
  | derived q inner label hq ih =>
      rw [innermost_of_derived hq] at h
      rw [mapInnermost_of_derived hq, outputNames, outputs_of_derived rfl, outputNames,
        outputs_of_derived hq]
      have hv : Visible.ofLevel { q with source := some (.derived (inner.mapInnermost f) label) } t =
          Visible.ofLevel q t := by
        simp only [Visible.ofLevel, sourceAlias, joinAliases, hq]
      rw [hv]
      exact names_selectOutputs_congr (ih h) q.select

/-- Such a change keeps the names of every derived table. -/
theorem names_derivedTables_mapInnermost {t : Table} {f : Query → Query} (q : Query)
    (hf : ∀ q : Query, q.readsDerived = false → (f q).readsDerived = false)
    (h : (f q.innermost).outputNames t = q.innermost.outputNames t) :
    (q.mapInnermost f).derivedTables.map (outputNames t) = q.derivedTables.map (outputNames t) := by
  rw [derivedTables_mapInnermost hf, List.map_map]
  refine List.map_congr_left fun derived hmem => names_mapInnermost derived ?_
  rw [innermost_of_mem_derivedTables hmem, h]

end Sql.Query

/-! ## To replace keeps names -/

/-- A qualified column of the source is known under its own name. -/
theorem columnName_qualified {v : Visible} {columns : List OutputColumn} {c : String}
    (h : c ∈ columns.filterMap OutputColumn.name) :
    v.columnName columns (v.primary ++ "." ++ c) = c := by
  rw [Visible.columnName]
  cases hf : (columns.filterMap OutputColumn.name).find?
      fun c' => v.primary ++ "." ++ c' == v.primary ++ "." ++ c with
  | none =>
      have hnone := List.find?_eq_none.mp hf c h
      simp at hnone
  | some found =>
      have heq : v.primary ++ "." ++ found = v.primary ++ "." ++ c := by
        simpa using List.find?_some hf
      have hchars := congrArg String.toList heq
      simp only [String.toList_append] at hchars
      have hname : found = c := String.toList_inj.mp (List.append_cancel_left hchars)
      rw [hname, Option.getD_some]

/-- No column of the table is named like a wildcard. -/
def Table.NoStars (t : Table) : Prop :=
  ∀ c ∈ t.columns, SelectItem.wildcardOfName? c.name = none

instance (t : Table) : Decidable t.NoStars :=
  inferInstanceAs (Decidable (∀ c ∈ t.columns, SelectItem.wildcardOfName? c.name = none))

theorem Table.names_outputs (t : Table) :
    t.outputs.map OutputColumn.name = t.columns.map fun c => some c.name := by
  rw [Table.outputs, List.map_map]
  rfl

theorem Table.name_mem_outputs {t : Table} {c : Column} (h : c ∈ t.columns) :
    c.name ∈ t.outputs.filterMap OutputColumn.name := by
  rw [List.mem_filterMap]
  exact ⟨⟨some c.name, false⟩, List.mem_map.mpr ⟨c, h, rfl⟩, rfl⟩

namespace Projection

variable {p : Projection} {v : Visible} {item : Item} {w : Wildcard}

/-- A column that is listed for a wildcard has its own name, as text or not. -/
theorem names_expandColumn (hstars : p.table.NoStars) {c : Column} (hc : c ∈ p.table.columns) :
    (v.itemOutputs p.table p.table.outputs (p.expandColumn v c)).map OutputColumn.name =
      [some c.name] := by
  rw [expandColumn]
  split
  · rfl
  · rw [SelectItem.plain, Visible.itemOutputs, wildcardOfName?_qualified _ (hstars c hc)]
    show [some (v.columnName _ (v.primary ++ "." ++ c.name))] = _
    rw [columnName_qualified (Table.name_mem_outputs hc)]

theorem itemOutputs_wildcardOf_foreign {t : Table} {columns : List OutputColumn} {table : String}
    (h : table ≠ v.primary) :
    v.itemOutputs t columns (.wildcardOf table) = [⟨none, false⟩] := by
  rw [SelectItem.wildcardOf, SelectItem.plain, Visible.itemOutputs, wildcardOfName?_table]
  simp only [h, if_false]

theorem itemOutputs_wildcards {t : Table} {columns : List OutputColumn}
    (hjoin : v.primary ∉ v.joined) :
    (v.joined.map SelectItem.wildcardOf).flatMap (v.itemOutputs t columns) =
      v.joined.map fun _ => ⟨none, false⟩ := by
  rw [List.flatMap_map, List.map_eq_flatMap]
  exact List.flatMap_congr fun table htable =>
    itemOutputs_wildcardOf_foreign fun he => hjoin (he ▸ htable)

/-- A wildcard over the table and what it is replaced by have the same names. -/
theorem names_expand (hstars : p.table.NoStars) (hjoin : v.primary ∉ v.joined)
    (hw : item.wildcard? = some w) (howns : v.owns w = true) :
    ((p.expand v item w).flatMap (v.itemOutputs p.table p.table.outputs)).map OutputColumn.name =
      (v.itemOutputs p.table p.table.outputs item).map OutputColumn.name := by
  by_cases hcolumns : p.table.columns = []
  · simp [expand, hcolumns]
  · have hempty : p.table.columns.isEmpty = false := by simpa using hcolumns
    have hlisted : ((p.table.columns.map (p.expandColumn v)).flatMap
        (v.itemOutputs p.table p.table.outputs)).map OutputColumn.name =
          p.table.outputs.map OutputColumn.name := by
      rw [List.flatMap_map, List.map_flatMap, Table.names_outputs, List.map_eq_flatMap]
      exact List.flatMap_congr fun c hc => names_expandColumn hstars hc
    cases item with
    | column name label =>
        have hname : SelectItem.wildcardOfName? name = some w := hw
        rw [expand, hempty, Visible.itemOutputs, hname]
        cases w with
        | all =>
            simp only [Bool.false_eq_true, if_false, if_true, List.flatMap_append,
              List.map_append, hlisted, itemOutputs_wildcards hjoin]
        | table table =>
            have ht : table = v.primary := by simpa [Visible.owns] using howns
            simp [ht, hlisted]
    | expression => cases hw
    | subquery => cases hw

/-- To replace keeps the names of wildcards and computed items. -/
theorem names_projectItem (hstars : p.table.NoStars) (hjoin : v.primary ∉ v.joined)
    (hitem : item.wildcard?.isSome ∨ isComputed item = true) :
    ((p.projectItem v .replace item).flatMap
        (v.itemOutputs p.table p.table.outputs)).map OutputColumn.name =
      (v.itemOutputs p.table p.table.outputs item).map OutputColumn.name := by
  rcases hitem with hwild | hcomputed
  · obtain ⟨w, hw⟩ := Option.isSome_iff_exists.mp hwild
    rw [projectItem.eq_def, hw]
    cases howns : v.owns w with
    | true =>
        simp only [howns, if_true]
        exact names_expand hstars hjoin hw howns
    | false => simp only [howns, Bool.false_eq_true, if_false, List.flatMap_singleton]
  · rw [projectItem_of_computed hcomputed, List.flatMap_singleton]

/-- The items that an empty list asks for have the names of the star that it stands for. -/
theorem names_requested (hjoin : v.primary ∉ v.joined) (select : List Item) :
    ((v.requested select).flatMap (v.itemOutputs p.table p.table.outputs)).map OutputColumn.name =
      (v.selectOutputs p.table p.table.outputs select).map OutputColumn.name := by
  by_cases hselect : select = []
  · have hown : v.itemOutputs p.table p.table.outputs (.wildcardOf v.primary) =
        p.table.outputs := by
      rw [SelectItem.wildcardOf, SelectItem.plain, Visible.itemOutputs, wildcardOfName?_table]
      simp
    have hrequested : v.requested [] = .wildcardOf v.primary :: v.joined.map .wildcardOf := rfl
    have hstar : v.selectOutputs p.table p.table.outputs [] =
        p.table.outputs ++ v.joined.map fun _ => ⟨none, false⟩ := List.flatMap_singleton _ _
    rw [hselect, hrequested, List.flatMap_cons, hown, itemOutputs_wildcards hjoin, hstar]
  · rw [requested_of_ne_nil hselect, Visible.selectOutputs, if_neg (by simpa using hselect)]

/-- To replace keeps the names of a select list if it keeps those of the items asked for. -/
theorem names_projectSelect (hjoin : v.primary ∉ v.joined) {select : List Item}
    (hitems : ∀ item ∈ v.requested select,
      ((p.projectItem v .replace item).flatMap
          (v.itemOutputs p.table p.table.outputs)).map OutputColumn.name =
        (v.itemOutputs p.table p.table.outputs item).map OutputColumn.name) :
    (v.selectOutputs p.table p.table.outputs (p.projectSelect v .replace select)).map
        OutputColumn.name =
      (v.selectOutputs p.table p.table.outputs select).map OutputColumn.name := by
  have hprojected : p.projectSelect v .replace select ≠ [] := projectSelect_ne_nil select
  rw [Visible.selectOutputs, if_neg (by simpa using hprojected), projectSelect_replace,
    ← names_requested hjoin, List.flatMap_assoc, List.map_flatMap, List.map_flatMap]
  exact List.flatMap_congr hitems

end Projection

end PointQuery
