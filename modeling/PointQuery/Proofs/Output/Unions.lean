import Mathlib.Algebra.Order.BigOperators.Group.List
import Mathlib.Algebra.Order.Ring.Nat
import PointQuery.Proofs.Output.Columns
import PointQuery.Proofs.Projection.Coverage
/-!
# The members of a union

The rows of a union come from several queries, so these must expose equally many columns, and a
point column as text either all of them or none. The projection leaves the members of a union alone.
`project_unionCompatible_iff` says when this does no harm: only if there is no point to convert in
the first query either. What decides is how many columns each of them exposes as text.
-/

namespace PointQuery

open Sql

namespace Sql.Query

variable {t : Table} {q : Query}

/-- Whether a query exposes a point column as text at a position. -/
def isTextAt (t : Table) (q : Query) (i : Nat) : Bool :=
  (q.outputs t)[i]?.any OutputColumn.isPointText

/-- A query and the members of its union expose equally many columns, and at each position the query
exposes a point column as text if and only if all members do. -/
structure UnionCompatible (t : Table) (q : Query) : Prop where
  width : ∀ m ∈ q.unions, (m.query.outputs t).length = (q.outputs t).length
  text : ∀ i, q.isTextAt t i = true ↔ ∀ m ∈ q.unions, m.query.isTextAt t i = true

/-- Queries with one select list, which see the same names, are compatible before anything is
projected. -/
theorem unionCompatible_of_same (hunions : q.unions ≠ []) (hreads : q.readsDerived = false)
    (hmembers : ∀ m ∈ q.unions, m.query.readsDerived = false ∧ m.query.select = q.select)
    (hvisible : ∀ m ∈ q.unions, Visible.ofLevel m.query t = Visible.ofLevel q t) :
    q.UnionCompatible t := by
  have houtputs : ∀ m ∈ q.unions, m.query.outputs t = q.outputs t := by
    intro m hm
    obtain ⟨hlevel, hselect⟩ := hmembers m hm
    rw [outputs_of_level hlevel, outputs_of_level hreads, hselect, hvisible m hm]
  have htext : ∀ i, ∀ m ∈ q.unions, m.query.isTextAt t i = q.isTextAt t i := by
    intro i m hm
    rw [isTextAt, isTextAt, houtputs m hm]
  obtain ⟨m, hm⟩ := List.exists_mem_of_ne_nil _ hunions
  refine ⟨fun m hm => by rw [houtputs m hm], fun i => ⟨fun hq m hm => ?_, fun hall => ?_⟩⟩
  · rw [htext i m hm, hq]
  · rw [← htext i m hm, hall m hm]

end Sql.Query

/-! ## Counting texts -/

/-- How many columns are exposed as text. -/
def textCount (columns : List OutputColumn) : Nat := columns.countP OutputColumn.isPointText

theorem textCount_append (columns columns' : List OutputColumn) :
    textCount (columns ++ columns') = textCount columns + textCount columns' :=
  List.countP_append

theorem textCount_flatMap {A : Type} (xs : List A) (f : A → List OutputColumn) :
    textCount (xs.flatMap f) = (xs.map fun x => textCount (f x)).sum :=
  List.countP_flatMap

/-- What is text in one output and also in another occurs there at least as often. -/
theorem textCount_le_of_imp {columns columns' : List OutputColumn}
    (h : ∀ i : Nat, columns[i]?.any OutputColumn.isPointText = true →
      columns'[i]?.any OutputColumn.isPointText = true) : textCount columns ≤ textCount columns' := by
  induction columns generalizing columns' with
  | nil => exact Nat.zero_le _
  | cons column columns ih =>
      cases columns' with
      | nil =>
          have hnone : textCount (column :: columns) = 0 := by
            refine List.countP_eq_zero.mpr fun c hc htext => ?_
            obtain ⟨i, hi⟩ := List.mem_iff_getElem?.mp hc
            have himpossible := h i (by rw [hi]; exact htext)
            simp at himpossible
          rw [hnone]
          exact Nat.zero_le _
      | cons column' columns' =>
          have hrest : textCount columns ≤ textCount columns' :=
            ih fun i => by simpa using h (i + 1)
          have hfirst : column.isPointText = true → column'.isPointText = true := by
            simpa using h 0
          simp only [textCount, List.countP_cons] at hrest ⊢
          cases htext : column.isPointText with
          | false =>
              simp only [Bool.false_eq_true, if_false]
              omega
          | true =>
              simp only [hfirst htext, if_true]
              omega

section

variable {t : Table} {v v' : Visible}

/-- Columns and wildcards are exposed as they are. -/
theorem textCount_column (name : String) (label : Option String) :
    textCount (v.itemOutputs t t.outputs (.column name label)) = 0 := by
  have hown : textCount t.outputs = 0 := by
    rw [textCount, Table.outputs, List.countP_map]
    exact List.countP_eq_zero.mpr fun _ _ htext => Bool.noConfusion htext
  have hjoined : textCount (v.joined.map fun _ => ⟨none, false⟩) = 0 := by
    rw [textCount, List.countP_map]
    exact List.countP_eq_zero.mpr fun _ _ htext => Bool.noConfusion htext
  rw [Visible.itemOutputs]
  cases SelectItem.wildcardOfName? name with
  | none => rfl
  | some w =>
      cases w with
      | all => simp only [textCount_append, hown, hjoined]
      | table table =>
          by_cases ht : table = v.primary
          · simp only [ht, if_true, hown]
          · simp only [ht, if_false]
            rfl

/-- How many texts an item stands for does not depend on the names that its level sees. -/
theorem textCount_itemOutputs_congr (item : Item) :
    textCount (v.itemOutputs t t.outputs item) = textCount (v'.itemOutputs t t.outputs item) := by
  cases item with
  | column name label => rw [textCount_column, textCount_column]
  | expression => rfl
  | subquery => rfl

theorem textCount_selectOutputs_congr (v v' : Visible) (select : List Item) :
    textCount (v.selectOutputs t t.outputs select) =
      textCount (v'.selectOutputs t t.outputs select) := by
  rw [Visible.selectOutputs, Visible.selectOutputs, textCount_flatMap, textCount_flatMap]
  exact congrArg List.sum (List.map_congr_left fun item _ => textCount_itemOutputs_congr item)

/-- A list without expressions and subqueries has no texts. -/
theorem textCount_of_columns {items : List Item} (h : ∀ item ∈ items, isComputed item = false) :
    textCount (items.flatMap (v.itemOutputs t t.outputs)) = 0 := by
  rw [textCount_flatMap]
  refine List.sum_eq_zero fun n hn => ?_
  obtain ⟨item, hitem, rfl⟩ := List.mem_map.mp hn
  cases item with
  | column name label => exact textCount_column name label
  | expression => cases h _ hitem
  | subquery => cases h _ hitem

/-- An empty select list stands for a star, and asks for each table in turn; neither is a text. -/
theorem textCount_requested (select : List Item) :
    textCount (v.selectOutputs t t.outputs select) =
      textCount ((v.requested select).flatMap (v.itemOutputs t t.outputs)) := by
  cases select with
  | nil =>
      rw [textCount_of_columns fun _ => Projection.requested_nil_column, Visible.selectOutputs]
      refine textCount_of_columns fun item hitem => ?_
      obtain rfl := List.mem_singleton.mp hitem
      rfl
  | cons item items => rfl

end

/-! ## What is asked for -/

namespace Projection

/-- Whether an item asks for a point column: by its name, or behind a wildcard over the table. -/
def asksForPoint (p : Projection) (v : Visible) : Item → Bool
  | .column name _ =>
    match SelectItem.wildcardOfName? name with
    | some w => v.owns w
    | none => (p.table.column? (lastSegment name)).any Column.isPoint
  | .expression .. => false
  | .subquery .. => false

variable {p : Projection} {v : Visible} {style : ProjectionStyle}

/-- An item that asks for no point column stays as it is. -/
theorem projectItem_of_not_asks {item : Item} (h : p.asksForPoint v item = false) :
    p.projectItem v style item = [item] := by
  cases item with
  | expression => rfl
  | subquery => rfl
  | column name label =>
      rw [asksForPoint] at h
      cases hw : SelectItem.wildcardOfName? name with
      | some w =>
          rw [hw] at h
          have hwild : (SelectItem.column name label : Item).wildcard? = some w := hw
          rw [projectItem.eq_def, hwild]
          simp only [show v.owns w = false from h, Bool.false_eq_true, if_false]
      | none =>
          rw [hw] at h
          have hpoint : p.table.hasPoint name = false := h
          rw [projectItem_column hw, namedColumn_eq, hpoint, if_neg Bool.false_ne_true]

theorem asksForPoint_of_owns {item : Item} (h : v.ownsItem item = true) :
    p.asksForPoint v item = true := by
  cases item with
  | expression => cases h
  | subquery => cases h
  | column name label =>
      have hany : (SelectItem.wildcardOfName? name).any v.owns = true := h
      rw [asksForPoint]
      cases hw : SelectItem.wildcardOfName? name with
      | none => simp [hw] at hany
      | some w => simpa [hw] using hany

/-- A list of items that ask for no point column stays as it is. An empty list asks for all. -/
theorem projectSelect_of_not_asks {select : List Item}
    (h : ∀ item ∈ v.requested select, p.asksForPoint v item = false) :
    p.projectSelect v style select = select := by
  have hnone : ∀ item ∈ v.requested select, v.ownsItem item = false := by
    intro item hitem
    cases hown : v.ownsItem item with
    | false => rfl
    | true => rw [← h item hitem, asksForPoint_of_owns hown]
  have hselect : select ≠ [] := by
    rintro rfl
    have hown : v.ownsItem (.wildcardOf v.primary) = true :=
      ownsItem_column_iff.mpr (.inr rfl)
    rw [hnone _ List.mem_cons_self] at hown
    cases hown
  rw [requested_of_ne_nil hselect] at h hnone
  have hitems : select.flatMap (p.projectItem v style) = select :=
    (List.flatMap_congr fun item hitem => projectItem_of_not_asks (h item hitem)).trans
      (List.flatMap_pure_eq_map id select |>.trans (List.map_id select))
  have howns : select.any v.ownsItem = false := by simpa using hnone
  rw [projectSelect, requested_of_ne_nil hselect, hitems, howns]
  simp

/-! ## Each point that is converted is one text more -/

section

variable {items : List Item} {item : Item} {c : Column}

/-- The text form of a point column counts as one. -/
theorem textCount_pos_of_cast_mem (hd : p.dialect = .mysql) (hc : c ∈ p.table.points)
    {name : String} (hname : name = c.name ∨ ∃ qualifier, name = qualifier ++ "." ++ c.name)
    (output : String) (h : p.cast name output ∈ items) :
    0 < textCount (items.flatMap (v.itemOutputs p.table p.table.outputs)) := by
  have htext : p.table.isPointText ("ST_AsText(" ++ name ++ ")") = true :=
    List.any_eq_true.mpr ⟨c, hc, isTextFormOf_asText hname⟩
  rw [cast_mysql hd] at h
  refine List.countP_pos_iff.mpr ⟨_, List.mem_flatMap.mpr ⟨_, h, List.mem_singleton_self _⟩, ?_⟩
  exact htext

/-- To expand a wildcard over a table with points lists one of them. -/
theorem textCount_expand_pos (hd : p.dialect = .mysql) (hpoints : p.table.points ≠ [])
    (item : Item) (w : Wildcard) :
    0 < textCount ((p.expand v item w).flatMap (v.itemOutputs p.table p.table.outputs)) := by
  obtain ⟨c, hc⟩ := List.exists_mem_of_ne_nil _ hpoints
  obtain ⟨hcolumn, hpoint⟩ := Table.mem_points.mp hc
  have hcolumns : p.table.columns.isEmpty = false := by
    simpa using List.ne_nil_of_mem hcolumn
  refine textCount_pos_of_cast_mem hd hc (.inr ⟨v.primary, rfl⟩) c.name ?_
  rw [expand, hcolumns]
  refine List.mem_append_left _ (List.mem_map.mpr ⟨c, hcolumn, ?_⟩)
  rw [expandColumn, if_pos hpoint]

theorem textCount_pointCasts_pos (hd : p.dialect = .mysql) (hpoints : p.table.points ≠ []) :
    0 < textCount (p.pointCasts.flatMap (v.itemOutputs p.table p.table.outputs)) := by
  obtain ⟨c, hc⟩ := List.exists_mem_of_ne_nil _ hpoints
  refine textCount_pos_of_cast_mem hd hc (.inl rfl) c.name ?_
  exact List.mem_map.mpr ⟨c.name, List.mem_eraseDups.mpr (List.mem_map.mpr ⟨c, hc, rfl⟩), rfl⟩

/-- A point column that is asked for by name is converted. -/
theorem textCount_namedColumn_pos (hd : p.dialect = .mysql) {name : String}
    (label : Option String) (h : p.table.hasPoint name = true) :
    0 < textCount ([p.namedColumn name label].flatMap (v.itemOutputs p.table p.table.outputs)) := by
  obtain ⟨c, hc, hpoint⟩ := (Option.any_eq_true ..).mp h
  obtain ⟨hcolumn, hname⟩ := Table.column?_eq_some hc
  refine textCount_pos_of_cast_mem hd (Table.mem_points.mpr ⟨hcolumn, hpoint⟩)
    (by rw [hname]; exact lastSegment_suffix name) (label.getD (lastSegment name)) ?_
  rw [namedColumn_eq, if_pos h]
  exact List.mem_singleton_self _

theorem textCount_projectItem_le (item : Item) :
    textCount (v.itemOutputs p.table p.table.outputs item) ≤
      textCount ((p.projectItem v style item).flatMap (v.itemOutputs p.table p.table.outputs)) := by
  cases item with
  | column name label =>
      rw [textCount_column]
      exact Nat.zero_le _
  | expression => rw [projectItem_of_computed rfl, List.flatMap_singleton]
  | subquery => rw [projectItem_of_computed rfl, List.flatMap_singleton]

/-- An item that asks for a point column becomes one with a text, unless it is a wildcard to which
the texts are added elsewhere. -/
theorem textCount_projectItem_lt (hd : p.dialect = .mysql) (hpoints : p.table.points ≠ [])
    (h : p.asksForPoint v item = true) (hstyle : style = .replace ∨ v.ownsItem item = false) :
    textCount (v.itemOutputs p.table p.table.outputs item) <
      textCount ((p.projectItem v style item).flatMap (v.itemOutputs p.table p.table.outputs)) := by
  cases item with
  | expression => cases h
  | subquery => cases h
  | column name label =>
      rw [textCount_column]
      rw [asksForPoint] at h
      cases hw : SelectItem.wildcardOfName? name with
      | none =>
          rw [hw] at h
          rw [projectItem_column hw]
          exact textCount_namedColumn_pos hd label h
      | some w =>
          rw [hw] at h
          have howns : v.owns w = true := h
          have hwild : (SelectItem.column name label : Item).wildcard? = some w := hw
          have hreplace : style = .replace := by
            refine hstyle.resolve_right fun hno => ?_
            have hany : (SelectItem.wildcardOfName? name).any v.owns = false := hno
            simp [hw, howns] at hany
          rw [projectItem.eq_def, hwild]
          simp only [howns, if_true, hreplace]
          exact textCount_expand_pos hd hpoints _ w

/-- A list that asks for a point column has more texts after it is projected. -/
theorem textCount_projectSelect_lt (hd : p.dialect = .mysql) (hpoints : p.table.points ≠ [])
    {select : List Item} (hitem : item ∈ v.requested select) (h : p.asksForPoint v item = true) :
    textCount (v.selectOutputs p.table p.table.outputs select) <
      textCount (v.selectOutputs p.table p.table.outputs (p.projectSelect v style select)) := by
  have hle : ∀ i ∈ v.requested select, textCount (v.itemOutputs p.table p.table.outputs i) ≤
      textCount ((p.projectItem v style i).flatMap (v.itemOutputs p.table p.table.outputs)) :=
    fun i _ => textCount_projectItem_le i
  rw [textCount_requested, textCount_requested, requested_of_ne_nil (projectSelect_ne_nil select),
    projectSelect, List.flatMap_append, List.flatMap_assoc, textCount_append, textCount_flatMap,
    textCount_flatMap]
  by_cases hstyle : style = .replace ∨ v.ownsItem item = false
  · have hlt := List.sum_lt_sum _ _ hle
      ⟨item, hitem, textCount_projectItem_lt hd hpoints h hstyle⟩
    exact Nat.lt_of_lt_of_le hlt (Nat.le_add_right _ _)
  · -- the item is a wildcard that stays, and the texts stand at the end
    obtain ⟨hadditive, hown⟩ := not_or.mp hstyle
    have hadded : style = .additive ∧ (v.requested select).any v.ownsItem := by
      refine ⟨?_, List.any_eq_true.mpr ⟨item, hitem, by simpa using hown⟩⟩
      cases style with
      | additive => rfl
      | replace => exact absurd rfl hadditive
    rw [if_pos hadded]
    exact Nat.lt_of_le_of_lt (List.sum_le_sum hle)
      (Nat.lt_add_of_pos_right (textCount_pointCasts_pos hd hpoints))

end

/-! ## The whole union -/

/-- A query that asks for no point column stays as it is. -/
theorem projectLevel_of_not_asks {q : Query}
    (h : ∀ item ∈ (Visible.ofLevel q p.table).requested q.select,
      p.asksForPoint (.ofLevel q p.table) item = false) : p.projectLevel style q = q := by
  rw [projectLevel, projectSelect_of_not_asks h]
  cases q
  rfl

/-- If a query asks for a point column, then the query has more texts after it is projected than a
query with the same select list that is not. -/
theorem textCount_projectLevel_lt (style : ProjectionStyle) {q member : Query} {item : Item}
    (hd : p.dialect = .mysql) (hpoints : p.table.points ≠ []) (hreads : q.readsDerived = false)
    (hlevel : member.readsDerived = false) (hselect : member.select = q.select)
    (hitem : item ∈ (Visible.ofLevel q p.table).requested q.select)
    (hasks : p.asksForPoint (.ofLevel q p.table) item = true) :
    textCount (member.outputs p.table) < textCount ((p.projectLevel style q).outputs p.table) := by
  rw [Query.outputs_of_level hlevel, hselect,
    Query.outputs_of_level (q := p.projectLevel style q) hreads,
    textCount_selectOutputs_congr _ (.ofLevel q p.table)]
  exact textCount_projectSelect_lt hd hpoints hitem hasks

/-- **A union stays compatible only if nothing is converted.** On MySQL take a table with points and
a union whose members all have the select list of the first query and read, as that does, no derived
table. The projection, in either style, leaves all members as they are. So afterwards the first query
and the members expose equally many columns, and the same ones as text, if and only if they did so
before and the select list asks for no point column. -/
theorem project_unionCompatible_iff {q : Query} (hd : p.dialect = .mysql)
    (hpoints : p.table.points ≠ []) (hunions : q.unions ≠ []) (hreads : q.readsDerived = false)
    (hmembers : ∀ m ∈ q.unions, m.query.readsDerived = false ∧ m.query.select = q.select)
    (style : ProjectionStyle) :
    let v := Visible.ofLevel q p.table
    (p.project style .normal q).unions = q.unions ∧
      ((p.project style .normal q).UnionCompatible p.table ↔
        q.UnionCompatible p.table ∧
          ∀ item ∈ v.requested q.select, p.asksForPoint v item = false) := by
  intro v
  have hconverts : p.dialect.convertsPoints = true := by rw [hd]; rfl
  rw [project_of_level hconverts hreads]
  refine ⟨rfl, ?_⟩
  constructor
  · intro hcompatible
    have hnone : ∀ item ∈ v.requested q.select, p.asksForPoint v item = false := by
      intro item hitem
      by_contra hasks
      obtain ⟨m, hm⟩ := List.exists_mem_of_ne_nil _ hunions
      obtain ⟨hlevel, hselect⟩ := hmembers m hm
      -- each text of the query is one of the member, which has fewer
      have hle : textCount ((p.projectLevel style q).outputs p.table) ≤
          textCount (m.query.outputs p.table) :=
        textCount_le_of_imp fun i hi => (hcompatible.text i).mp hi m hm
      have hlt := textCount_projectLevel_lt style hd hpoints hreads hlevel hselect hitem
        (by simpa using hasks)
      exact absurd hlt (Nat.not_lt.mpr hle)
    rw [projectLevel_of_not_asks hnone] at hcompatible
    exact ⟨hcompatible, hnone⟩
  · rintro ⟨hcompatible, hnone⟩
    rw [projectLevel_of_not_asks hnone]
    exact hcompatible

/-- Harbours, each of them twice. -/
def harboursTwice (select : List Item) : Query where
  select
  source := some (.table "harbours" none)
  unions := [⟨true, { select, source := some (.table "harbours" none) }⟩]

/-- The points of harbours, on MySQL. -/
def harbourPoints : Projection :=
  ⟨.mysql, "harbours", [⟨"id", "int", false⟩, ⟨"geom", "point", false⟩]⟩

theorem harboursTwice_members (select : List Item) : ∀ m ∈ (harboursTwice select).unions,
    m.query.readsDerived = false ∧ m.query.select = (harboursTwice select).select := by
  intro m hm
  obtain rfl := List.mem_singleton.mp hm
  exact ⟨rfl, rfl⟩

theorem harboursTwice_project_unionCompatible_iff :
    let q := harboursTwice [.plain "id"]
    harbourPoints.dialect = .mysql ∧ harbourPoints.table.points ≠ [] ∧ q.unions ≠ [] ∧
      q.readsDerived = false ∧
      (∀ m ∈ q.unions, m.query.readsDerived = false ∧ m.query.select = q.select) ∧
      (harbourPoints.project .additive .normal q).unions = q.unions ∧
      ((harbourPoints.project .additive .normal q).UnionCompatible harbourPoints.table ↔
        q.UnionCompatible harbourPoints.table ∧
          ∀ item ∈ (Visible.ofLevel q harbourPoints.table).requested q.select,
            harbourPoints.asksForPoint (.ofLevel q harbourPoints.table) item = false) := by
  intro q
  have hpoints : harbourPoints.table.points ≠ [] := by decide +kernel
  have hunions : q.unions ≠ [] := List.cons_ne_nil _ _
  exact ⟨rfl, hpoints, hunions, rfl, harboursTwice_members _,
    project_unionCompatible_iff rfl hpoints hunions rfl (harboursTwice_members _) .additive⟩

/-- All of the harbours, twice, are a union that is compatible, and no longer so after it is
projected: with the texts added the first query exposes more columns than the member, and with the
points replaced a column is text in the first query only. -/
theorem harboursTwice_project_incompatible :
    let q := harboursTwice []
    q.UnionCompatible harbourPoints.table ∧
      ∀ style, ¬ (harbourPoints.project style .normal q).UnionCompatible harbourPoints.table := by
  intro q
  constructor
  · refine Query.unionCompatible_of_same (List.cons_ne_nil _ _) rfl (harboursTwice_members _) ?_
    intro m hm
    obtain rfl := List.mem_singleton.mp hm
    rfl
  · intro style hcompatible
    have hmem : (⟨true, { source := some (.table "harbours" none) }⟩ : UnionMember Query) ∈
        (harbourPoints.project style .normal q).unions := List.mem_singleton_self _
    cases style with
    | additive =>
        have hwidth := hcompatible.width _ hmem
        revert hwidth
        decide +kernel
    | replace =>
        have htext := (hcompatible.text 1).mp (by decide +kernel) _ hmem
        revert htext
        decide +kernel

end Projection

end PointQuery
