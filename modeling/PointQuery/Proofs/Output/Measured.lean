import PointQuery.Proofs.Output.Stacked
import PointQuery.Proofs.Projection.Commutation
import PointQuery.Proofs.Projection.Coverage
/-!
# What distances are measured from

A search measures from a column of whatever the query reads. The projection turns the points of the
table into text at the innermost level, below all searches, and whoever asks for everything hands
this text on. So the first search of a table measures from the points themselves, but a search of a
derived table, by a second search or in the query to begin with, measures from their text:
`searched_measuresText_iff`.
-/

namespace PointQuery

open Sql Projection

/-! ## The column of a distance -/

/-- What stands after the first occurrence of a word in a text. -/
def Text.after? (word : List Char) : List Char → Option (List Char)
  | [] => none
  | c :: cs =>
    if word.isPrefixOf (c :: cs) then some ((c :: cs).drop word.length) else Text.after? word cs

/-- A word is found behind a text in which its first character does not occur. -/
theorem Text.after?_append {w : Char} {word before : List Char} (rest : List Char)
    (h : w ∉ before) : Text.after? (w :: word) (before ++ (w :: word ++ rest)) = some rest := by
  induction before with
  | nil => simp [Text.after?]
  | cons c before ih =>
      obtain ⟨hne, hbefore⟩ : w ≠ c ∧ w ∉ before := by simpa using h
      rw [List.cons_append, Text.after?, if_neg (by simp [hne])]
      exact ih hbefore

/-- The column from which an expression measures a distance on MySQL: the first argument of the
call. -/
def measuredColumn? (sql : String) : Option String :=
  (Text.after? "ST_Distance(".toList sql.toList).map fun rest =>
    String.ofList (rest.takeWhile (· ≠ ','))

section

variable {s : Search} {d : Dialect} {t : Table}

theorem sql_distance_mysql (s : Search) :
    (s.distance .mysql).sql.toList =
      ("(" ++ s.unit.lengthPerDegree.toApproximate ++ " * ").toList ++
        ("ST_Distance(".toList ++ (s.column.toList ++ ", ST_PointFromText(?)))".toList)) := by
  have hsql : (s.distance .mysql).sql = "(" ++ s.unit.lengthPerDegree.toApproximate ++ " * " ++
      ("ST_Distance(" ++ s.column ++ ", " ++ "ST_PointFromText(?)" ++ ")") ++ ")" := rfl
  have hclose : ", ST_PointFromText(?)))".toList =
      ", ".toList ++ ("ST_PointFromText(?)".toList ++ (")".toList ++ ")".toList)) := by decide
  rw [hsql, hclose]
  simp only [String.toList_append, List.append_assoc]

/-- The distance of a search is measured from the column of the search. -/
theorem measuredColumn?_distance (ha : Attribute.isAttribute s.column.toList) :
    measuredColumn? (s.distance .mysql).sql = some s.column := by
  have hfactor : 'S' ∉ ("(" ++ s.unit.lengthPerDegree.toApproximate ++ " * ").toList := by
    cases s.unit <;> decide +kernel
  have hcall : "ST_Distance(".toList = 'S' :: "T_Distance(".toList := by decide
  have hcomma : ", ST_PointFromText(?)))".toList = ',' :: " ST_PointFromText(?)))".toList := by
    decide
  have hcolumn : ∀ c ∈ s.column.toList, decide (c ≠ ',') = true := by
    refine Attribute.forall_of_isAttribute ?_ (by decide) ha
    rintro c hc
    refine decide_eq_true ?_
    rintro rfl
    exact absurd hc (by decide)
  rw [measuredColumn?, sql_distance_mysql, hcall, Text.after?_append _ hfactor, hcomma,
    Option.map_some, List.takeWhile_append_of_pos hcolumn]
  simp

/-- A distance is not the text of a point. -/
theorem isPointText_distance (t : Table) (s : Search) :
    t.isPointText (s.distance d).sql = false := by
  have hopen : ∃ rest, (s.distance d).sql.toList = '(' :: rest := by
    refine ⟨(s.distance d).sql.toList.tail, ?_⟩
    simp [Search.distance, Fragment.scaled]
  obtain ⟨rest, hrest⟩ := hopen
  refine List.any_eq_false.mpr fun c _ => ?_
  simp [isTextFormOf, hrest]

end

/-! ## Levels that measure from text -/

namespace Sql

/-- The column from which an item of a select list measures a distance. -/
def SelectItem.measured? : Item → Option String
  | .column .. => none
  | .expression fragment _ => measuredColumn? fragment.sql
  | .subquery .. => none

namespace Query

/-- The columns from which a level measures distances. -/
def measuredColumns (q : Query) : List String := q.select.filterMap SelectItem.measured?

/-- A query has a point column of the table as text in its output, under this name. -/
def ExposesText (t : Table) (name : String) (q : Query) : Prop := ⟨some name, true⟩ ∈ q.outputs t

instance (t : Table) (name : String) (q : Query) : Decidable (q.ExposesText t name) :=
  inferInstanceAs (Decidable (_ ∈ q.outputs t))

/-- A level measures a distance from a column that it has as text from the derived table which it
reads. -/
def MeasuresText (t : Table) (q : Query) : Prop :=
  ∃ inner ∈ q.derivedTables.head?, ∃ column ∈ q.measuredColumns,
    inner.ExposesText t (lastSegment column)

instance (t : Table) (q : Query) : Decidable (q.MeasuresText t) :=
  inferInstanceAs (Decidable (∃ inner ∈ q.derivedTables.head?, ∃ column ∈ q.measuredColumns,
    inner.ExposesText t (lastSegment column)))

/-- The levels of a query: the query itself and the derived tables inside, the outermost first. -/
def levels (q : Query) : List Query := q :: q.derivedTables

/-- A level asks for all columns of what it reads, by an empty select list or by a wildcard. -/
def AsksForAll (t : Table) (q : Query) : Prop :=
  ((Visible.ofLevel q t).requested q.select).any (Visible.ofLevel q t).ownsItem = true

instance (t : Table) (q : Query) : Decidable (q.AsksForAll t) :=
  inferInstanceAs (Decidable (_ = true))

/-- The query selects all of a derived table and nothing else. -/
def HandsOn (q inner : Query) : Prop :=
  ∃ label, q.source = some (.derived inner label) ∧ q.select = [.wildcardOf label]

end Query

end Sql

section

variable {t : Table} {p : Projection} {q inner : Query} {s : Search} {d : Dialect}
  {label name : String} {c : Column}

theorem measuresText_of_derived (h : q.source = some (.derived inner label)) :
    q.MeasuresText t ↔ ∃ column ∈ q.measuredColumns, inner.ExposesText t (lastSegment column) := by
  simp [Query.MeasuresText, Query.derivedTables_of_derived h]

theorem not_measuresText_of_level (h : q.readsDerived = false) : ¬ q.MeasuresText t := by
  simp [Query.MeasuresText, Query.derivedTables_of_level h]

theorem measuredColumns_measure (ha : Attribute.isAttribute s.column.toList) (q : Query) :
    (s.measure .mysql q).measuredColumns = q.measuredColumns ++ [s.column] := by
  have hdistance : SelectItem.measured? (.expression (s.distance .mysql) (some distanceColumn)) =
      some s.column := measuredColumn?_distance ha
  rw [Query.measuredColumns, Query.measuredColumns]
  by_cases hselect : q.select = []
  · have hstar : SelectItem.measured? (.plain "*") = none := rfl
    simp [measure_of_nil hselect, hselect, hstar, hdistance]
  · simp [measure_of_ne_nil hselect, hdistance]

/-- To measure a query exposes no text that it did not expose. -/
theorem exposesText_measure (s : Search) :
    (s.measure d q).ExposesText t name ↔ q.ExposesText t name := by
  simp [Query.ExposesText, outputs_measure, isPointText_distance]

/-! ### Handing on -/

theorem restrict_handsOn (s : Search) (d : Dialect) (q : Query) :
    (s.restrict d q).HandsOn (s.measure d q) := ⟨distanceAlias, rfl, rfl⟩

theorem Sql.Query.HandsOn.readsDerived (h : q.HandsOn inner) : q.readsDerived = true := by
  obtain ⟨label, hs, -⟩ := h
  rw [Query.readsDerived, Query.derivedLabel?, hs]
  rfl

theorem Sql.Query.HandsOn.mapInnermost (h : q.HandsOn inner) (f : Query → Query) :
    (q.mapInnermost f).HandsOn (inner.mapInnermost f) := by
  obtain ⟨label, hs, hselect⟩ := h
  rw [Query.mapInnermost_of_derived hs]
  exact ⟨label, rfl, hselect⟩

theorem Sql.Query.HandsOn.levels (h : q.HandsOn inner) : q.levels = q :: inner.levels := by
  obtain ⟨label, hs, -⟩ := h
  rw [Query.levels, Query.levels, Query.derivedTables_of_derived hs]

theorem Sql.Query.HandsOn.exposesText_iff (h : q.HandsOn inner) :
    q.ExposesText t name ↔ inner.ExposesText t name := by
  obtain ⟨label, hs, hselect⟩ := h
  rw [Query.ExposesText, outputs_of_wildcardOf hs hselect, Query.ExposesText]

theorem Sql.Query.HandsOn.measuredColumns (h : q.HandsOn inner) : q.measuredColumns = [] := by
  obtain ⟨label, -, hselect⟩ := h
  rw [Query.measuredColumns, hselect]
  rfl

theorem Sql.Query.HandsOn.not_measuresText (h : q.HandsOn inner) : ¬ q.MeasuresText t := by
  obtain ⟨label, hs, -⟩ := id h
  simp [measuresText_of_derived hs, h.measuredColumns]

/-! ### One search -/

/-- A query that hands on a derived table measures from text, once it is searched, if and only if it
exposes the column of the search as text. -/
theorem measuresText_measure (ha : Attribute.isAttribute s.column.toList) (h : q.HandsOn inner) :
    (s.measure .mysql q).MeasuresText t ↔ q.ExposesText t (lastSegment s.column) := by
  obtain ⟨label, hs, -⟩ := id h
  have hsource : (s.measure .mysql q).source = some (.derived inner label) := hs
  rw [measuresText_of_derived hsource, measuredColumns_measure ha, h.measuredColumns,
    h.exposesText_iff]
  simp

/-- A search of such a query adds a level that measures from text if the query exposes its column as
text, and none otherwise. -/
theorem measuresText_restrict (ha : Attribute.isAttribute s.column.toList) (h : q.HandsOn inner) :
    (∃ level ∈ (s.restrict .mysql q).levels, level.MeasuresText t) ↔
      q.ExposesText t (lastSegment s.column) ∨ ∃ level ∈ q.levels, level.MeasuresText t := by
  have hrestrict := restrict_handsOn s .mysql q
  have hderived : (s.measure .mysql q).derivedTables = q.derivedTables :=
    Query.derivedTables_congr rfl
  rw [hrestrict.levels, Query.levels, Query.levels, hderived]
  simp only [List.exists_mem_cons_iff, hrestrict.not_measuresText, h.not_measuresText, false_or,
    measuresText_measure ha h]

/-! ### A stack of searches -/

theorem stack_handsOn (table : String) (h : q.HandsOn inner) (searches : List Search) :
    ∃ inner', (Search.stack d table q searches).HandsOn inner' := by
  cases searches with
  | nil => exact ⟨inner, h⟩
  | cons s earlier => exact ⟨_, restrict_handsOn s d _⟩

theorem exposesText_stack (table : String) (h : q.HandsOn inner) (searches : List Search) :
    (Search.stack d table q searches).ExposesText t name ↔ q.ExposesText t name := by
  induction searches with
  | nil => rfl
  | cons s earlier ih =>
      obtain ⟨inner', hinner⟩ := stack_handsOn (d := d) table h earlier
      rw [Search.stack, Query.readingFrom_of_derived hinner.readsDerived,
        (restrict_handsOn s d _).exposesText_iff, exposesText_measure, ih]

/-- Among the levels that searches add, those measure from text whose column the query exposes as
text. -/
theorem measuresText_stack (table : String) (h : q.HandsOn inner) {searches : List Search}
    (ha : ∀ s ∈ searches, Attribute.isAttribute s.column.toList) :
    (∃ level ∈ (Search.stack .mysql table q searches).levels, level.MeasuresText t) ↔
      (∃ s ∈ searches, q.ExposesText t (lastSegment s.column)) ∨
        ∃ level ∈ q.levels, level.MeasuresText t := by
  induction searches with
  | nil => simp [Search.stack]
  | cons s earlier ih =>
      obtain ⟨has, hearlier⟩ := List.forall_mem_cons.mp ha
      obtain ⟨inner', hinner⟩ := stack_handsOn (d := .mysql) table h earlier
      rw [Search.stack, Query.readingFrom_of_derived hinner.readsDerived,
        measuresText_restrict has hinner, exposesText_stack table h, ih hearlier,
        List.exists_mem_cons_iff, or_assoc]

/-- Searches of a query that reads a derived table are searches of it with its innermost level
changed. -/
theorem mapInnermost_stack (table : String) (f : Query → Query) (h : q.readsDerived = true)
    (searches : List Search) :
    (Search.stack d table q searches).mapInnermost f =
      Search.stack d table (q.mapInnermost f) searches := by
  have hsource : (q.mapInnermost f).readsDerived = true := by
    obtain ⟨inner, label, hs⟩ := Query.readsDerived_eq_true h
    rw [Query.mapInnermost_of_derived hs]
    rfl
  induction searches with
  | nil => rfl
  | cons s earlier ih =>
      have hreads : (Search.stack d table q earlier).readsDerived = true :=
        (innermost_stack_of_derived h earlier).1
      have hreads' : (Search.stack d table (q.mapInnermost f) earlier).readsDerived = true :=
        (innermost_stack_of_derived hsource earlier).1
      rw [Search.stack, Search.stack, Query.readingFrom_of_derived hreads,
        Query.readingFrom_of_derived hreads', ← ih, Query.mapInnermost_of_derived rfl,
        mapInnermost_measure f hreads]
      rfl

/-! ## Text that is handed on -/

/-- A wildcard over what a level reads brings all of it along. -/
theorem subset_selectOutputs {v : Visible} {columns : List OutputColumn} {select : List Item}
    (h : (v.requested select).any v.ownsItem = true) :
    columns ⊆ v.selectOutputs t columns select := by
  have howned : ∀ item : Item, v.ownsItem item = true → columns ⊆ v.itemOutputs t columns item := by
    intro item hitem
    obtain ⟨name, label, rfl, rfl | rfl⟩ := ownsItem_iff.mp hitem
    · exact List.subset_append_left _ _
    · rw [Visible.itemOutputs, wildcardOfName?_table]
      simp
  intro column hcolumn
  rw [Visible.selectOutputs]
  by_cases hselect : select = []
  · rw [hselect]
    exact List.mem_flatMap.mpr ⟨.plain "*", List.mem_singleton_self _,
      howned _ (ownsItem_column_iff.mpr (.inl rfl)) hcolumn⟩
  · obtain ⟨item, hitem, howns⟩ := List.any_eq_true.mp h
    rw [requested_of_ne_nil hselect] at hitem
    rw [if_neg (by simpa using hselect)]
    exact List.mem_flatMap.mpr ⟨item, hitem, howned item howns hcolumn⟩

/-- A level that asks for everything exposes what its derived table exposes as text. -/
theorem exposesText_of_asksForAll (h : q.source = some (.derived inner label))
    (hall : q.AsksForAll t) (htext : inner.ExposesText t name) : q.ExposesText t name := by
  rw [Query.ExposesText, Query.outputs_of_derived h]
  exact subset_selectOutputs hall htext

/-- A level that asks for everything still does so when it is measured. -/
theorem asksForAll_measure (s : Search) (hall : q.AsksForAll t) : (s.measure d q).AsksForAll t := by
  have hvisible : Visible.ofLevel (s.measure d q) t = Visible.ofLevel q t := rfl
  rw [Query.AsksForAll, hvisible]
  by_cases hselect : q.select = []
  · have hstar : (Visible.ofLevel q t).ownsItem (.plain "*") = true :=
      ownsItem_column_iff.mpr (.inl rfl)
    simp [measure_of_nil hselect, Visible.requested, hstar]
  · rw [Query.AsksForAll, requested_of_ne_nil hselect] at hall
    simp [measure_of_ne_nil hselect, Visible.requested, hall]

/-- A level that asks for all columns of the table exposes its points as text, once it is
projected. -/
theorem exposesText_projectLevel (hd : p.dialect = .mysql) (hlevel : q.readsDerived = false)
    (hall : q.AsksForAll p.table) (hc : c ∈ p.table.points) :
    (p.projectLevel .replace q).ExposesText p.table c.name := by
  let v := Visible.ofLevel q p.table
  obtain ⟨hcolumn, hpoint⟩ := Table.mem_points.mp hc
  obtain ⟨item, hitem, howns⟩ := List.any_eq_true.mp hall
  -- the wildcard is replaced by the columns of the table, and this one by its text
  have hcast : p.cast (v.primary ++ "." ++ c.name) c.name ∈
      p.projectSelect v .replace q.select := by
    obtain ⟨w, hw, hv⟩ : ∃ w, item.wildcard? = some w ∧ v.owns w = true := by
      simpa [Visible.ownsItem, Option.any_eq_true] using howns
    have hempty : p.table.columns.isEmpty = false := by
      simpa using List.ne_nil_of_mem hcolumn
    rw [projectSelect_replace]
    refine List.mem_flatMap.mpr ⟨item, hitem, ?_⟩
    rw [projectItem.eq_def, hw]
    simp only [hv, if_true, expand, hempty]
    refine List.mem_append_left _ (List.mem_map.mpr ⟨c, hcolumn, ?_⟩)
    rw [expandColumn, if_pos hpoint]
  have htext : p.table.isPointText ("ST_AsText(" ++ (v.primary ++ "." ++ c.name) ++ ")") = true :=
    List.any_eq_true.mpr ⟨c, hc, isTextFormOf_asText (.inr ⟨v.primary, rfl⟩)⟩
  have houtput : (⟨some c.name, true⟩ : OutputColumn) ∈
      v.itemOutputs p.table p.table.outputs (p.cast (v.primary ++ "." ++ c.name) c.name) := by
    rw [cast_mysql hd, asText, Visible.itemOutputs]
    simp [htext]
  have hprojected : p.projectSelect v .replace q.select ≠ [] := projectSelect_ne_nil _
  rw [Query.ExposesText, Query.outputs_of_level (q := p.projectLevel .replace q) hlevel,
    Visible.selectOutputs]
  show _ ∈ (if (p.projectSelect v .replace q.select).isEmpty then _ else _ : List Item).flatMap _
  rw [if_neg (by simpa using hprojected)]
  exact List.mem_flatMap.mpr ⟨_, hcast, houtput⟩

/-- If all levels of a query ask for everything, the query exposes the points of the table as text,
once its innermost level is projected. -/
theorem exposesText_mapInnermost (hd : p.dialect = .mysql)
    (hall : ∀ level ∈ q.levels, level.AsksForAll p.table) (hc : c ∈ p.table.points) :
    (q.mapInnermost (p.projectLevel .replace)).ExposesText p.table c.name := by
  induction q using Query.chain_induction with
  | level q hq =>
      rw [Query.mapInnermost_of_level hq]
      exact exposesText_projectLevel hd hq (hall q List.mem_cons_self) hc
  | derived q inner label hq ih =>
      rw [Query.levels, Query.derivedTables_of_derived hq] at hall
      obtain ⟨hlevel, hinner⟩ := List.forall_mem_cons.mp hall
      have hvisible : Visible.ofLevel
          { q with source := some (.derived (inner.mapInnermost (p.projectLevel .replace)) label) }
          p.table = Visible.ofLevel q p.table := by
        simp only [Visible.ofLevel, Query.sourceAlias, Query.joinAliases, hq]
      rw [Query.mapInnermost_of_derived hq]
      refine exposesText_of_asksForAll rfl ?_ (ih hinner)
      rw [Query.AsksForAll, hvisible]
      exact hlevel

/-! ## The compiled searches -/

/-- The column of a search is a point column of the table, qualified or not. -/
def Search.OnPoint (t : Table) (s : Search) : Prop :=
  ∃ column ∈ t.points, lastSegment s.column = column.name

/-- The first search measures from text if and only if the query reads a derived table. -/
theorem measuresText_first (hd : p.dialect = .mysql) (ha : Attribute.isAttribute s.column.toList)
    (hpoint : s.OnPoint p.table) (hall : ∀ derived ∈ q.derivedTables, derived.AsksForAll p.table) :
    (∃ level ∈ ((s.measure .mysql q).mapInnermost (p.projectLevel .replace)).levels,
      level.MeasuresText p.table) ↔ q.readsDerived = true := by
  cases hq : q.readsDerived with
  | false =>
      have hlevel : (p.projectLevel .replace (s.measure .mysql q)).readsDerived = false := hq
      have hmeasured : (s.measure .mysql q).readsDerived = false := hq
      rw [Query.mapInnermost_of_level hmeasured, Query.levels, Query.derivedTables_of_level hlevel]
      simp [not_measuresText_of_level hlevel]
  | true =>
      obtain ⟨inner, label, hs⟩ := Query.readsDerived_eq_true hq
      obtain ⟨column, hcolumn, hname⟩ := hpoint
      rw [Query.derivedTables_of_derived hs] at hall
      refine iff_of_true ⟨_, List.mem_cons_self, ?_⟩ rfl
      rw [mapInnermost_measure _ hq, Query.mapInnermost_of_derived hs, measuresText_of_derived rfl,
        measuredColumns_measure ha]
      refine ⟨s.column, List.mem_append_right _ List.mem_cons_self, ?_⟩
      rw [hname]
      exact exposesText_mapInnermost hd hall hcolumn

/-- Some level inside searches measures from text if and only if the query reads a derived table, or
is measured to expose the column of a later search as text. -/
theorem measuresText_searched (table : String) (hd : p.dialect = .mysql) {first : Search}
    {later : List Search}
    (hvalid : ∀ s ∈ later ++ [first], Attribute.isAttribute s.column.toList ∧ s.OnPoint p.table)
    (hall : ∀ derived ∈ q.derivedTables, derived.AsksForAll p.table) :
    (∃ level ∈ (Search.stack .mysql table
        ((first.restrict .mysql q).mapInnermost (p.projectLevel .replace)) later).levels,
      level.MeasuresText p.table) ↔
      q.readsDerived = true ∨ ∃ s ∈ later,
        ((first.measure .mysql q).mapInnermost (p.projectLevel .replace)).ExposesText p.table
          (lastSegment s.column) := by
  obtain ⟨hlater, hfirst⟩ := List.forall_mem_append.mp hvalid
  obtain ⟨ha, hpoint⟩ := hfirst first List.mem_cons_self
  have hhands := (restrict_handsOn first .mysql q).mapInnermost (p.projectLevel .replace)
  rw [measuresText_stack table hhands fun s hs => (hlater s hs).1, or_comm, hhands.levels,
    List.exists_mem_cons_iff, measuresText_first hd ha hpoint hall]
  simp only [hhands.not_measuresText, false_or, hhands.exposesText_iff]

/-- The projection of searches changes the query inside the first of them. -/
theorem projected_searched {c c' : Compiler} (hs : c.Searched c') (mode : ProjectionMode)
    {later : List Search} {first : Search}
    (hquery : c'.query = Search.stack .mysql c.table.name c.query (later ++ [first])) :
    c'.projected .mysql mode c'.query =
      Search.stack .mysql c.table.name
        ((first.restrict .mysql (c.query.readingFrom c.table.name)).mapInnermost
          ((c.projection .mysql).projectLevel .replace)) later := by
  have htable : c'.table = c.table := by rw [hs.frame]
  have hprojection : c'.projection .mysql = c.projection .mysql := by
    rw [Compiler.projection, Compiler.projection, htable]
  rw [stack_append] at hquery
  have hreads : c'.query.readsDerived = true := by
    rw [hquery]
    exact (innermost_stack_of_derived rfl later).1
  rw [Compiler.projected, Query.readingFrom_of_derived hreads, project_of_derived rfl hreads,
    hprojection, hquery, mapInnermost_stack c.table.name _ rfl]
  rfl

/-- The innermost level of projected searches of a query that reads no derived table is the query as
it is measured and projected. -/
theorem innermost_searched (table : String) (hlevel : q.readsDerived = false) (first : Search)
    (later : List Search) :
    (Search.stack .mysql table
      ((first.restrict .mysql q).mapInnermost (p.projectLevel .replace)) later).innermost =
        p.projectLevel .replace (first.measure .mysql q) := by
  have hhands := (restrict_handsOn first .mysql q).mapInnermost (p.projectLevel .replace)
  have hmeasured : (first.measure .mysql q).readsDerived = false := hlevel
  have hkeeps := p.readsDerived_projectLevel .replace
  rw [(innermost_stack_of_derived hhands.readsDerived later).2, Query.innermost_mapInnermost hkeeps,
    Query.innermost_of_derived rfl, Query.innermost_of_level hmeasured]

/-- A level of the table that asks for everything exposes the column of any search as text. -/
theorem exists_exposesText_iff (hd : p.dialect = .mysql) (hlevel : q.readsDerived = false)
    (hall : q.AsksForAll p.table) (first : Search) {later : List Search}
    (hlater : ∀ s ∈ later, s.OnPoint p.table) :
    (∃ s ∈ later, (p.projectLevel .replace (first.measure .mysql q)).ExposesText p.table
      (lastSegment s.column)) ↔ later ≠ [] := by
  constructor
  · rintro ⟨s, hs, -⟩
    exact List.ne_nil_of_mem hs
  · intro hne
    obtain ⟨s, hs⟩ := List.exists_mem_of_ne_nil _ hne
    obtain ⟨column, hcolumn, hname⟩ := hlater s hs
    refine ⟨s, hs, ?_⟩
    rw [hname]
    exact exposesText_projectLevel hd hlevel (asksForAll_measure first hall) hcolumn

end

/-- **Searches of a derived table measure from text.** Take a query on MySQL, all of whose derived
tables ask for everything, and any number of searches that succeed. They are a stack of valid
searches. If there is at least one and all are on point columns of the table, then some level of the
compiled query measures a distance from a column that it has as text from a derived table, if and
only if the query had a derived table to begin with, or the column of a search other than the first
is exposed as text by the innermost level. If the query itself asks for everything too, the latter
is so for any second search. -/
theorem searched_measuresText_iff {c c' : Compiler} (hd : c.dialect = .ok .mysql)
    (hs : c.Searched c') (hall : ∀ derived ∈ c.query.derivedTables, derived.AsksForAll c.table)
    (mode : ProjectionMode) :
    let stack := Search.stack .mysql c.table.name c.query
    let compiled := c'.projected .mysql mode c'.query
    (∃ searches, (∀ s ∈ searches, Attribute.isAttribute s.column.toList) ∧
      c'.query = stack searches) ∧
    c'.compileIn mode =
      .ok ⟨Dialect.mysql.writePlaceholders compiled.render.sql, compiled.render.params⟩ ∧
    ∀ later first, c'.query = stack (later ++ [first]) →
      (∀ s ∈ later ++ [first], Attribute.isAttribute s.column.toList ∧ s.OnPoint c.table) →
        ((∃ level ∈ compiled.levels, level.MeasuresText c.table) ↔
          c.query.readsDerived = true ∨
            ∃ s ∈ later, compiled.innermost.ExposesText c.table (lastSegment s.column)) ∧
        ((c.query.readingFrom c.table.name).AsksForAll c.table →
          ((∃ level ∈ compiled.levels, level.MeasuresText c.table) ↔
            c.query.readsDerived = true ∨ later ≠ [])) := by
  intro stack compiled
  have hd' : c'.dialect = .ok .mysql := by rw [hs.frame]; exact hd
  refine ⟨hs.exists_valid_stack hd, Compiler.statement_eq hd' mode c'.query, ?_⟩
  intro later first hquery hvalid
  let base := c.query.readingFrom c.table.name
  have hbase : base.readsDerived = c.query.readsDerived := Query.readsDerived_readingFrom _ _
  have hderived : base.derivedTables = c.query.derivedTables := Query.derivedTables_readingFrom _ _
  have hcompiled := projected_searched hs mode hquery
  have hlevels := measuresText_searched (p := c.projection .mysql) (q := base) c.table.name rfl
    hvalid (by rw [hderived]; exact hall)
  rw [← hcompiled, hbase] at hlevels
  cases hq : c.query.readsDerived with
  | true =>
      have hsome : ∃ level ∈ compiled.levels, level.MeasuresText c.table := hlevels.mpr (.inl hq)
      exact ⟨iff_of_true hsome (.inl rfl), fun _ => iff_of_true hsome (.inl rfl)⟩
  | false =>
      have hlevel : base.readsDerived = false := hbase.trans hq
      have hmeasured : (first.measure .mysql base).readsDerived = false := hlevel
      have hinnermost : compiled.innermost = _ :=
        (congrArg Query.innermost hcompiled).trans
          (innermost_searched c.table.name hlevel first later)
      rw [Query.mapInnermost_of_level hmeasured, hq] at hlevels
      rw [hinnermost]
      refine ⟨hlevels, fun hbaseAll => ?_⟩
      have hlater : ∀ s ∈ later, s.OnPoint c.table := fun s hmem =>
        (hvalid s (List.mem_append_left _ hmem)).2
      exact hlevels.trans (or_congr_right (exists_exposesText_iff rfl hlevel hbaseAll first hlater))

/-- A table of wells, of which everything is asked for through a derived table. -/
def wellsListed : Compiler where
  query := { source := some (.derived { source := some (.table "wells" none) } "w") }
  table := ⟨"wells", [⟨"id", "int", false⟩, ⟨"geom", "point", false⟩]⟩
  driver := "mysql"

/-- The wells around a place. -/
def wellsNearby : Search := { origin := ⟨.ofInt 10, .ofInt 20⟩, column := "geom" }

theorem wellsListed_dialect : wellsListed.dialect = .ok .mysql := by decide +kernel

theorem wellsNearby_valid :
    Attribute.isAttribute wellsNearby.column.toList ∧ wellsNearby.OnPoint wellsListed.table := by
  refine ⟨by decide, ⟨"geom", "point", false⟩, ?_, ?_⟩
  · decide
  · decide

theorem wellsListed_searched :
    wellsListed.Searched (Compiler.restrict wellsNearby .mysql wellsListed.fillSource) :=
  Compiler.Searched.refl.search_valid wellsListed_dialect wellsNearby_valid.1

theorem wells_searched_measuresText_iff :
    let c := wellsListed
    let c' := Compiler.restrict wellsNearby .mysql c.fillSource
    let stack := Search.stack .mysql c.table.name c.query
    let compiled := c'.projected .mysql .normal c'.query
    c.dialect = .ok .mysql ∧ c.Searched c' ∧
      (∀ derived ∈ c.query.derivedTables, derived.AsksForAll c.table) ∧
      (∃ searches, (∀ s ∈ searches, Attribute.isAttribute s.column.toList) ∧
        c'.query = stack searches) ∧
      c'.compileIn .normal =
        .ok ⟨Dialect.mysql.writePlaceholders compiled.render.sql, compiled.render.params⟩ ∧
      c'.query = stack ([] ++ [wellsNearby]) ∧
      ((∃ level ∈ compiled.levels, level.MeasuresText c.table) ↔
        c.query.readsDerived = true ∨ ∃ s ∈ ([] : List Search),
          compiled.innermost.ExposesText c.table (lastSegment s.column)) ∧
      ((c.query.readingFrom c.table.name).AsksForAll c.table →
        ((∃ level ∈ compiled.levels, level.MeasuresText c.table) ↔
          c.query.readsDerived = true ∨ ([] : List Search) ≠ [])) := by
  intro c c' stack compiled
  have hall : ∀ derived ∈ c.query.derivedTables, derived.AsksForAll c.table := by decide +kernel
  have hvalid : ∀ s ∈ [] ++ [wellsNearby],
      Attribute.isAttribute s.column.toList ∧ s.OnPoint c.table := by
    intro s hs
    obtain rfl := List.mem_singleton.mp hs
    exact wellsNearby_valid
  obtain ⟨hstack, hcompile, hiff⟩ :=
    searched_measuresText_iff wellsListed_dialect wellsListed_searched hall .normal
  exact ⟨wellsListed_dialect, wellsListed_searched, hall, hstack, hcompile, rfl,
    hiff [] wellsNearby rfl hvalid⟩

/-- One search of the wells behind a derived table, which asks for everything, measures from the
text of their places. -/
theorem wellsListed_search_measuresText :
    let c := wellsListed
    c.dialect = .ok .mysql ∧
      (∀ level ∈ (c.query.readingFrom c.table.name).levels, level.select = []) ∧
      wellsNearby.OnPoint c.table ∧
      ∃ c' st, c.Searched c' ∧ c'.compileIn .normal = .ok st ∧
        let compiled := c'.projected .mysql .normal c'.query
        ∃ level ∈ compiled.levels, ∃ inner ∈ level.derivedTables.head?,
          level.measuredColumns = ["geom"] ∧ inner.ExposesText c.table "geom" ∧
            level.MeasuresText c.table := by
  intro c
  have hd := wellsListed_dialect
  refine ⟨hd, by decide, wellsNearby_valid.2, _, _, wellsListed_searched,
    Compiler.statement_eq hd .normal _, ?_⟩
  decide +kernel

end PointQuery
