import PointQuery.CommandLine.Run
import PointQuery.Proofs.Output.Columns
import PointQuery.Proofs.Projection.Commutation
import PointQuery.Proofs.Projection.Foreign
import PointQuery.Proofs.Search.Calls
import PointQuery.Proofs.Text.Trim
/-!
# Blanks around the columns of a command line

Columns may be listed with blanks after the commas. SQL does not mind them, but they belong to the
name under which a column is looked up, unless a qualifier keeps them away from its last part. So a
point column that is found by its name alone may not be found by the name with blanks around it, and
then it does not come back as text. `padded_sameTexts_iff` says when it does.
-/

namespace PointQuery

open Sql

/-! ## Padded names -/

/-- The name of a column as it stands in a list, with blanks around it. -/
structure PaddedName where
  before : String
  name : String
  after : String
  blank_before : ∀ c ∈ before.toList, Text.isBlank c = true
  blank_after : ∀ c ∈ after.toList, Text.isBlank c = true

namespace PaddedName

variable {w : PaddedName}

/-- The name together with the blanks. -/
def text (w : PaddedName) : String := w.before ++ w.name ++ w.after

/-- The blanks before the last part of the name: a qualifier keeps them away. -/
def front (w : PaddedName) : String := if '.' ∈ w.name.toList then "" else w.before

/-- No blanks stand next to the last part of the name. -/
def Apart (w : PaddedName) : Prop := w.front = "" ∧ w.after = ""

/-- What is looked up is the last part of the name with the blanks next to it. -/
theorem lastSegment_text (w : PaddedName) :
    lastSegment w.text = w.front ++ lastSegment w.name ++ w.after := by
  have hundotted : ∀ s : String, (∀ c ∈ s.toList, Text.isBlank c = true) → '.' ∉ s.toList := by
    intro s hs hdot
    exact absurd (hs '.' hdot) (by decide)
  rw [text, lastSegment_append_undotted _ (hundotted _ w.blank_after),
    lastSegment_undotted_append _ (hundotted _ w.blank_before), front]

theorem lastSegment_text_of_apart (h : w.Apart) : lastSegment w.text = lastSegment w.name := by
  rw [lastSegment_text, h.1, h.2, String.empty_append, String.append_empty]

/-- Blanks next to the last part would be trimmed from it. -/
theorem apart_of_trimmed (h : Text.trim (lastSegment w.text) = lastSegment w.text) : w.Apart := by
  have hfront : ∀ c ∈ w.front.toList, Text.isBlank c = true := by
    intro c hc
    rw [front] at hc
    split at hc
    · cases hc
    · exact w.blank_before c hc
  have hchars := congrArg String.toList h
  rw [Text.toList_trim, lastSegment_text, String.toList_append, String.toList_append] at hchars
  obtain ⟨hbefore, hafter⟩ := Text.eq_nil_of_trimmed hfront w.blank_after hchars
  exact ⟨String.toList_eq_nil_iff.mp hbefore, String.toList_eq_nil_iff.mp hafter⟩

/-- Blanks make no wildcard of a name that is none. -/
theorem wildcardOfName?_text (h : SelectItem.wildcardOfName? w.name = none) :
    SelectItem.wildcardOfName? w.text = none := by
  rw [wildcardOfName?_eq_none_iff] at h ⊢
  intro hstar
  have hapart : w.Apart := apart_of_trimmed (by rw [hstar]; decide)
  exact h ((lastSegment_text_of_apart hapart).symm.trans hstar)

/-- In a table whose columns have no blanks at the ends of their names, a name with blanks next to
its last part finds nothing. -/
theorem apart_of_hasPoint {t : Table} (ht : ∀ c ∈ t.columns, Text.trim c.name = c.name)
    (h : t.hasPoint w.text = true) : w.Apart := by
  rw [Table.hasPoint, Option.any_eq_true] at h
  obtain ⟨c, hc, -⟩ := h
  obtain ⟨hmem, hname⟩ := Table.column?_eq_some hc
  exact apart_of_trimmed (hname ▸ ht c hmem)

/-- In such a table the blanks make a difference only where a point column is asked for. -/
theorem hasPoint_text_eq_iff {t : Table} (ht : ∀ c ∈ t.columns, Text.trim c.name = c.name) :
    t.hasPoint w.text = t.hasPoint w.name ↔ (t.hasPoint w.name = true → w.Apart) := by
  constructor
  · intro hsame hpoint
    exact apart_of_hasPoint ht (hsame.trans hpoint)
  · intro himp
    by_cases hapart : w.Apart
    · rw [Table.hasPoint, lastSegment_text_of_apart hapart, ← Table.hasPoint]
    · rw [eq_false_of_ne_true (mt himp hapart),
        eq_false_of_ne_true (mt (apart_of_hasPoint ht) hapart)]

end PaddedName

/-! ## Where a select list has texts -/

/-- Whether an item gives a point column of the table as text. -/
def Table.givesText (t : Table) : Item → Bool
  | .column .. => false
  | .expression fragment _ => t.isPointText fragment.sql
  | .subquery .. => false

/-- For each place of the select list that reads the table, whether a point column stands there as
text. -/
def Sql.Query.textPlaces (t : Table) (q : Query) : List Bool := q.innermost.select.map t.givesText

namespace Projection

variable {p : Projection} {v : Visible} {style : ProjectionStyle}

/-- What becomes of an item that is no wildcard. -/
def convertItem (p : Projection) : Item → Item
  | .column name label => p.namedColumn name label
  | other => other

/-- A list without wildcards is projected item by item. -/
theorem projectSelect_of_no_wildcards {select : List Item} (hne : select ≠ [])
    (h : ∀ item ∈ select, item.wildcard? = none) :
    p.projectSelect v style select = select.map p.convertItem := by
  have hitems : select.flatMap (p.projectItem v style) = select.map p.convertItem := by
    rw [← List.flatMap_pure_eq_map]
    refine List.flatMap_congr fun item hitem => ?_
    rw [projectItem.eq_def, h item hitem]
    cases item with
    | column => rfl
    | expression => rfl
    | subquery => rfl
  have howns : select.any v.ownsItem = false := by
    rw [List.any_eq_false]
    intro item hitem
    rw [Visible.ownsItem, h item hitem]
    simp
  rw [projectSelect, requested_of_ne_nil hne, hitems, howns, if_neg (by simp), List.append_nil]

/-- A name gives a text exactly if the table has a point of it. -/
theorem givesText_namedColumn (hd : p.dialect = .mysql) (name : String) (label : Option String) :
    p.table.givesText (p.namedColumn name label) = p.table.hasPoint name := by
  rw [namedColumn_eq, cast_mysql hd]
  cases hpoint : p.table.hasPoint name with
  | false => rfl
  | true =>
      rw [Table.hasPoint, Option.any_eq_true] at hpoint
      obtain ⟨c, hc, hcp⟩ := hpoint
      obtain ⟨hmem, hname⟩ := Table.column?_eq_some hc
      exact List.any_eq_true.mpr ⟨c, Table.mem_points.mpr ⟨hmem, hcp⟩,
        isTextFormOf_asText (by rw [hname]; exact lastSegment_suffix name)⟩

/-- Where names are asked for, and behind them something computed, there is a text at each name of
which the table has a point. -/
theorem textPlaces_project (hd : p.dialect = .mysql) {q : Query} {names : List String}
    {computed : List Item} (hne : names ≠ [])
    (hnames : ∀ name ∈ names, SelectItem.wildcardOfName? name = none)
    (hcomputed : ∀ item ∈ computed, isComputed item = true)
    (hselect : q.innermost.select = names.map SelectItem.plain ++ computed) :
    (p.project style .normal q).textPlaces p.table =
      names.map p.table.hasPoint ++ computed.map p.table.givesText := by
  have hlist : q.innermost.select ≠ [] := by
    rw [hselect]
    exact List.append_ne_nil_of_left_ne_nil (by simpa using hne) _
  have hwild : ∀ item ∈ q.innermost.select, item.wildcard? = none := by
    rw [hselect, List.forall_mem_append, List.forall_mem_map]
    refine ⟨hnames, fun item hitem => ?_⟩
    cases item with
    | column => cases hcomputed _ hitem
    | expression => rfl
    | subquery => rfl
  have hplain :
      (names.map SelectItem.plain).map (fun item => p.table.givesText (p.convertItem item)) =
        names.map p.table.hasPoint := by
    rw [List.map_map]
    exact List.map_congr_left fun name _ => givesText_namedColumn hd name none
  have hkept : computed.map (fun item => p.table.givesText (p.convertItem item)) =
      computed.map p.table.givesText := by
    refine List.map_congr_left fun item hitem => ?_
    cases item with
    | column => cases hcomputed _ hitem
    | expression => rfl
    | subquery => rfl
  rw [Query.textPlaces, innermost_project hd (.inl rfl)]
  show (p.projectSelect _ _ q.innermost.select).map _ = _
  rw [projectSelect_of_no_wildcards hlist hwild, List.map_map, hselect, List.map_append, ← hplain,
    ← hkept]
  rfl

end Projection

/-! ## The columns of a command line -/

/-- Searches keep the columns that a level asks for, and compute at most one more. -/
theorem exists_select_innermost_stack (d : Dialect) (table : String) (searches : List Search) :
    ∃ computed : List Item, (∀ item ∈ computed, isComputed item = true) ∧
      ∀ q : Query, q.readsDerived = false → q.select ≠ [] →
        (Search.stack d table q searches).innermost.select = q.select ++ computed := by
  rcases List.eq_nil_or_concat searches with rfl | ⟨later, first, rfl⟩
  · refine ⟨[], by simp, fun q hlevel _ => ?_⟩
    rw [Search.stack, Query.innermost_of_level hlevel, List.append_nil]
  · refine ⟨[.expression (first.distance d) (some distanceColumn)], by simp [isComputed], ?_⟩
    intro q hlevel hselect
    have hfilled : (q.readingFrom table).select ≠ [] := by
      rw [Query.select_readingFrom]
      exact hselect
    rw [List.concat_eq_append, innermost_stack_append hlevel,
      Projection.measure_of_ne_nil hfilled, Query.select_readingFrom]

namespace CommandLine

/-- The compiler that a command line starts with. -/
def startCompiler (t : Table) (driver : String) (config : Config) (names : List String) :
    Compiler :=
  { query := startQuery t.name names, table := t, driver, config }

/-- The compiler that some calls on it leave behind. -/
def compilerAfter (t : Table) (driver : String) (config : Config) (calls : List Action)
    (names : List String) : Compiler :=
  ((startCompiler t driver config names).runAll calls).2

/-- The query whose text that compiler gives out on MySQL. -/
def renderedQuery (t : Table) (driver : String) (config : Config) (calls : List Action)
    (names : List String) : Query :=
  let final := compilerAfter t driver config calls names
  final.projected .mysql .normal final.query

section

variable {t : Table} {driver : String} {config : Config} {calls : List Action}

/-- The compiler after some searches: its query is a stack of them, whatever the columns are. -/
theorem exists_stack_compilerAfter (t : Table) (config : Config)
    (hd : Dialect.ofDriver driver = .ok .mysql) (hcalls : ∀ call ∈ calls, call.isSearch = true) :
    ∃ searches, ∀ names, compilerAfter t driver config calls names =
      { startCompiler t driver config names with
        query := Search.stack .mysql t.name (startQuery t.name names) searches } := by
  obtain ⟨searches, hstack⟩ :=
    Compiler.exists_stack_foldl (c := startCompiler t driver config []) hd calls
  refine ⟨searches, fun names => ?_⟩
  obtain ⟨-, hafter⟩ := Compiler.runAll_searches hcalls (startCompiler t driver config [])
    (startQuery t.name names)
  rw [hstack] at hafter
  exact hafter

/-- On MySQL the compiler that searches leave behind gives out the text of its query. -/
theorem compile_compilerAfter (t : Table) (config : Config)
    (hd : Dialect.ofDriver driver = .ok .mysql) (hcalls : ∀ call ∈ calls, call.isSearch = true)
    (names : List String) :
    (compilerAfter t driver config calls names).compile =
      .ok ⟨Dialect.mysql.writePlaceholders
          (renderedQuery t driver config calls names).render.sql,
        (renderedQuery t driver config calls names).render.params⟩ := by
  obtain ⟨searches, hfinal⟩ := exists_stack_compilerAfter t config hd hcalls
  have hdialect : (compilerAfter t driver config calls names).dialect = .ok .mysql := by
    rw [hfinal]
    exact hd
  have hmode : (compilerAfter t driver config calls names).mode = .normal := by
    rw [hfinal]
    rfl
  rw [Compiler.compile, Compiler.compileIn, hmode]
  exact Compiler.statement_eq hdialect .normal _

/-- Its select list has a text at each name that finds a point column, and behind the names what
depends on the searches alone. -/
theorem exists_textPlaces_renderedQuery (t : Table) (config : Config)
    (hd : Dialect.ofDriver driver = .ok .mysql) (hcalls : ∀ call ∈ calls, call.isSearch = true) :
    ∃ behind : List Bool, ∀ names, names ≠ [] →
      (∀ name ∈ names, SelectItem.wildcardOfName? name = none) →
        (renderedQuery t driver config calls names).textPlaces t =
          names.map t.hasPoint ++ behind := by
  obtain ⟨searches, hfinal⟩ := exists_stack_compilerAfter t config hd hcalls
  obtain ⟨computed, hcomputed, hselect⟩ := exists_select_innermost_stack .mysql t.name searches
  refine ⟨computed.map t.givesText, fun names hne hnames => ?_⟩
  have hsource : (Search.stack .mysql t.name (startQuery t.name names) searches).readingFrom
      t.name = Search.stack .mysql t.name (startQuery t.name names) searches := by
    cases searches with
    | nil => rfl
    | cons s earlier => rfl
  have hrendered : renderedQuery t driver config calls names =
      (Projection.mk .mysql t).project config.projectionStyle .normal
        (Search.stack .mysql t.name (startQuery t.name names) searches) := by
    simp only [renderedQuery, hfinal]
    exact congrArg _ hsource
  have hstart : (startQuery t.name names).select ≠ [] := by simpa [startQuery] using hne
  rw [hrendered]
  exact Projection.textPlaces_project (p := .mk .mysql t) rfl hne hnames hcomputed
    (hselect _ rfl hstart)

/-- **Blanks around a column may cost it its text.** On MySQL take columns of a command line, none
of them a wildcard, once as they are and once with blanks around them, and any searches. Both
compile. The same places of the select list give a point column as text if and only if each name
finds a point column of the table with its blanks just if it does without them. In a table whose
columns have no blanks at the ends of their names, this is so if and only if no blanks stand next to
the last part of a name that finds a point column. -/
theorem padded_sameTexts_iff (t : Table) (config : Config)
    (hd : Dialect.ofDriver driver = .ok .mysql) (hcalls : ∀ call ∈ calls, call.isSearch = true)
    {words : List PaddedName} (hne : words ≠ [])
    (hnames : ∀ w ∈ words, SelectItem.wildcardOfName? w.name = none) :
    let rendered := renderedQuery t driver config calls
    let sameTexts := (rendered (words.map PaddedName.text)).textPlaces t =
      (rendered (words.map PaddedName.name)).textPlaces t
    (∀ names, (compilerAfter t driver config calls names).compile =
      .ok ⟨Dialect.mysql.writePlaceholders (rendered names).render.sql,
        (rendered names).render.params⟩) ∧
      (sameTexts ↔ ∀ w ∈ words, t.hasPoint w.text = t.hasPoint w.name) ∧
      ((∀ c ∈ t.columns, Text.trim c.name = c.name) →
        (sameTexts ↔ ∀ w ∈ words, t.hasPoint w.name = true → w.Apart)) := by
  intro rendered sameTexts
  obtain ⟨behind, hplaces⟩ := exists_textPlaces_renderedQuery t config hd hcalls
  have htext : ∀ name ∈ words.map PaddedName.text, SelectItem.wildcardOfName? name = none :=
    List.forall_mem_map.mpr fun w hw => PaddedName.wildcardOfName?_text (hnames w hw)
  have hname : ∀ name ∈ words.map PaddedName.name, SelectItem.wildcardOfName? name = none :=
    List.forall_mem_map.mpr hnames
  have hsame : sameTexts ↔ ∀ w ∈ words, t.hasPoint w.text = t.hasPoint w.name := by
    show (renderedQuery t driver config calls (words.map PaddedName.text)).textPlaces t =
      (renderedQuery t driver config calls (words.map PaddedName.name)).textPlaces t ↔ _
    rw [hplaces _ (by simpa using hne) htext, hplaces _ (by simpa using hne) hname,
      List.append_left_inj, List.map_map, List.map_map, List.map_inj_left]
    rfl
  refine ⟨compile_compilerAfter t config hd hcalls, hsame, fun htrimmed => hsame.trans ?_⟩
  exact forall₂_congr fun w _ => PaddedName.hasPoint_text_eq_iff htrimmed

end

/-- Lighthouses, and where they stand. -/
def lighthouses : Table := ⟨"lighthouses", [⟨"id", "int", false⟩, ⟨"geom", "point", false⟩]⟩

/-- A search for those near a point. -/
def nearby : List Action := [.searchNear "10,20" "geom" (.ofInt 100) .kilometer]

/-- Their columns with blanks after the commas, the point with a qualifier. -/
def qualifiedColumns : List PaddedName :=
  [⟨"", "id", "", by simp, by simp⟩,
    ⟨" ", "lighthouses.geom", "", by simp [Text.isBlank], by simp⟩]

/-- The qualifier keeps the blank away from the point, which comes back as text. -/
theorem lighthouses_qualifiedColumns_sameTexts :
    Dialect.ofDriver "mysql" = .ok .mysql ∧ (∀ call ∈ nearby, call.isSearch = true) ∧
      qualifiedColumns ≠ [] ∧
      (∀ w ∈ qualifiedColumns, SelectItem.wildcardOfName? w.name = none) ∧
      (∀ c ∈ lighthouses.columns, Text.trim c.name = c.name) ∧
      qualifiedColumns.map PaddedName.text = ["id", " lighthouses.geom"] ∧
      let rendered := renderedQuery lighthouses "mysql" {} nearby
      (rendered ["id", " lighthouses.geom"]).textPlaces lighthouses =
        (rendered ["id", "lighthouses.geom"]).textPlaces lighthouses := by
  have hd : Dialect.ofDriver "mysql" = .ok .mysql := by decide +kernel
  have hcalls : ∀ call ∈ nearby, call.isSearch = true := by simp [nearby, Action.isSearch]
  have hne : qualifiedColumns ≠ [] := by simp [qualifiedColumns]
  have hnames : ∀ w ∈ qualifiedColumns, SelectItem.wildcardOfName? w.name = none := by
    decide +kernel
  have htrimmed : ∀ c ∈ lighthouses.columns, Text.trim c.name = c.name := by decide +kernel
  have hapart : ∀ w ∈ qualifiedColumns, lighthouses.hasPoint w.name = true → w.Apart := by
    simp [qualifiedColumns, PaddedName.Apart, PaddedName.front]
  obtain ⟨-, -, hiff⟩ := padded_sameTexts_iff lighthouses {} hd hcalls hne hnames
  exact ⟨hd, hcalls, hne, hnames, htrimmed, rfl, (hiff htrimmed).mpr hapart⟩

/-- Without the qualifier the blank costs the point its text. -/
theorem lighthouses_blankBeforeGeom_noText :
    Opt.select.values "id,geom" = ["id", "geom"] ∧
      Opt.select.values "id, geom" = ["id", " geom"] ∧
      (∀ name ∈ ["id", "geom"], SelectItem.wildcardOfName? name = none) ∧
      let rendered := renderedQuery lighthouses "mysql" {} nearby
      (rendered ["id", "geom"]).textPlaces lighthouses = [false, true, false] ∧
      (rendered ["id", " geom"]).textPlaces lighthouses = [false, false, false] := by
  decide +kernel

end CommandLine

end PointQuery
