import Mathlib.Data.List.Forall2
import PointQuery.Proofs.Projection.Select
/-!
# Point columns come back as text

On a dialect that hands out points in binary, the select list of the level that reads the table is
made anew, item by item. `Becomes` says what can come of each kind of item, without a word about how
the projection goes about it, and `becomes_projectItem` that the projection keeps to it. What is and
is not in the new list is read off that relation.
-/

namespace PointQuery

open Sql

/-- A point column as text on MySQL, under a name of its own. -/
def asText (column output : String) : Item :=
  .expression (.raw ("ST_AsText(" ++ column ++ ")")) (some output)

/-! ## What is asked for -/

/-- The names of a wildcard that covers the columns of a table. -/
def NamesAll (table name : String) : Prop := name = "*" ∨ name = table ++ ".*"

/-- The names of wildcards. -/
def NamesWildcard (name : String) : Prop := name = "*" ∨ ∃ table, name = table ++ ".*"

/-- The items that a select list asks for; an empty one asks for all columns of each table in
turn. -/
def askedItems (primary : String) (joined : List String) : List Item → List Item
  | [] => (primary :: joined).map fun table => .column (table ++ ".*") none
  | select => select

/-- A column of the table as it is listed for a wildcard. -/
def listedColumn (primary : String) (c : Column) : Item :=
  if c.isPoint then asText (primary ++ "." ++ c.name) c.name
  else .column (primary ++ "." ++ c.name) none

/-- What a wildcard over the table stands for: the columns of the table in order, and for a bare
star the wildcards of the joined tables. -/
def listedColumns (t : Table) (primary : String) (joined : List String) (name : String) :
    List Item :=
  t.columns.map (listedColumn primary) ++
    if name = "*" then joined.map fun table => .column (table ++ ".*") none else []

/-- What may become of an item where the table is visible under its primary name. -/
inductive Becomes (t : Table) (primary : String) (joined : List String)
    (style : ProjectionStyle) : Item → List Item → Prop where
  /-- A point column gives way to its text, under its alias or else its own name. -/
  | point {c : Column} {name : String} {label : Option String} (hc : c ∈ t.columns)
      (hpoint : c.isPoint = true) (hname : NamesColumn primary c.name name) :
      Becomes t primary joined style (.column name label) [asText name (label.getD c.name)]
  /-- A column of no such name stays. -/
  | column {name : String} {label : Option String} (hwild : ¬ NamesWildcard name)
      (hnone : ∀ c ∈ t.columns, c.isPoint = true → ¬ EndsIn c.name name) :
      Becomes t primary joined style (.column name label) [.column name label]
  /-- A column that is said to be of another table, but has the name of a point column of this one:
  it stays or gives way to its text. -/
  | namesake {c : Column} {qualifier : String} {label : Option String} {item : Item}
      (hc : c ∈ t.columns) (hpoint : c.isPoint = true) (hother : qualifier ≠ primary)
      (hitem : item = .column (qualifier ++ "." ++ c.name) label ∨
        item = asText (qualifier ++ "." ++ c.name) (label.getD c.name)) :
      Becomes t primary joined style (.column (qualifier ++ "." ++ c.name) label) [item]
  /-- A wildcard over another table stays. -/
  | foreign {table : String} {label : Option String} (hother : table ≠ primary) :
      Becomes t primary joined style (.column (table ++ ".*") label)
        [.column (table ++ ".*") label]
  /-- To add leaves a wildcard over the table as it is. -/
  | kept {name : String} {label : Option String} (hstyle : style = .additive)
      (hname : NamesAll primary name) :
      Becomes t primary joined style (.column name label) [.column name label]
  /-- To replace lists the columns in its stead. -/
  | listed {name : String} {label : Option String} (hstyle : style = .replace)
      (hname : NamesAll primary name) :
      Becomes t primary joined style (.column name label) (listedColumns t primary joined name)
  /-- What is computed stays. -/
  | computed {item : Item} (hitem : isComputed item = true) :
      Becomes t primary joined style item [item]

/-! ## Names -/

theorem lastSegment_of_namesWildcard {name : String} (h : NamesWildcard name) :
    lastSegment name = "*" := by
  rcases h with rfl | ⟨table, rfl⟩
  · decide
  · exact lastSegment_of_wildcard (wildcardOfName?_table table)

theorem NamesAll.namesWildcard {table name : String} (h : NamesAll table name) :
    NamesWildcard name := h.imp_right fun h => ⟨table, h⟩

theorem not_namesWildcard {name : String} (h : SelectItem.wildcardOfName? name = none) :
    ¬ NamesWildcard name :=
  fun hwild => wildcardOfName?_eq_none_iff.mp h (lastSegment_of_namesWildcard hwild)

theorem Table.Plain.not_namesWildcard {t : Table} {c : Column} {name : String} (ht : t.Plain)
    (hc : c ∈ t.columns) (h : EndsIn c.name name) : ¬ NamesWildcard name :=
  PointQuery.not_namesWildcard (ht.wildcardOfName?_eq_none hc h)

/-- A qualified wildcard covers no table but the one that it names. -/
theorem eq_of_namesAll {primary table : String} (h : NamesAll primary (table ++ ".*")) :
    table = primary := by
  rcases h with hstar | htable
  · have hdot : '.' ∈ (table ++ ".*").toList := by simp
    rw [hstar] at hdot
    exact absurd hdot (by decide)
  · exact (String.append_left_inj _).mp htable

/-- A qualified column is named by no table but its qualifier. -/
theorem eq_of_namesColumn {table qualifier column : String} (hc : '.' ∉ column.toList)
    (h : NamesColumn table column (qualifier ++ "." ++ column)) : qualifier = table := by
  rcases h with hbare | hqualified
  · have hdot : '.' ∈ (qualifier ++ "." ++ column).toList := by simp
    rw [hbare] at hdot
    exact absurd hdot hc
  · rwa [String.append_left_inj, String.append_left_inj] at hqualified

namespace Projection

variable {p : Projection} {v : Visible} {style : ProjectionStyle} {item : Item} {name : String}
  {label : Option String}

theorem cast_mysql (hd : p.dialect = .mysql) (column output : String) :
    p.cast column output = asText column output := by
  rw [cast, hd]
  rfl

/-! ## Wildcards over the table -/

theorem namesAll_of_owns {w : Wildcard} (hw : SelectItem.wildcardOfName? name = some w)
    (howns : v.owns w = true) : NamesAll v.primary name := by
  cases w with
  | all => exact .inl (eq_star_of_wildcard hw)
  | table t =>
      have ht : t = v.primary := by simpa [Visible.owns] using howns
      exact .inr (ht ▸ eq_table_of_wildcard hw)

theorem ownsItem_column_iff :
    v.ownsItem (.column name label) = true ↔ NamesAll v.primary name := by
  show (SelectItem.wildcardOfName? name).any v.owns = true ↔ _
  rw [Option.any_eq_true]
  constructor
  · rintro ⟨w, hw, howns⟩
    exact namesAll_of_owns hw howns
  · rintro (rfl | rfl)
    · exact ⟨.all, rfl, rfl⟩
    · exact ⟨.table v.primary, wildcardOfName?_table _, by simp [Visible.owns]⟩

/-- Only a column can be a wildcard over the table. -/
theorem ownsItem_iff :
    v.ownsItem item = true ↔ ∃ name label, item = .column name label ∧ NamesAll v.primary name := by
  constructor
  · intro h
    cases item with
    | column name label => exact ⟨name, label, rfl, ownsItem_column_iff.mp h⟩
    | expression => cases h
    | subquery => cases h
  · rintro ⟨name, label, rfl, hn⟩
    exact ownsItem_column_iff.mpr hn

/-! ## One item -/

theorem requested_eq_askedItems (select : List Item) :
    v.requested select = askedItems v.primary v.joined select := by
  cases select with
  | nil => rfl
  | cons item select => rfl

theorem expand_eq_listedColumns (hd : p.dialect = .mysql) (ht : p.table.columns ≠ [])
    {w : Wildcard} (hw : SelectItem.wildcardOfName? name = some w) :
    p.expand v item w = listedColumns p.table v.primary v.joined name := by
  have hcolumn : p.expandColumn v = listedColumn v.primary := by
    funext c
    rw [expandColumn, listedColumn, cast_mysql hd]
    rfl
  have hstar : w = .all ↔ name = "*" := by
    constructor
    · rintro rfl
      exact eq_star_of_wildcard hw
    · rintro rfl
      exact (Option.some.inj hw).symm
  rw [expand, if_neg (by simpa using ht), listedColumns, hcolumn]
  simp only [hstar]
  rfl

/-- To add leaves a wildcard over the table as it is. -/
theorem projectItem_kept (hall : NamesAll v.primary name) :
    p.projectItem v .additive (.column name label) = [.column name label] := by
  have hitem : v.ownsItem (.column name label) = true := ownsItem_column_iff.mpr hall
  obtain ⟨w, hw, howns⟩ := (Option.any_eq_true _ _).mp hitem
  rw [projectItem.eq_def, hw]
  simp only [howns, if_true]

/-- What the projection makes of a name that is no wildcard. -/
theorem becomes_namedColumn (hd : p.dialect = .mysql) (ht : p.table.Plain)
    (hname : SelectItem.wildcardOfName? name = none) :
    Becomes p.table v.primary v.joined style (.column name label) [p.namedColumn name label] := by
  rw [namedColumn_eq, cast_mysql hd]
  split
  · rename_i hfinds
    obtain ⟨c, hc, hpoint, hends⟩ := ht.hasPoint_iff.mp hfinds
    rw [ht.lastSegment_eq hc hends]
    rcases hends with rfl | ⟨qualifier, rfl⟩
    · exact .point hc hpoint (.inl rfl)
    · by_cases hprimary : qualifier = v.primary
      · exact .point hc hpoint (.inr (hprimary ▸ rfl))
      · exact .namesake hc hpoint hprimary (.inr rfl)
  · rename_i hfinds
    exact .column (not_namesWildcard hname)
      fun c hc hpoint hends => hfinds (ht.hasPoint_iff.mpr ⟨c, hc, hpoint, hends⟩)

theorem becomes_projectItem (hd : p.dialect = .mysql) (ht : p.table.Plain) (item : Item) :
    Becomes p.table v.primary v.joined style item (p.projectItem v style item) := by
  cases item with
  | expression => exact .computed rfl
  | subquery => exact .computed rfl
  | column name label =>
      cases hw : SelectItem.wildcardOfName? name with
      | none =>
          rw [projectItem_column hw]
          exact becomes_namedColumn hd ht hw
      | some w =>
          have hwild : (SelectItem.column name label : Item).wildcard? = some w := hw
          rw [projectItem.eq_def, hwild]
          cases howns : v.owns w with
          | true =>
              have hall := namesAll_of_owns hw howns
              simp only [howns, if_true]
              cases style with
              | additive => exact .kept rfl hall
              | replace =>
                  rw [expand_eq_listedColumns hd ht.nonempty hw]
                  exact .listed rfl hall
          | false =>
              simp only [howns, Bool.false_eq_true, if_false]
              cases w with
              | all => cases howns
              | table table =>
                  obtain rfl := eq_table_of_wildcard hw
                  exact .foreign (by simpa [Visible.owns] using howns)

end Projection

/-! ## What is in the new list -/

section

variable {t : Table} {primary : String} {joined : List String} {style : ProjectionStyle}
  {item : Item} {piece : List Item} {c : Column} {name : String} {label : Option String}

/-- A plain column that is listed for a wildcard has no points, or is the wildcard of a joined
table. -/
theorem column_mem_listedColumns {wildcard : String}
    (h : .column name label ∈ listedColumns t primary joined wildcard) :
    (∃ c ∈ t.columns, c.isPoint = false ∧ name = primary ++ "." ++ c.name) ∨
      ∃ table ∈ joined, name = table ++ ".*" := by
  rcases List.mem_append.mp h with hcolumn | hjoined
  · obtain ⟨c, hc, heq⟩ := List.mem_map.mp hcolumn
    rw [listedColumn] at heq
    split at heq
    · cases heq
    · rename_i hpoint
      cases heq
      exact .inl ⟨c, hc, by simpa using hpoint, rfl⟩
  · split at hjoined
    · obtain ⟨table, htable, heq⟩ := List.mem_map.mp hjoined
      cases heq
      exact .inr ⟨table, htable, rfl⟩
    · cases hjoined

/-- No plain column that becomes of an item names a point column of the table. -/
theorem Becomes.not_namesColumn (h : Becomes t primary joined style item piece) (ht : t.Plain)
    (hc : c ∈ t.columns) (hpoint : c.isPoint = true) (hmem : .column name label ∈ piece) :
    ¬ NamesColumn primary c.name name := by
  intro hn
  have hwild := ht.not_namesWildcard hc hn.endsIn
  cases h with
  | point => simp [asText] at hmem
  | column _ hnone =>
      cases List.mem_singleton.mp hmem
      exact hnone c hc hpoint hn.endsIn
  | @namesake c' qualifier label' item' hc' _ hother hitem =>
      rcases hitem with rfl | rfl
      · cases List.mem_singleton.mp hmem
        obtain rfl := ht.eq_of_endsIn hc' hc (.inr ⟨qualifier, rfl⟩) hn.endsIn
        exact hother (eq_of_namesColumn (ht.undotted c' hc) hn)
      · simp [asText] at hmem
  | @foreign table =>
      cases List.mem_singleton.mp hmem
      exact hwild (.inr ⟨table, rfl⟩)
  | kept _ hall =>
      cases List.mem_singleton.mp hmem
      exact hwild hall.namesWildcard
  | listed =>
      rcases column_mem_listedColumns hmem with ⟨c', hc', hplain, rfl⟩ | ⟨table, -, rfl⟩
      · rw [ht.eq_of_endsIn hc' hc (.inr ⟨primary, rfl⟩) hn.endsIn, hpoint] at hplain
        cases hplain
      · exact hwild (.inr ⟨table, rfl⟩)
  | computed hitem =>
      cases List.mem_singleton.mp hmem
      cases hitem

/-- A wildcard over the table is what becomes of it where the style is to add, and of nothing else;
but for joined tables that go by the name of the table. -/
theorem Becomes.namesAll_of_mem (h : Becomes t primary joined style item piece) (ht : t.Plain)
    (hjoin : primary ∉ joined) (hmem : .column name label ∈ piece) (hall : NamesAll primary name) :
    style = .additive ∧ item = .column name label := by
  have hwild := hall.namesWildcard
  cases h with
  | point => simp [asText] at hmem
  | column hnone _ =>
      cases List.mem_singleton.mp hmem
      exact absurd hwild hnone
  | @namesake c' qualifier label' item' hc' _ _ hitem =>
      rcases hitem with rfl | rfl
      · cases List.mem_singleton.mp hmem
        exact absurd hwild (ht.not_namesWildcard hc' (.inr ⟨qualifier, rfl⟩))
      · simp [asText] at hmem
  | @foreign table _ hother =>
      cases List.mem_singleton.mp hmem
      exact absurd (eq_of_namesAll hall) hother
  | kept hstyle _ =>
      cases List.mem_singleton.mp hmem
      exact ⟨hstyle, rfl⟩
  | listed =>
      rcases column_mem_listedColumns hmem with ⟨c', hc', -, rfl⟩ | ⟨table, htable, rfl⟩
      · exact absurd hwild (ht.not_namesWildcard hc' (.inr ⟨primary, rfl⟩))
      · exact absurd (eq_of_namesAll hall ▸ htable) hjoin
  | computed hitem =>
      cases List.mem_singleton.mp hmem
      cases hitem

end

/-- A select list that brings each point column of the table back as text. -/
structure CoversPoints (t : Table) (primary : String) (joined : List String)
    (style : ProjectionStyle) (select result : List Item) : Prop where
  nonempty : result ≠ []
  /-- No plain point column is left. -/
  noColumn : ∀ c ∈ t.columns, c.isPoint = true → ∀ name label, NamesColumn primary c.name name →
    .column name label ∉ result
  /-- To replace leaves no wildcard over the table. -/
  noWildcard : style = .replace → ∀ name label, NamesAll primary name →
    .column name label ∉ result
  /-- The list is made, in order, of what becomes of the items asked for. To replace adds nothing.
  To add puts one text for each point column at the end if there is a wildcard over the table, and
  otherwise nothing. -/
  inOrder : ∃ pieces,
    List.Forall₂ (Becomes t primary joined style) (askedItems primary joined select) pieces ∧
    (style = .replace → result = pieces.flatten) ∧
    (style = .additive → (∃ name label, NamesAll primary name ∧ .column name label ∈ result) →
      result = pieces.flatten ++
        (t.columns.filter Column.isPoint).map fun c => asText c.name c.name) ∧
    (style = .additive → (∀ name label, NamesAll primary name → .column name label ∉ result) →
      result = pieces.flatten)

namespace Projection

variable {p : Projection} {v : Visible} {style : ProjectionStyle} {select : List Item}
  {name : String} {label : Option String}

/-! ## One level -/

theorem eraseDups_eq_self {names : List String} (h : names.Nodup) : names.eraseDups = names := by
  induction names with
  | nil => rfl
  | cons name names ih =>
      obtain ⟨hname, hrest⟩ := List.nodup_cons.mp h
      have hfilter : names.filter (fun n => !n == name) = names := by
        rw [List.filter_eq_self]
        intro n hn
        have hne : n ≠ name := fun he => hname (he ▸ hn)
        simpa using hne
      rw [List.eraseDups_cons, hfilter, ih hrest]

/-- With distinct names there is one text form for each point column, in order. -/
theorem pointCasts_eq (hd : p.dialect = .mysql) (ht : p.table.Plain) :
    p.pointCasts =
      (p.table.columns.filter Column.isPoint).map fun c => asText c.name c.name := by
  have hnodup : (p.table.points.map Column.name).Nodup :=
    ht.distinct.sublist (List.filter_sublist.map _)
  rw [pointCasts, eraseDups_eq_self hnodup, List.map_map]
  exact List.map_congr_left fun c _ => cast_mysql hd c.name c.name

/-- A plain column of the new list becomes of an item asked for, as what is added is text. -/
theorem exists_becomes_of_column_mem (hd : p.dialect = .mysql) (ht : p.table.Plain)
    (h : .column name label ∈ p.projectSelect v style select) :
    ∃ item ∈ v.requested select, ∃ piece,
      Becomes p.table v.primary v.joined style item piece ∧ .column name label ∈ piece := by
  rcases List.mem_append.mp h with hpiece | hadded
  · obtain ⟨item, hitem, hmem⟩ := List.mem_flatMap.mp hpiece
    exact ⟨item, hitem, _, becomes_projectItem hd ht item, hmem⟩
  · split at hadded
    · obtain ⟨c, -, heq⟩ := List.mem_map.mp hadded
      rw [cast_mysql hd] at heq
      cases heq
    · cases hadded

/-- When the style is to add, a wildcard over the table is in the new list if and only if it was
asked for. -/
theorem any_ownsItem_iff (hd : p.dialect = .mysql) (ht : p.table.Plain)
    (hjoin : v.primary ∉ v.joined) :
    (v.requested select).any v.ownsItem = true ↔
      ∃ name label, NamesAll v.primary name ∧
        .column name label ∈ p.projectSelect v .additive select := by
  rw [List.any_eq_true]
  constructor
  · rintro ⟨item, hitem, howns⟩
    obtain ⟨name, label, rfl, hall⟩ := ownsItem_iff.mp howns
    refine ⟨name, label, hall, List.mem_append_left _ (List.mem_flatMap.mpr ⟨_, hitem, ?_⟩)⟩
    rw [projectItem_kept hall]
    exact List.mem_singleton_self _
  · rintro ⟨name, label, hall, hmem⟩
    obtain ⟨item, hitem, piece, hbecomes, hpiece⟩ := exists_becomes_of_column_mem hd ht hmem
    obtain ⟨-, rfl⟩ := hbecomes.namesAll_of_mem ht hjoin hpiece hall
    exact ⟨_, hitem, ownsItem_column_iff.mpr hall⟩

/-- Projecting the select list of one level brings its point columns back as text. -/
theorem coversPoints_projectSelect (hd : p.dialect = .mysql) (ht : p.table.Plain)
    (hjoin : v.primary ∉ v.joined) (style : ProjectionStyle) (select : List Item) :
    CoversPoints p.table v.primary v.joined style select (p.projectSelect v style select) where
  nonempty := projectSelect_ne_nil select
  noColumn := by
    intro c hc hpoint name label hn hmem
    obtain ⟨item, -, piece, hbecomes, hpiece⟩ := exists_becomes_of_column_mem hd ht hmem
    exact hbecomes.not_namesColumn ht hc hpoint hpiece hn
  noWildcard := by
    rintro rfl name label hall hmem
    obtain ⟨item, -, piece, hbecomes, hpiece⟩ := exists_becomes_of_column_mem hd ht hmem
    obtain ⟨hstyle, -⟩ := hbecomes.namesAll_of_mem ht hjoin hpiece hall
    cases hstyle
  inOrder := by
    refine ⟨(v.requested select).map (p.projectItem v style), ?_, ?_, ?_, ?_⟩
    · rw [← requested_eq_askedItems, List.forall₂_map_right_iff, List.forall₂_same]
      exact fun item _ => becomes_projectItem hd ht item
    · rintro rfl
      rw [projectSelect_replace, List.flatMap_def]
    · rintro rfl hall
      rw [projectSelect, if_pos ⟨rfl, (any_ownsItem_iff hd ht hjoin).mpr hall⟩, pointCasts_eq hd ht,
        List.flatMap_def]
    · rintro rfl hnone
      have hany : ¬ (v.requested select).any v.ownsItem = true := by
        intro h
        obtain ⟨name, label, hall, hmem⟩ := (any_ownsItem_iff hd ht hjoin).mp h
        exact hnone name label hall hmem
      rw [projectSelect, if_neg fun h => hany h.2, List.append_nil, List.flatMap_def]

/-! ## The innermost level -/

/-- The style in which the innermost level is projected: names may not occur twice inside a derived
table. -/
def innermostStyle (style : ProjectionStyle) (q : Query) : ProjectionStyle :=
  if q.readsDerived then .replace else style

theorem innermost_project (hd : p.dialect = .mysql) {mode : ProjectionMode} {q : Query}
    (hmode : mode = .normal ∨ q.readsDerived = true) :
    (p.project style mode q).innermost = p.projectLevel (innermostStyle style q) q.innermost := by
  have hconverts : p.dialect.convertsPoints = true := by
    rw [hd]
    rfl
  rw [project.eq_def, hconverts, innermostStyle]
  cases hq : q.readsDerived with
  | true =>
      -- a level keeps its source, so the innermost level stays the innermost
      exact Query.innermost_mapInnermost (f := p.projectLevel .replace) (fun _ h => h) q
  | false =>
      obtain rfl : mode = .normal := by
        rcases hmode with h | h
        · exact h
        · rw [hq] at h
          cases h
      have hlevel : (p.projectLevel style q).readsDerived = false := hq
      rw [Query.innermost_of_level hq]
      exact Query.innermost_of_level hlevel

/-- **Every point column comes back as text on MySQL.** Take a table whose columns have distinct
names, not qualified and no stars, and a query whose innermost level joins no table under the alias
of the table. If the mode is normal, or the innermost level is inside a derived table, the new
select list of that level covers the points of the table. It is made in order of what the caller
asks for, all columns of each table if nothing: a point column asked for gives way to its text, a
wildcard over the table is listed or has the texts of all point columns follow at the end, and so no
plain point column is left. -/
theorem project_coversPoints (hd : p.dialect = .mysql) (ht : p.table.Plain)
    (style : ProjectionStyle) {mode : ProjectionMode} {q : Query}
    (hmode : mode = .normal ∨ q.readsDerived = true)
    (hjoin : q.innermost.sourceAlias p.table.name ∉ q.innermost.joinAliases) :
    CoversPoints p.table (q.innermost.sourceAlias p.table.name) q.innermost.joinAliases
      (innermostStyle style q) q.innermost.select (p.project style mode q).innermost.select := by
  rw [innermost_project hd hmode]
  exact coversPoints_projectSelect (v := .ofLevel q.innermost p.table) hd ht hjoin _ _

/-- Shops and where they are. -/
def shops : Table := ⟨"shops", [⟨"id", "int", false⟩, ⟨"geom", "point", false⟩]⟩

/-- The shops with their cities, their place first and then all columns. -/
def shopsInCities : Query where
  select := [.column "s.geom" (some "place"), .column "*" none]
  source := some (.table "shops s" none)
  joins := [⟨.left, "cities c", "c.id = s.city"⟩]

theorem shopsInCities_coversPoints :
    let p : Projection := ⟨.mysql, shops⟩
    let select := (p.project .additive .normal shopsInCities).innermost.select
    p.dialect = .mysql ∧ p.table.Plain ∧
      shopsInCities.innermost.sourceAlias shops.name ∉ shopsInCities.innermost.joinAliases ∧
      CoversPoints p.table "s" ["c"] .additive shopsInCities.innermost.select select ∧
      select = [asText "s.geom" "place", .column "*" none, asText "geom" "geom"] := by
  intro p select
  have ht : p.table.Plain := ⟨by decide, by decide, by decide, by decide⟩
  have hjoin : shopsInCities.innermost.sourceAlias shops.name ∉
      shopsInCities.innermost.joinAliases := by decide +kernel
  exact ⟨rfl, ht, hjoin, project_coversPoints rfl ht .additive (.inl rfl) hjoin, rfl⟩

/-- An empty list that is replaced names the columns of the shops, and leaves those of the cities
to them. -/
example :
    (project ⟨.mysql, shops⟩ .replace .normal { shopsInCities with select := [] }).select =
      [.column "s.id" none, asText "s.geom" "geom", .column "c.*" none] := rfl

end Projection

end PointQuery
