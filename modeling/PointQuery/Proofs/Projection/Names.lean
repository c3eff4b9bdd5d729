import Mathlib.Data.List.Nodup
import Mathlib.Data.List.TakeWhile
import PointQuery.Projection
/-!
# The names of columns

How a column can be named in a select list, and what the projection finds by such a name: the last
part of a name, the wildcard that it is, and the column of the table.
-/

namespace PointQuery

open Sql

/-! ## The last part of a name -/

/-- Read from its end, a name without a point never stops the search for one. -/
theorem undotted_reverse {name : String} (h : '.' ∉ name.toList) :
    ∀ c ∈ name.toList.reverse, decide (c ≠ '.') = true := by
  intro c hc
  have hname : c ∈ name.toList := List.mem_reverse.mp hc
  have hne : c ≠ '.' := fun he => h (he ▸ hname)
  exact decide_eq_true hne

theorem lastSegment_of_undotted {name : String} (h : '.' ∉ name.toList) :
    lastSegment name = name := by
  rw [lastSegment, List.takeWhile_eq_self_iff.mpr (undotted_reverse h), List.reverse_reverse,
    String.ofList_toList]

/-- What stands before the last part of a name does not change that part. -/
theorem lastSegment_append (qualifier name : String) :
    lastSegment (qualifier ++ "." ++ name) = lastSegment name := by
  have hdot : ".".toList = ['.'] := by decide
  have hstop : ∀ read rest : List Char,
      (read ++ '.' :: rest).takeWhile (· ≠ '.') = read.takeWhile (· ≠ '.') := by
    intro read rest
    rw [List.takeWhile_append]
    split
    · rename_i hlength
      rw [(List.takeWhile_prefix _).eq_of_length hlength]
      simp
    · rfl
  rw [lastSegment, lastSegment, String.toList_append, String.toList_append, hdot,
    List.append_assoc, List.reverse_append, List.singleton_append, List.reverse_cons,
    List.append_assoc, List.singleton_append, hstop]

theorem lastSegment_qualified (qualifier : String) {name : String} (h : '.' ∉ name.toList) :
    lastSegment (qualifier ++ "." ++ name) = name := by
  rw [lastSegment_append, lastSegment_of_undotted h]

/-- The last part of a name is all of it, or stands after a point. -/
theorem lastSegment_suffix (name : String) :
    name = lastSegment name ∨ ∃ qualifier, name = qualifier ++ "." ++ lastSegment name := by
  have hsplit := List.takeWhile_append_dropWhile (p := (· ≠ '.')) (l := name.toList.reverse)
  have hlast : (lastSegment name).toList =
      (name.toList.reverse.takeWhile (· ≠ '.')).reverse := String.toList_ofList
  have hname : name.toList = (name.toList.reverse.dropWhile (· ≠ '.')).reverse ++
      (lastSegment name).toList := by
    rw [hlast, ← List.reverse_append, hsplit, List.reverse_reverse]
  cases hdrop : name.toList.reverse.dropWhile (· ≠ '.') with
  | nil =>
      rw [hdrop, List.reverse_nil, List.nil_append] at hname
      exact .inl (String.toList_inj.mp hname)
  | cons a rest =>
      have hdot : a = '.' := by
        have hhead := List.head?_dropWhile_not (· ≠ '.') name.toList.reverse
        rw [hdrop] at hhead
        simpa using hhead
      have hpoint : ".".toList = ['.'] := by decide
      refine .inr ⟨String.ofList rest.reverse, String.toList_inj.mp ?_⟩
      rw [hname, hdrop, hdot, List.reverse_cons, String.toList_append, String.toList_append,
        String.toList_ofList, hpoint]

theorem lastSegment_append_undotted (name : String) {after : String} (h : '.' ∉ after.toList) :
    lastSegment (name ++ after) = lastSegment name ++ after := by
  rw [lastSegment, lastSegment, String.toList_append, List.reverse_append,
    List.takeWhile_append_of_pos (undotted_reverse h), List.reverse_append, List.reverse_reverse,
    String.ofList_append, String.ofList_toList]

theorem lastSegment_undotted_append {before : String} (name : String) (h : '.' ∉ before.toList) :
    lastSegment (before ++ name) =
      (if '.' ∈ name.toList then "" else before) ++ lastSegment name := by
  by_cases hdot : '.' ∈ name.toList
  · obtain ⟨qualifier, rest, hname⟩ := List.append_of_mem hdot
    have hsplit : name = String.ofList qualifier ++ "." ++ String.ofList rest := by
      rw [← String.toList_inj, hname]
      simp
    have hlast : lastSegment name = lastSegment (String.ofList rest) := by
      rw [hsplit, lastSegment_append]
    rw [if_pos hdot, String.empty_append, hlast, hsplit, ← String.append_assoc,
      ← String.append_assoc, lastSegment_append]
  · have hwhole : '.' ∉ (before ++ name).toList := by
      rw [String.toList_append, List.mem_append]
      exact not_or.mpr ⟨h, hdot⟩
    rw [if_neg hdot, lastSegment_of_undotted hwhole, lastSegment_of_undotted hdot]

/-! ## Wildcards -/

theorem wildcardOfName?_table (table : String) :
    SelectItem.wildcardOfName? (table ++ ".*") = some (.table table) := by
  have hsuffix : ".*".toList = ['.', '*'] := by decide
  have hne : table ++ ".*" ≠ "*" := by
    intro h
    have hlength := congrArg (fun s : String => s.toList.length) h
    simp only [String.toList_append, hsuffix, List.length_append] at hlength
    have hstar : "*".toList.length = 1 := by decide
    rw [hstar] at hlength
    simp at hlength
  rw [SelectItem.wildcardOfName?, if_neg hne, String.toList_append, hsuffix]
  simp

theorem eq_star_of_wildcard {name : String}
    (h : SelectItem.wildcardOfName? name = some .all) : name = "*" := by
  by_cases hstar : name = "*"
  · exact hstar
  · rw [SelectItem.wildcardOfName?, if_neg hstar] at h
    split at h
    · cases h
    · cases h

theorem eq_table_of_wildcard {name table : String}
    (h : SelectItem.wildcardOfName? name = some (.table table)) : name = table ++ ".*" := by
  by_cases hstar : name = "*"
  · rw [SelectItem.wildcardOfName?, if_pos hstar] at h
    cases h
  · rw [SelectItem.wildcardOfName?, if_neg hstar] at h
    split at h
    · rename_i chars hreverse
      cases h
      have hname : name.toList = chars.reverse ++ ['.', '*'] := by
        rw [← List.reverse_reverse name.toList, hreverse]
        simp
      have hsuffix : ".*".toList = ['.', '*'] := by decide
      rw [← String.toList_inj, hname, String.toList_append, String.toList_ofList, hsuffix]
    · cases h

/-- The last part of a wildcard is a star. -/
theorem lastSegment_of_wildcard {name : String} {w : Wildcard}
    (h : SelectItem.wildcardOfName? name = some w) : lastSegment name = "*" := by
  by_cases hstar : name = "*"
  · rw [hstar]
    decide
  · rw [SelectItem.wildcardOfName?, if_neg hstar] at h
    split at h
    · rename_i table hreverse
      rw [lastSegment, hreverse]
      simp
    · cases h

/-- A name is a wildcard exactly if its last part is a star. -/
theorem wildcardOfName?_eq_none_iff {name : String} :
    SelectItem.wildcardOfName? name = none ↔ lastSegment name ≠ "*" := by
  constructor
  · intro hnone hstar
    have hwild : ∃ w, SelectItem.wildcardOfName? name = some w := by
      rcases lastSegment_suffix name with hname | ⟨qualifier, hname⟩
      · exact ⟨.all, by rw [hname, hstar]; rfl⟩
      · rw [hname, hstar, String.append_assoc]
        exact ⟨.table qualifier, wildcardOfName?_table qualifier⟩
    obtain ⟨w, hw⟩ := hwild
    rw [hnone] at hw
    cases hw
  · intro hstar
    cases hw : SelectItem.wildcardOfName? name with
    | none => rfl
    | some w => exact absurd (lastSegment_of_wildcard hw) hstar

/-- A qualifier makes no wildcard of a name that is none. -/
theorem wildcardOfName?_qualified (qualifier : String) {name : String}
    (h : SelectItem.wildcardOfName? name = none) :
    SelectItem.wildcardOfName? (qualifier ++ "." ++ name) = none := by
  rw [wildcardOfName?_eq_none_iff] at h ⊢
  rwa [lastSegment_append]

/-! ## Columns of a table -/

/-- What is found under a name is a column of the table with that name. -/
theorem Table.column?_eq_some {t : Table} {c : Column} {name : String}
    (h : t.column? name = some c) : c ∈ t.columns ∧ c.name = name :=
  ⟨List.mem_of_find?_eq_some h, by simpa using List.find?_some h⟩

/-- Whether the table has a point column of the name that stands last in this one. -/
def Table.hasPoint (t : Table) (name : String) : Bool :=
  (t.column? (lastSegment name)).any Column.isPoint

/-- A table with columns that have distinct names, none of them qualified or a star. -/
structure Table.Plain (t : Table) : Prop where
  nonempty : t.columns ≠ []
  distinct : (t.columns.map Column.name).Nodup
  undotted : ∀ c ∈ t.columns, '.' ∉ c.name.toList
  notStar : ∀ c ∈ t.columns, c.name ≠ "*"

/-- The names of a column in a select list: its own, alone or after the alias of its table. -/
def NamesColumn (table column name : String) : Prop :=
  name = column ∨ name = table ++ "." ++ column

/-- The names that end in that of a column, whatever table it is said to be of. -/
def EndsIn (column name : String) : Prop :=
  name = column ∨ ∃ qualifier, name = qualifier ++ "." ++ column

theorem NamesColumn.endsIn {table column name : String} (h : NamesColumn table column name) :
    EndsIn column name := h.imp_right fun h => ⟨table, h⟩

namespace Table.Plain

variable {t : Table} {c c' : Column} {name : String}

theorem eq_of_name (h : t.Plain) (hc : c ∈ t.columns) (hc' : c' ∈ t.columns)
    (hname : c.name = c'.name) : c = c' :=
  List.inj_on_of_nodup_map h.distinct hc hc' hname

/-- A column is found under its name. -/
theorem column?_eq (h : t.Plain) (hc : c ∈ t.columns) : t.column? c.name = some c := by
  cases hf : t.column? c.name with
  | none =>
      have hnone := List.find?_eq_none.mp hf c hc
      simp at hnone
  | some found =>
      -- the first column of this name is the only one
      obtain ⟨hmem, hname⟩ := Table.column?_eq_some hf
      rw [h.eq_of_name hmem hc hname]

/-- Whichever way a column is named, the last part is its name. -/
theorem lastSegment_eq (h : t.Plain) (hc : c ∈ t.columns) (hname : EndsIn c.name name) :
    lastSegment name = c.name := by
  rcases hname with rfl | ⟨qualifier, rfl⟩
  · exact lastSegment_of_undotted (h.undotted c hc)
  · exact lastSegment_qualified qualifier (h.undotted c hc)

/-- No name ends in those of two columns. -/
theorem eq_of_endsIn (h : t.Plain) (hc : c ∈ t.columns) (hc' : c' ∈ t.columns)
    (hname : EndsIn c.name name) (hname' : EndsIn c'.name name) : c = c' :=
  h.eq_of_name hc hc' ((h.lastSegment_eq hc hname).symm.trans (h.lastSegment_eq hc' hname'))

/-- The name of a column is no wildcard. -/
theorem wildcardOfName?_eq_none (h : t.Plain) (hc : c ∈ t.columns) (hname : EndsIn c.name name) :
    SelectItem.wildcardOfName? name = none := by
  rw [wildcardOfName?_eq_none_iff, h.lastSegment_eq hc hname]
  exact h.notStar c hc

/-- A name finds a point exactly if it ends in that of a point column. -/
theorem hasPoint_iff (h : t.Plain) :
    t.hasPoint name = true ↔ ∃ c ∈ t.columns, c.isPoint = true ∧ EndsIn c.name name := by
  rw [Table.hasPoint, Option.any_eq_true]
  constructor
  · rintro ⟨c, hfound, hpoint⟩
    obtain ⟨hc, hname⟩ := Table.column?_eq_some hfound
    exact ⟨c, hc, hpoint, hname ▸ lastSegment_suffix name⟩
  · rintro ⟨c, hc, hpoint, hname⟩
    exact ⟨c, by rw [h.lastSegment_eq hc hname, h.column?_eq hc], hpoint⟩

end Table.Plain

theorem Table.mem_points {t : Table} {c : Column} :
    c ∈ t.points ↔ c ∈ t.columns ∧ c.isPoint = true := List.mem_filter

end PointQuery
