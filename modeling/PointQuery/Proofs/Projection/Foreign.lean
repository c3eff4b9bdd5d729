import PointQuery.Proofs.Projection.Coverage
import PointQuery.Proofs.Projection.Frame
/-!
# Columns of other tables

A wildcard over another table than the one that is projected stays as it is. A single column is
looked up by the last part of its name, and what stands before it plays no part: a column of another
table stays only if the projected table has no point column of that name. `projectItem_qualified`
says it of one item, and `project_otherColumn_iff` of the item in its query.
-/

namespace PointQuery

open Sql

namespace Projection

variable {p : Projection} {v : Visible} {style : ProjectionStyle}

/-- A qualified column becomes what the column does. -/
theorem projectItem_qualified (hd : p.dialect = .mysql) (qualifier : String) {name : String}
    (hname : SelectItem.wildcardOfName? name = none) (label : Option String) :
    p.projectItem v style (.column (qualifier ++ "." ++ name) label) =
      [if p.table.hasPoint name then
        asText (qualifier ++ "." ++ name) (label.getD (lastSegment name))
      else .column (qualifier ++ "." ++ name) label] := by
  have hpoint : p.table.hasPoint (qualifier ++ "." ++ name) = p.table.hasPoint name := by
    rw [Table.hasPoint, lastSegment_append]
    rfl
  rw [projectItem_column (wildcardOfName?_qualified qualifier hname), namedColumn_eq, hpoint,
    lastSegment_append, cast_mysql hd]

/-! ## In its query -/

/-- **A column of another table stays exactly if the table has no point of that name.** On MySQL
take a query whose innermost level is projected, and in the select list of that level one column of
another table, joined or not. All around it the new list is made item by item of the old one. The
column stays as it is if and only if the projected table has no point column of the same name; if it
has one, the column gives way to its text, as if it were of that table. A wildcard over the other
table stays in any case. -/
theorem project_otherColumn_iff (hd : p.dialect = .mysql) (style : ProjectionStyle)
    {mode : ProjectionMode} {q : Query} (hmode : mode = .normal ∨ q.readsDerived = true)
    {other name : String} {label : Option String} {before after : List Item}
    (hother : other ≠ q.innermost.sourceAlias p.table.name)
    (hname : SelectItem.wildcardOfName? name = none)
    (hselect : q.innermost.select = before ++ .column (other ++ "." ++ name) label :: after) :
    let becomes := p.projectItem (.ofLevel q.innermost p.table) (innermostStyle style q)
    let item : Item := .column (other ++ "." ++ name) label
    let text := asText (other ++ "." ++ name) (label.getD (lastSegment name))
    ∃ added, let around := fun item : Item =>
        before.flatMap becomes ++ item :: (after.flatMap becomes ++ added)
      ((p.project style mode q).innermost.select = around item ↔
        p.table.hasPoint name = false) ∧
      ((p.project style mode q).innermost.select = around text ↔
        p.table.hasPoint name = true) ∧
      becomes (.wildcardOf other) = [.wildcardOf other] := by
  intro becomes item text
  have hne : item ≠ text := by simp [item, text, asText]
  have hitem : becomes item = [if p.table.hasPoint name then text else item] :=
    projectItem_qualified hd other hname label
  have hlist : q.innermost.select ≠ [] := by simp [hselect]
  obtain ⟨added, hadded, -⟩ := projectSelect_eq_append p (.ofLevel q.innermost p.table)
    (innermostStyle style q) q.innermost.select
  have hprojected : (p.project style mode q).innermost.select =
      before.flatMap becomes ++
        (if p.table.hasPoint name then text else item) :: (after.flatMap becomes ++ added) := by
    rw [innermost_project hd hmode]
    calc p.projectSelect (.ofLevel q.innermost p.table) (innermostStyle style q)
          q.innermost.select
        = (before ++ item :: after).flatMap becomes ++ added := by
          rw [hadded, requested_of_ne_nil hlist, hselect]
      _ = _ := by
          rw [List.flatMap_append, List.flatMap_cons, hitem]
          simp only [List.append_assoc, List.cons_append, List.nil_append]
  refine ⟨added, ?_⟩
  intro around
  have haround : ∀ item item', around item = around item' ↔ item = item' := by
    intro item item'
    simp [around]
  rw [hprojected]
  refine ⟨(haround _ _).trans ?_, (haround _ _).trans ?_, projectItem_wildcardOf_foreign hother⟩
  · cases p.table.hasPoint name <;> simp [hne.symm]
  · cases p.table.hasPoint name <;> simp [hne]

/-- Places, with where they are and since when. -/
def places : Table :=
  ⟨"places", [⟨"id", "int", false⟩, ⟨"location", "point", false⟩, ⟨"since", "date", false⟩]⟩

/-- Places with a column of their owners. -/
def placesWithOwners (column : String) : Query where
  select := [.plain "p.id", .column ("o" ++ "." ++ column) none]
  source := some (.table "places p" none)
  joins := [⟨.inner, "owners o", "o.id = p.owner"⟩]

theorem placesWithOwners_otherColumn_iff :
    let p : Projection := ⟨.mysql, places⟩
    let q := placesWithOwners "since"
    let becomes := p.projectItem (.ofLevel q.innermost p.table) (innermostStyle .replace q)
    let item : Item := .column ("o" ++ "." ++ "since") none
    let text := asText ("o" ++ "." ++ "since") ((none : Option String).getD (lastSegment "since"))
    p.dialect = .mysql ∧ "o" ≠ q.innermost.sourceAlias p.table.name ∧
      SelectItem.wildcardOfName? "since" = none ∧
      q.innermost.select = [.plain "p.id"] ++ .column ("o" ++ "." ++ "since") none :: [] ∧
      ∃ added, let around := fun item : Item =>
          [.plain "p.id"].flatMap becomes ++ item :: (([] : List Item).flatMap becomes ++ added)
        ((p.project .replace .normal q).innermost.select = around item ↔
          p.table.hasPoint "since" = false) ∧
        ((p.project .replace .normal q).innermost.select = around text ↔
          p.table.hasPoint "since" = true) ∧
        becomes (.wildcardOf "o") = [.wildcardOf "o"] := by
  intro p q becomes item text
  have hother : "o" ≠ q.innermost.sourceAlias p.table.name := by decide +kernel
  have hname : SelectItem.wildcardOfName? "since" = none := by decide
  exact ⟨rfl, hother, hname, rfl,
    project_otherColumn_iff rfl .replace (.inl rfl) hother hname rfl⟩

/-- The location of an owner, which is no point, is converted because places have a point of that
name; all of an owner's columns together are left alone. -/
theorem placesWithOwners_foreignLocation_converted :
    let p : Projection := ⟨.mysql, places⟩
    let q := placesWithOwners "location"
    let all := placesWithOwners "*"
    "o" ∈ q.joinAliases ∧ "o" ≠ q.sourceAlias p.table.name ∧
      q.select = [.plain "p.id", .plain "o.location"] ∧
      ∀ style,
        (p.project style .normal q).select =
          [.plain "p.id", asText "o.location" "location"] ∧
        (p.project style .normal q).select ≠ q.select ∧
        (p.project style .normal all).select = all.select := by
  intro p q all
  refine ⟨by decide +kernel, by decide +kernel, rfl, ?_⟩
  intro style
  have hconverted : (p.project style .normal q).select =
      [.plain "p.id", asText "o.location" "location"] := by
    cases style with
    | additive => rfl
    | replace => rfl
  refine ⟨hconverted, ?_, ?_⟩
  · rw [hconverted]
    simp [q, placesWithOwners, asText]
  · cases style with
    | additive => rfl
    | replace => rfl

end Projection

end PointQuery
