import PointQuery.Proofs.Projection.Select
/-!
# Queries inside others

A derived table is projected in one way only: it does not matter what reads it, how many levels lie
around it, nor in which style and mode the whole is projected. `project_readDerived` says it of one
level and `project_nested` of any number of them.
-/

namespace PointQuery

open Sql

/-! ## Nesting -/

/-- The query inside others, the outermost first: each of them reads the next as a derived table,
under the alias it is listed with, and the last one reads the query. -/
def Sql.Query.nested (q : Query) (outers : List (Query × String)) : Query :=
  outers.foldr (fun outer inner => outer.1.edit (.readDerived inner outer.2)) q

theorem innermost_nested (q : Query) (outers : List (Query × String)) :
    (q.nested outers).innermost = q.innermost := by
  induction outers with
  | nil => rfl
  | cons outer outers ih => exact (Query.innermost_of_derived rfl).trans ih

namespace Projection

variable {p : Projection} {q : Query}

/-! ## The style and mode inside derived tables -/

/-- To replace in normal mode projects the innermost level, at the outermost level or not. -/
theorem project_replace_normal (hd : p.dialect.convertsPoints = true) :
    p.project .replace .normal q = q.mapInnermost (p.projectLevel .replace) := by
  cases hderived : q.readsDerived with
  | true => exact project_of_derived hd hderived
  | false => rw [project_of_level hd hderived, Query.mapInnermost_of_level hderived]

/-- A query is replaced down to its innermost level, and nowhere else. -/
theorem innermost_project_replace (p : Projection) (q : Query) :
    (p.project .replace .normal q).innermost = p.project .replace .normal q.innermost := by
  cases hconverts : p.dialect.convertsPoints with
  | false => rw [project_of_plain hconverts, project_of_plain hconverts]
  | true =>
      rw [project_replace_normal hconverts,
        Query.innermost_mapInnermost (p.readsDerived_projectLevel .replace),
        project_of_level hconverts (Query.innermost_readsDerived q)]

/-! ## What lies around a derived table -/

/-- To project a query is to project the derived table that it reads, in normal mode and with points
replaced. Whatever else the query holds is given by `outer`, whose own source plays no part. -/
theorem project_readDerived (p : Projection) (style : ProjectionStyle) (mode : ProjectionMode)
    (outer q : Query) (label : String) :
    p.project style mode (outer.edit (.readDerived q label)) =
      outer.edit (.readDerived (p.project .replace .normal q) label) := by
  cases hconverts : p.dialect.convertsPoints with
  | false => rw [project_of_plain hconverts, project_of_plain hconverts]
  | true =>
      rw [project_of_derived hconverts rfl, Query.mapInnermost_of_derived rfl,
        ← project_replace_normal hconverts]
      rfl

/-- The same with any number of levels around the derived table, but at least one. -/
theorem project_nested (p : Projection) (style : ProjectionStyle) (mode : ProjectionMode)
    (q : Query) (outer : Query × String) (outers : List (Query × String)) :
    p.project style mode (q.nested (outer :: outers)) =
      (p.project .replace .normal q).nested (outer :: outers) := by
  induction outers generalizing outer style mode with
  | nil => exact project_readDerived p style mode outer.1 q outer.2
  | cons next outers ih =>
      -- whatever the style and mode outside, the next level is replaced in normal mode
      calc p.project style mode (q.nested (outer :: next :: outers))
          = outer.1.edit (.readDerived
              (p.project .replace .normal (q.nested (next :: outers))) outer.2) :=
            project_readDerived p style mode outer.1 _ outer.2
        _ = outer.1.edit (.readDerived
              ((p.project .replace .normal q).nested (next :: outers)) outer.2) := by
            rw [ih]
        _ = (p.project .replace .normal q).nested (outer :: next :: outers) := rfl

/-- **A derived table is projected whatever lies around it.** Any query that reads a derived table
is projected, in whatever style and mode, by replacing the points of that table in normal mode. So
for a query inside one or more others the projection is that of the query, inside the same others,
and its innermost level is that of the query with its points replaced: it depends neither on the
levels around nor on the style and mode. -/
theorem project_nested_independent (p : Projection) (q : Query) :
    (∀ (outer : Query) (label : String) (style : ProjectionStyle) (mode : ProjectionMode),
      p.project style mode (outer.edit (.readDerived q label)) =
        outer.edit (.readDerived (p.project .replace .normal q) label)) ∧
    ∀ (outer : Query × String) (outers : List (Query × String)) (style : ProjectionStyle)
      (mode : ProjectionMode),
      let projected := p.project style mode (q.nested (outer :: outers))
      projected = (p.project .replace .normal q).nested (outer :: outers) ∧
        projected.innermost = p.project .replace .normal q.innermost := by
  refine ⟨fun outer label style mode => project_readDerived p style mode outer q label, ?_⟩
  intro outer outers style mode projected
  have hprojected : projected = _ := project_nested p style mode q outer outers
  refine ⟨hprojected, ?_⟩
  rw [hprojected, innermost_nested, innermost_project_replace]

end Projection

end PointQuery
