import PointQuery.Proofs.Compiler.Statement
import PointQuery.Proofs.Projection.Chain
import PointQuery.Proofs.Projection.Select
import PointQuery.Proofs.Rendering.Values
/-!
# The frame of the projection

Down the chain of derived tables the projection touches one select list, that of the innermost
level, and in it only what is asked for by the name of a column. Expressions and subqueries stay as
they are and where they are, so the values of a query are the same before and after, in the same
order. `Framed` says what two queries so related have in common; union members are left out of it,
but for the values that they bring.
-/

namespace PointQuery

open Sql

/-! ## What a change leaves alone -/

/-- What the projection writes itself: columns and points as text. -/
def Projection.Writes (p : Projection) (item : Item) : Prop :=
  (∃ name label, item = .column name label) ∨ ∃ column output, item = p.cast column output

/-- One select list made of another, item by item: expressions and subqueries give themselves,
columns give what the projection writes, and more of that may follow at the end. -/
def Projection.Keeps (p : Projection) (select select' : List Item) : Prop :=
  ∃ (becomes : Item → List Item) (added : List Item),
    select' = select.flatMap becomes ++ added ∧
    (∀ item ∈ select, isComputed item = true → becomes item = [item]) ∧
    (∀ item ∈ select, isComputed item = false → ∀ item' ∈ becomes item, p.Writes item') ∧
    ∀ item ∈ added, p.Writes item

/-- Two queries have the same clauses, select lists and sources apart, and union members that bring
the same values. -/
structure SameClauses (q q' : Query) : Prop where
  joins : q'.joins = q.joins
  condition : q'.condition = q.condition
  groupBy : q'.groupBy = q.groupBy
  orderBy : q'.orderBy = q.orderBy
  limit : q'.limit = q.limit
  offset : q'.offset = q.offset
  distinct : q'.distinct = q.distinct
  unionValues : (renderUnions q'.unions).params = (renderUnions q.unions).params

/-- The second query is the first with another select list at its innermost level, in which all that
is not asked for by name is kept. -/
inductive Framed (p : Projection) : Query → Query → Prop where
  | level {q q' : Query} : q.readsDerived = false → q'.source = q.source → SameClauses q q' →
      p.Keeps q.select q'.select → Framed p q q'
  | derived {q q' inner inner' : Query} {label : String} :
      q.source = some (.derived inner label) → q'.source = some (.derived inner' label) →
      SameClauses q q' → q'.select = q.select → Framed p inner inner' → Framed p q q'

theorem SameClauses.refl (q : Query) : SameClauses q q :=
  ⟨rfl, rfl, rfl, rfl, rfl, rfl, rfl, rfl⟩

theorem sameClauses_update (q : Query) (select : List Item) (source : Option (Source Query)) :
    SameClauses q { q with select, source } := ⟨rfl, rfl, rfl, rfl, rfl, rfl, rfl, rfl⟩

/-! ## Values -/

theorem Projection.Writes.values {p : Projection} {item : Item} (h : p.Writes item) :
    itemValues item = [] := by
  rcases h with ⟨name, label, rfl⟩ | ⟨column, output, rfl⟩
  · exact itemValues_column name label
  · rw [cast, itemValues_expression, Fragment.params_raw]

theorem Projection.Keeps.values {p : Projection} {select select' : List Item}
    (h : p.Keeps select select') : select'.flatMap itemValues = select.flatMap itemValues := by
  obtain ⟨becomes, added, rfl, hcomputed, hcolumn, hadded⟩ := h
  have hitem : ∀ item ∈ select, (becomes item).flatMap itemValues = itemValues item := by
    intro item hmem
    cases ho : isComputed item with
    | true => rw [hcomputed item hmem ho, List.flatMap_singleton]
    | false =>
        obtain ⟨name, label, rfl⟩ : ∃ name label, item = .column name label := by
          cases item with
          | column name label => exact ⟨name, label, rfl⟩
          | expression => cases ho
          | subquery => cases ho
        rw [itemValues_column, List.flatMap_eq_nil_iff]
        exact fun item' hmem' => (hcolumn _ hmem ho item' hmem').values
  have hnone : added.flatMap itemValues = [] :=
    List.flatMap_eq_nil_iff.mpr fun item hmem => (hadded item hmem).values
  rw [List.flatMap_append, List.flatMap_assoc, hnone, List.append_nil]
  exact List.flatMap_congr hitem

/-- Queries that differ in one select list, as far as the frame allows, bind the same values. -/
theorem Framed.values {p : Projection} {q q' : Query} (h : Framed p q q') :
    q'.render.params = q.render.params := by
  induction h with
  | level _ hsource hclauses hkeeps =>
      rw [Query.params_render, Query.params_render, hkeeps.values, hsource, hclauses.condition,
        hclauses.unionValues]
  | derived hsource hsource' hclauses hselect _ ih =>
      rw [Query.params_render, Query.params_render, hselect, hsource, hsource',
        params_renderSource_derived, params_renderSource_derived, ih, hclauses.condition,
        hclauses.unionValues]

/-! ## One level -/

namespace Projection

variable {p : Projection} {v : Visible} {style : ProjectionStyle} {mode : ProjectionMode}
  {q : Query}

theorem keeps_refl (select : List Item) : p.Keeps select select := by
  refine ⟨fun item => [item], [], by simp, fun _ _ _ => rfl, ?_, by simp⟩
  intro item _ ho item' hmem
  obtain rfl := List.mem_singleton.mp hmem
  cases item' with
  | column name label => exact .inl ⟨name, label, rfl⟩
  | expression => cases ho
  | subquery => cases ho

theorem writes_expand {name : String} {label : Option String} {w : Wildcard} {item : Item}
    (h : item ∈ p.expand v (.column name label) w) : p.Writes item := by
  rw [expand] at h
  split at h
  · exact .inl ⟨name, label, List.mem_singleton.mp h⟩
  · rcases List.mem_append.mp h with hcolumn | hjoined
    · obtain ⟨c, -, rfl⟩ := List.mem_map.mp hcolumn
      rw [expandColumn]
      split
      · exact .inr ⟨_, _, rfl⟩
      · exact .inl ⟨_, _, rfl⟩
    · split at hjoined
      · obtain ⟨table, -, rfl⟩ := List.mem_map.mp hjoined
        exact .inl ⟨_, _, rfl⟩
      · cases hjoined

theorem writes_namedColumn (name : String) (label : Option String) :
    p.Writes (p.namedColumn name label) := by
  rw [namedColumn_eq]
  split
  · exact .inr ⟨_, _, rfl⟩
  · exact .inl ⟨_, _, rfl⟩

theorem writes_projectItem_column {name : String} {label : Option String} {item : Item}
    (h : item ∈ p.projectItem v style (.column name label)) : p.Writes item := by
  have hself : p.Writes (.column name label) := .inl ⟨name, label, rfl⟩
  rw [projectItem.eq_def] at h
  split at h
  · split at h
    · cases style with
      | additive => exact List.mem_singleton.mp h ▸ hself
      | replace => exact writes_expand h
    · exact List.mem_singleton.mp h ▸ hself
  · exact List.mem_singleton.mp h ▸ writes_namedColumn name label

theorem writes_projectItem {item item' : Item} (ho : isComputed item = false)
    (h : item' ∈ p.projectItem v style item) : p.Writes item' := by
  cases item with
  | column name label => exact writes_projectItem_column h
  | expression => cases ho
  | subquery => cases ho

/-- The new list is made item by item of what is asked for, and what follows is written anew. -/
theorem projectSelect_eq_append (p : Projection) (v : Visible) (style : ProjectionStyle)
    (select : List Item) :
    ∃ added, p.projectSelect v style select =
        (v.requested select).flatMap (p.projectItem v style) ++ added ∧
      ∀ item ∈ added, p.Writes item := by
  refine ⟨_, rfl, ?_⟩
  intro item hmem
  split at hmem
  · obtain ⟨name, -, rfl⟩ := List.mem_map.mp hmem
    exact .inr ⟨_, _, rfl⟩
  · cases hmem

theorem keeps_projectSelect (select : List Item) :
    p.Keeps select (p.projectSelect v style select) := by
  obtain ⟨added, heq, hadded⟩ := projectSelect_eq_append p v style select
  rw [heq]
  by_cases hselect : select = []
  · -- nothing is asked for by name, so the whole list is written anew
    subst hselect
    refine ⟨fun item => [item], _, rfl, by simp, by simp, ?_⟩
    intro item hmem
    rcases List.mem_append.mp hmem with hitem | hitem
    · obtain ⟨asked, hasked, hitem⟩ := List.mem_flatMap.mp hitem
      exact writes_projectItem (requested_nil_column hasked) hitem
    · exact hadded item hitem
  · rw [requested_of_ne_nil hselect]
    exact ⟨p.projectItem v style, added, rfl, fun _ _ => projectItem_of_computed,
      fun _ _ ho _ => writes_projectItem ho, hadded⟩

/-! ## The whole query -/

theorem framed_refl (q : Query) : Framed p q q := by
  induction q using Query.chain_induction with
  | level q h => exact .level h rfl (.refl q) (keeps_refl _)
  | derived q inner label h ih => exact .derived h h (.refl q) rfl ih

theorem framed_projectLevel (h : q.readsDerived = false) : Framed p q (p.projectLevel style q) :=
  .level h rfl (sameClauses_update q _ _) (keeps_projectSelect _)

theorem framed_mapInnermost (q : Query) : Framed p q (q.mapInnermost (p.projectLevel style)) := by
  induction q using Query.chain_induction with
  | level q h =>
      rw [Query.mapInnermost_of_level h]
      exact framed_projectLevel h
  | derived q inner label h ih =>
      rw [Query.mapInnermost_of_derived h]
      exact .derived h rfl (sameClauses_update q _ _) rfl ih

theorem framed_project (p : Projection) (style : ProjectionStyle) (mode : ProjectionMode)
    (q : Query) : Framed p q (p.project style mode q) := by
  rw [project.eq_def]
  split
  · exact framed_refl q
  · split
    · exact framed_mapInnermost q
    · rename_i hderived
      have hlevel : q.readsDerived = false := by simpa using hderived
      cases mode with
      | normal => exact framed_projectLevel hlevel
      | suppressed => exact framed_refl q

/-- **The projection has a frame.** Whatever the query, style, mode and dialect, at most the select
list of the innermost level is another, and in it expressions and subqueries are kept in their
order; the list stays as it is where the dialect needs no conversion, and at the outermost level in
suppressed mode. So the query binds the same values as before, and a statement compiled from it
carries those of the query as it was built. -/
theorem project_frame (p : Projection) (style : ProjectionStyle) (mode : ProjectionMode)
    (q : Query) :
    let q' := p.project style mode q
    Framed p q q' ∧
    (p.dialect.convertsPoints = false ∨ (mode = .suppressed ∧ q.readsDerived = false) →
      q'.innermost.select = q.innermost.select) ∧
    q'.render.params = q.render.params ∧
    ∀ c : Compiler, c.query = q → ∀ d, c.dialect = .ok d →
      ∃ sql, c.compileIn mode = .ok ⟨sql, q.render.params⟩ := by
  intro q'
  have hframed : Framed p q q' := framed_project p style mode q
  refine ⟨hframed, ?_, hframed.values, ?_⟩
  · rintro (hd | ⟨rfl, hlevel⟩)
    · rw [show q' = q from project_of_plain hd]
    · rw [show q' = q from project_suppressed_level hlevel]
  · rintro c rfl d hd
    have hsource : (c.query.readingFrom c.table.name).render.params = c.query.render.params := by
      rw [Query.params_render, Query.params_render, Query.readingFrom]
      split
      · rfl
      · rename_i hnone
        rw [params_renderSource_table, hnone, renderSource]
        rfl
    have hvalues : (c.projected d mode c.query).render.params = c.query.render.params :=
      (framed_project _ _ _ _).values.trans hsource
    refine ⟨d.writePlaceholders (c.projected d mode c.query).render.sql, ?_⟩
    rw [← hvalues]
    exact Compiler.statement_eq hd mode c.query

end Projection

end PointQuery
