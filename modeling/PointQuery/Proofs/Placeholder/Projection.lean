import PointQuery.Proofs.Placeholder.Sound
import PointQuery.Proofs.Projection.Names
/-!
# Projected queries are sound

Projecting writes column names, aliases and casts around them. All of these are inert if the names
of the table and the texts of the query are, so a sound query is projected to a sound query, and so
is its scalar form.
-/

namespace PointQuery

open Sql

/-! ## Names that a level sees -/

/-- The names under which a level sees its tables are inert. -/
structure Visible.InertNames (v : Visible) : Prop where
  primary : Inert v.primary.toList
  joined : ∀ name ∈ v.joined, Inert name.toList

theorem inert_sourceAlias {q : Query} (h : q.Sound) {table : String} (ht : Inert table.toList) :
    Inert (q.sourceAlias table).toList := by
  have hs := h.source
  unfold Query.sourceAlias
  split
  · exact ht
  · rename_i inner label heq
    rw [heq] at hs
    exact (soundParts_derived.mp hs).2
  · rename_i name label heq
    rw [heq] at hs
    exact hs.1 label (by simp [sourceTexts])
  · rename_i name heq
    rw [heq] at hs
    exact inert_tableAlias (hs.1 name (by simp [sourceTexts]))

theorem inertNames_ofLevel {q : Query} (h : q.Sound) {t : Table} (ht : t.InertNames) :
    (Visible.ofLevel q t).InertNames where
  primary := inert_sourceAlias h ht.1
  joined := by
    intro name hn
    obtain ⟨j, hj, rfl⟩ := List.mem_map.mp hn
    exact inert_tableAlias (h.joins j hj).1

/-! ## Items -/

theorem sound_column {name : String} {label : Option String} (hn : Inert name.toList)
    (hl : ∀ s ∈ label.toList, Inert s.toList) : (SelectItem.column name label : Item).Sound :=
  ⟨List.forall_mem_cons.mpr ⟨hn, hl⟩, by simp [itemExpressions]⟩

theorem sound_wildcardOf {table : String} (h : Inert table.toList) :
    (SelectItem.wildcardOf table : Item).Sound := by
  exact sound_column (inert_append h (by decide)) (by simp)

namespace Projection

variable {p : Projection} {v : Visible} {style : ProjectionStyle}

theorem sound_cast {column output : String} (hc : Inert column.toList)
    (ho : Inert output.toList) : (p.cast column output).Sound := by
  have hsql : Inert (p.dialect.pointAsText column).toList := by
    cases p.dialect
    · exact inert_append (inert_append (by decide) hc) (by decide)
    · exact hc
  refine ⟨by simpa [cast, itemTexts] using ho, ?_⟩
  simpa [cast, itemExpressions] using Fragment.aligned_raw hsql

theorem sound_expand {item : Item} {wildcard : Wildcard} (ht : p.table.InertNames)
    (hv : v.InertNames) (hi : item.Sound) : ∀ i ∈ p.expand v item wildcard, i.Sound := by
  intro i hmem
  rw [expand] at hmem
  split at hmem
  · obtain rfl := List.mem_singleton.mp hmem
    exact hi
  rcases List.mem_append.mp hmem with hmem | hmem
  · obtain ⟨c, hc, rfl⟩ := List.mem_map.mp hmem
    have hname : Inert c.name.toList := ht.2 c hc
    have hqualified : Inert (v.primary ++ "." ++ c.name).toList :=
      inert_append (inert_append hv.primary (by decide)) hname
    unfold expandColumn
    split
    · exact sound_cast hqualified hname
    · exact sound_column hqualified (by simp)
  · split at hmem
    · obtain ⟨name, hn, rfl⟩ := List.mem_map.mp hmem
      exact sound_wildcardOf (hv.joined name hn)
    · simp at hmem

/-- A column that the table knows under the last part of its name has that part as a name. -/
theorem sound_namedColumn {name : String} {label : Option String} (ht : p.table.InertNames)
    (hn : Inert name.toList) (hl : ∀ s ∈ label.toList, Inert s.toList) :
    (p.namedColumn name label).Sound := by
  unfold namedColumn
  split
  · rename_i c hc
    split
    · refine sound_cast hn ?_
      cases label with
      | some label => exact hl label (by simp)
      | none =>
          obtain ⟨hmem, hname⟩ := Table.column?_eq_some hc
          rw [Option.getD_none, ← hname]
          exact ht.2 c hmem
    · exact sound_column hn hl
  · exact sound_column hn hl

theorem sound_projectItem {item : Item} (ht : p.table.InertNames) (hv : v.InertNames)
    (hi : item.Sound) : ∀ i ∈ p.projectItem v style item, i.Sound := by
  intro i hmem
  unfold projectItem at hmem
  split at hmem
  · split at hmem
    · cases style with
      | additive => exact List.mem_singleton.mp hmem ▸ hi
      | replace => exact sound_expand ht hv hi i hmem
    · exact List.mem_singleton.mp hmem ▸ hi
  · split at hmem
    · rename_i name label _
      obtain rfl := List.mem_singleton.mp hmem
      exact sound_namedColumn ht (hi.1 name (by simp [itemTexts]))
        fun s hs => hi.1 s (List.mem_cons_of_mem _ hs)
    · exact List.mem_singleton.mp hmem ▸ hi

theorem sound_requested {select : List Item} (hv : v.InertNames) (h : ∀ i ∈ select, i.Sound) :
    ∀ i ∈ v.requested select, i.Sound := by
  intro i hmem
  unfold Visible.requested at hmem
  split at hmem
  · obtain ⟨name, hn, rfl⟩ := List.mem_map.mp hmem
    rcases List.mem_cons.mp hn with rfl | hn
    · exact sound_wildcardOf hv.primary
    · exact sound_wildcardOf (hv.joined name hn)
  · exact h i hmem

theorem sound_pointCasts (ht : p.table.InertNames) : ∀ i ∈ p.pointCasts, i.Sound := by
  intro i hmem
  obtain ⟨name, hn, rfl⟩ := List.mem_map.mp hmem
  obtain ⟨c, hc, rfl⟩ := List.mem_map.mp (List.mem_eraseDups.mp hn)
  have hname : Inert c.name.toList := ht.2 c (List.mem_filter.mp hc).1
  exact sound_cast hname hname

/-- Projecting a level keeps it sound. -/
theorem sound_projectLevel {q : Query} (ht : p.table.InertNames) (h : q.Sound) :
    (p.projectLevel style q).Sound := by
  have hv := inertNames_ofLevel h ht
  refine { h with select := ?_ }
  intro i hmem
  rcases List.mem_append.mp hmem with hmem | hmem
  · obtain ⟨item, hitem, hi⟩ := List.mem_flatMap.mp hmem
    exact sound_projectItem ht hv (sound_requested hv h.select item hitem) i hi
  · split at hmem
    · exact sound_pointCasts ht i hmem
    · simp at hmem

theorem sound_mapInnermost {f : Query → Query} (hf : ∀ q : Query, q.Sound → (f q).Sound) (q : Query)
    (h : q.Sound) : (q.mapInnermost f).Sound := by
  induction q using Query.chain_induction with
  | level q hq => rw [Query.mapInnermost_of_level hq]; exact hf q h
  | derived q inner label hs ih =>
      have hsource := h.source
      rw [hs] at hsource
      obtain ⟨hinner, hlabel⟩ := soundParts_derived.mp hsource
      rw [Query.mapInnermost_of_derived hs]
      exact { h with source := soundParts_derived.mpr ⟨ih hinner, hlabel⟩ }

/-- Projecting a query keeps it sound. -/
theorem sound_project {mode : ProjectionMode} {q : Query} (ht : p.table.InertNames) (h : q.Sound) :
    (p.project style mode q).Sound := by
  unfold project
  split
  · exact h
  split
  · exact sound_mapInnermost (fun q => sound_projectLevel ht) q h
  · cases mode with
    | normal => exact sound_projectLevel ht h
    | suppressed => exact h

end Projection

/-- The scalar form of a sound query is sound. -/
theorem Compiler.sound_scalarForm {c : Compiler} (ht : c.table.InertNames) (h : c.query.Sound)
    {expression : String} (he : Inert expression.toList) : (c.scalarForm expression).Sound := by
  have hq := h.readingFrom ht.1
  have hselect : ∀ item ∈ [(SelectItem.raw expression : Item)], item.Sound := by
    intro item hi
    obtain rfl := List.mem_singleton.mp hi
    exact ⟨by simp [SelectItem.raw, itemTexts],
      by simpa [SelectItem.raw, itemExpressions] using Fragment.aligned_raw he⟩
  rw [scalarForm]
  split
  · exact { hq with select := hselect, orderBy := by simp }
  · exact ⟨hselect, soundParts_derived.mpr ⟨hq, by decide⟩, by simp, by simp, by simp, by simp,
      ⟨by simp [unionsTexts], by simp [unionsExpressions]⟩⟩

end PointQuery
