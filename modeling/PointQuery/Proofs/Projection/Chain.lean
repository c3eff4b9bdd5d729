import PointQuery.Projection
/-!
# The chain of derived tables

A query that reads from a derived table has another query inside, and so on down to the innermost
level, which reads a table or nothing. `Query.chain_induction` is induction along this chain; the
other facts say how `innermost` and `mapInnermost` go one step down it.
-/

namespace PointQuery.Sql.Query

theorem readsDerived_eq_false {q : Query} (h : q.readsDerived = false) (inner : Query)
    (label : String) : q.source ≠ some (.derived inner label) := by
  intro hs
  simp [readsDerived, derivedLabel?, hs] at h

theorem readsDerived_eq_true {q : Query} (h : q.readsDerived = true) :
    ∃ inner label, q.source = some (.derived inner label) := by
  unfold readsDerived derivedLabel? at h
  split at h
  · exact ⟨_, _, ‹_›⟩
  · simp at h

/-! ## One step down -/

section

variable {f : Query → Query} {q inner : Query} {label : String}

theorem innermost_of_derived (h : q.source = some (.derived inner label)) :
    q.innermost = inner.innermost := by
  obtain ⟨select, source, joins, condition, groupBy, orderBy, limit, offset, distinct, unions⟩ := q
  cases h
  rw [innermost]

theorem innermost_of_level (h : q.readsDerived = false) : q.innermost = q := by
  rw [innermost.eq_def]
  split
  · exact absurd rfl (readsDerived_eq_false h _ _)
  · rfl

theorem mapInnermost_of_derived (h : q.source = some (.derived inner label)) :
    q.mapInnermost f = { q with source := some (.derived (inner.mapInnermost f) label) } := by
  obtain ⟨select, source, joins, condition, groupBy, orderBy, limit, offset, distinct, unions⟩ := q
  cases h
  rw [mapInnermost]

theorem mapInnermost_of_level (h : q.readsDerived = false) : q.mapInnermost f = f q := by
  rw [mapInnermost.eq_def]
  split
  · exact absurd rfl (readsDerived_eq_false h _ _)
  · rfl

end

/-- Induction along the chain of derived tables: what holds of each level that reads no derived
table, and of a query if it holds of the derived table that it reads, holds of every query. -/
theorem chain_induction {P : Query → Prop} (level : ∀ q : Query, q.readsDerived = false → P q)
    (derived : ∀ (q inner : Query) (label : String),
      q.source = some (.derived inner label) → P inner → P q) (q : Query) : P q := by
  induction q using innermost.induct with
  | case1 _ inner label _ _ _ _ _ _ _ _ ih => exact derived _ inner label rfl ih
  | case2 q h =>
      refine level q ?_
      cases hd : q.readsDerived with
      | false => rfl
      | true =>
          obtain ⟨inner, label, hs⟩ := readsDerived_eq_true hd
          obtain ⟨select, source, joins, condition, groupBy, orderBy, limit, offset, distinct,
            unions⟩ := q
          cases hs
          exact absurd rfl (h _ _ _ _ _ _ _ _ _ _ _)

/-! ## The innermost level -/

theorem innermost_readsDerived (q : Query) : q.innermost.readsDerived = false := by
  induction q using chain_induction with
  | level q h => rw [innermost_of_level h, h]
  | derived q inner label h ih => rw [innermost_of_derived h, ih]

/-- Changing the innermost level changes what is there, if the change makes no derived table. -/
theorem innermost_mapInnermost {f : Query → Query}
    (hf : ∀ q : Query, q.readsDerived = false → (f q).readsDerived = false) (q : Query) :
    (q.mapInnermost f).innermost = f q.innermost := by
  induction q using chain_induction with
  | level q h => rw [mapInnermost_of_level h, innermost_of_level h, innermost_of_level (hf q h)]
  | derived q inner label h ih =>
      rw [mapInnermost_of_derived h, innermost_of_derived h, innermost_of_derived rfl, ih]

/-! ## All derived tables -/

/-- The derived tables that a query reads, one inside the other, the outermost first. -/
def derivedTables : Query → List Query
  | { source := some (.derived inner _), .. } => inner :: inner.derivedTables
  | _ => []

theorem derivedTables_of_derived {q inner : Query} {label : String}
    (h : q.source = some (.derived inner label)) :
    q.derivedTables = inner :: inner.derivedTables := by
  obtain ⟨select, source, joins, condition, groupBy, orderBy, limit, offset, distinct, unions⟩ := q
  cases h
  rw [derivedTables]

theorem derivedTables_of_level {q : Query} (h : q.readsDerived = false) :
    q.derivedTables = [] := by
  rw [derivedTables.eq_def]
  split
  · exact absurd rfl (readsDerived_eq_false h _ _)
  · rfl

/-- All derived tables of a query end in the same level. -/
theorem innermost_of_mem_derivedTables {q t : Query} (h : t ∈ q.derivedTables) :
    t.innermost = q.innermost := by
  induction q using chain_induction with
  | level q hq =>
      rw [derivedTables_of_level hq] at h
      cases h
  | derived q inner label hq ih =>
      rw [derivedTables_of_derived hq] at h
      rw [innermost_of_derived hq]
      rcases List.mem_cons.mp h with rfl | hmem
      · rfl
      · exact ih hmem

/-- Changing the innermost level changes each derived table in the same way. -/
theorem derivedTables_mapInnermost {f : Query → Query}
    (hf : ∀ q : Query, q.readsDerived = false → (f q).readsDerived = false) (q : Query) :
    (q.mapInnermost f).derivedTables = q.derivedTables.map fun t => t.mapInnermost f := by
  induction q using chain_induction with
  | level q h =>
      rw [mapInnermost_of_level h, derivedTables_of_level h, derivedTables_of_level (hf q h),
        List.map_nil]
  | derived q inner label h ih =>
      rw [mapInnermost_of_derived h, derivedTables_of_derived h, derivedTables_of_derived rfl, ih,
        List.map_cons]

end PointQuery.Sql.Query
