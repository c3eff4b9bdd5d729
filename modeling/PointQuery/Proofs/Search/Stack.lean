import PointQuery.Proofs.Projection.Chain
import PointQuery.Proofs.Search.Sequence
/-!
# Searches on top of each other

Each search that takes effect puts the query, with all searches before, into a derived table. So a
sequence of searches is known by the list of those that took effect: `Searched.exists_stack`.
-/

namespace PointQuery

open Sql

/-- A query inside some searches, the latest of them first; it reads the table if it had no
source. -/
def Search.stack (d : Dialect) (table : String) (q : Query) : List Search → Query
  | [] => q
  | s :: earlier => s.restrict d ((Search.stack d table q earlier).readingFrom table)

/-- What a sequence of searches makes of a query is a stack of those that took effect, each of them
on an attribute. -/
theorem Compiler.Searched.exists_valid_stack {c c' : Compiler} {d : Dialect} (h : c.Searched c')
    (hd : c.dialect = .ok d) :
    ∃ searches : List Search, (∀ s ∈ searches, Attribute.isAttribute s.column.toList) ∧
      c'.query = Search.stack d c.table.name c.query searches := by
  have hall : c'.dialect = c.dialect ∧ c'.table = c.table ∧
      ∃ searches : List Search, (∀ s ∈ searches, Attribute.isAttribute s.column.toList) ∧
        c'.query = Search.stack d c.table.name c.query searches := by
    refine h.preserves (P := fun x => x.dialect = c.dialect ∧ x.table = c.table ∧
      ∃ searches : List Search, (∀ s ∈ searches, Attribute.isAttribute s.column.toList) ∧
        x.query = Search.stack d c.table.name c.query searches)
      ?_ ⟨rfl, rfl, [], by simp, rfl⟩
    rintro x s d' hd' ha ⟨hdialect, htable, searches, hvalid, hquery⟩
    obtain rfl : d' = d := by
      rw [hdialect, hd] at hd'
      cases hd'
      rfl
    refine ⟨hdialect, htable, s :: searches, List.forall_mem_cons.mpr ⟨ha, hvalid⟩, ?_⟩
    show s.restrict d' (x.query.readingFrom x.table.name) = _
    rw [hquery, htable]
    rfl
  exact hall.2.2

theorem Compiler.Searched.exists_stack {c c' : Compiler} {d : Dialect} (h : c.Searched c')
    (hd : c.dialect = .ok d) :
    ∃ searches, c'.query = Search.stack d c.table.name c.query searches := by
  obtain ⟨searches, -, hquery⟩ := h.exists_valid_stack hd
  exact ⟨searches, hquery⟩

/-! ## The derived tables of a stack -/

namespace Sql.Query

variable {q q' : Query} {table : String}

theorem derivedTables_congr (h : q'.source = q.source) : q'.derivedTables = q.derivedTables := by
  cases hd : q.readsDerived with
  | true =>
      obtain ⟨inner, label, hs⟩ := readsDerived_eq_true hd
      rw [derivedTables_of_derived hs, derivedTables_of_derived (h.trans hs)]
  | false =>
      have hd' : q'.readsDerived = false := by
        rw [readsDerived, derivedLabel?, h]
        exact hd
      rw [derivedTables_of_level hd, derivedTables_of_level hd']

/-- To fill in a source changes nothing else. -/
theorem readingFrom_eq (q : Query) (table : String) :
    q.readingFrom table = { q with source := some (q.source.getD (.table table none)) } := by
  obtain ⟨select, source, joins, condition, groupBy, orderBy, limit, offset, distinct, unions⟩ := q
  cases source with
  | none => rfl
  | some source => rfl

theorem select_readingFrom (q : Query) (table : String) :
    (q.readingFrom table).select = q.select := by
  rw [readingFrom_eq]

theorem joins_readingFrom (q : Query) (table : String) :
    (q.readingFrom table).joins = q.joins := by
  rw [readingFrom_eq]

theorem unions_readingFrom (q : Query) (table : String) :
    (q.readingFrom table).unions = q.unions := by
  rw [readingFrom_eq]

/-- To fill in a source makes no derived table. -/
theorem readsDerived_readingFrom (q : Query) (table : String) :
    (q.readingFrom table).readsDerived = q.readsDerived := by
  rw [readingFrom]
  split
  · rfl
  · rename_i hnone
    rw [readsDerived, readsDerived, derivedLabel?, derivedLabel?, hnone]

/-- A query that reads a derived table has a source already. -/
theorem readingFrom_of_derived (h : q.readsDerived = true) : q.readingFrom table = q := by
  obtain ⟨inner, label, hs⟩ := readsDerived_eq_true h
  rw [readingFrom, hs]

theorem derivedTables_readingFrom (q : Query) (table : String) :
    (q.readingFrom table).derivedTables = q.derivedTables := by
  rw [readingFrom]
  split
  · rfl
  · rename_i hnone
    have hlevel : q.readsDerived = false := by
      rw [readsDerived, derivedLabel?, hnone]
      rfl
    rw [derivedTables_of_level hlevel]
    exact derivedTables_of_level rfl

end Sql.Query

section

variable {d : Dialect} {table : String} {q : Query}

theorem derivedTables_stack_cons (s : Search) (earlier : List Search) :
    (Search.stack d table q (s :: earlier)).derivedTables =
      s.measure d ((Search.stack d table q earlier).readingFrom table) ::
        (Search.stack d table q earlier).derivedTables := by
  let inner := (Search.stack d table q earlier).readingFrom table
  have hmeasure : (s.measure d inner).derivedTables = inner.derivedTables :=
    Query.derivedTables_congr rfl
  rw [Search.stack, Query.derivedTables_of_derived rfl, hmeasure, Query.derivedTables_readingFrom]

theorem stack_append (later earlier : List Search) :
    Search.stack d table q (later ++ earlier) =
      Search.stack d table (Search.stack d table q earlier) later := by
  induction later with
  | nil => rfl
  | cons s later ih => rw [List.cons_append, Search.stack, Search.stack, ih]

/-- To measure a query adds to its select list only. -/
theorem innermost_measure (s : Search) (h : q.readsDerived = true) :
    (s.measure d q).innermost = q.innermost := by
  obtain ⟨inner, label, hs⟩ := Query.readsDerived_eq_true h
  rw [Query.innermost_of_derived hs]
  exact Query.innermost_of_derived hs

/-- Searches of a query that reads a derived table leave the innermost level as it is. -/
theorem innermost_stack_of_derived (h : q.readsDerived = true) (searches : List Search) :
    (Search.stack d table q searches).readsDerived = true ∧
      (Search.stack d table q searches).innermost = q.innermost := by
  induction searches with
  | nil => exact ⟨h, rfl⟩
  | cons s earlier ih =>
      obtain ⟨hreads, hinnermost⟩ := ih
      refine ⟨rfl, ?_⟩
      rw [Search.stack, Query.readingFrom_of_derived hreads, Query.innermost_of_derived rfl,
        innermost_measure s hreads, hinnermost]

/-- The innermost level of a stack is the query as the first search measures it. -/
theorem innermost_stack_append (h : q.readsDerived = false) (later : List Search)
    (first : Search) :
    (Search.stack d table q (later ++ [first])).innermost =
      first.measure d (q.readingFrom table) := by
  have hlevel : (first.measure d (q.readingFrom table)).readsDerived = false :=
    (Query.readsDerived_readingFrom q table).trans h
  have hfirst : (Search.stack d table q [first]).innermost =
      first.measure d (q.readingFrom table) :=
    (Query.innermost_of_derived rfl).trans (Query.innermost_of_level hlevel)
  rw [stack_append, (innermost_stack_of_derived rfl later).2, hfirst]

theorem innermost_stack (h : q.readsDerived = false) {searches : List Search}
    (hne : searches ≠ []) :
    ∃ s : Search, (Search.stack d table q searches).innermost =
      s.measure d (q.readingFrom table) := by
  rw [← List.dropLast_concat_getLast hne]
  exact ⟨_, innermost_stack_append h _ _⟩

/-- At the innermost level of a stack on an empty select list, everything is asked for and the first
distance. -/
theorem select_innermost_stack (h : q.readsDerived = false) (hselect : q.select = [])
    {searches : List Search} (hne : searches ≠ []) :
    ∃ distance, (Search.stack d table q searches).innermost.select =
      [.plain "*", .expression distance (some distanceColumn)] := by
  obtain ⟨first, hfirst⟩ := innermost_stack h hne
  refine ⟨first.distance d, ?_⟩
  rw [hfirst, Search.measure, Query.select_readingFrom, hselect]
  rfl

theorem joins_innermost_stack (h : q.readsDerived = false) {searches : List Search}
    (hne : searches ≠ []) : (Search.stack d table q searches).innermost.joins = q.joins := by
  obtain ⟨first, hfirst⟩ := innermost_stack h hne
  rw [hfirst]
  exact Query.joins_readingFrom q table

end

end PointQuery
