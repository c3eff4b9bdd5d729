import PointQuery.Proofs.Compiler.Statement
import PointQuery.Proofs.Placeholder.Projection
import PointQuery.Proofs.Search.Sequence
/-!
# Placeholders and values of a statement

A statement has a placeholder for each of its values, in the same order. `Written` says how a
fragment appears in a statement: its pieces with numbered placeholders between them, one for each
value. `BindsInOrder` says that a statement is written in this way as a whole, and that each
expression of its query is: the numbers of its placeholders are the places of its values.
-/

namespace PointQuery

open Sql

/-- The characters are the text of the fragment with a placeholder for each of its values, numbered
on from a count; what stands between the placeholders is inert. -/
def Written (write : Nat → List Char) (count : Nat) (f : Fragment) (cs : List Char) : Prop :=
  ∃ ps : List (List Char), ps.length = f.params.length + 1 ∧ (∀ p ∈ ps, Inert p) ∧
    f.sql.toList = weave (fun _ => ['?']) count ps ∧ cs = weave write count ps

/-- An aligned fragment is written by rendering its placeholders. -/
theorem written_of_aligned (write : Nat → List Char) (count : Nat) {f : Fragment}
    (h : f.Aligned) :
    Written write count f (replacePlaceholders write none count f.sql.toList) := by
  refine ⟨pieces none f.sql.toList, ?_, fun p hp => inert_of_mem_pieces h.1 hp, ?_,
    replacePlaceholders_eq_weave _ _ _ _⟩
  · rw [length_pieces]
    exact congrArg (· + 1) h.2
  · rw [← replacePlaceholders_eq_weave, replacePlaceholders_id]

/-- The placeholder with a number: a question mark on MySQL, a dollar sign and the number on
PostgreSQL. -/
def numbered : Dialect → Nat → List Char
  | .mysql, _ => ['?']
  | .postgresql, n => '$' :: (toString n).toList

theorem numbered_eq (d : Dialect) : (fun n => (d.placeholder n).toList) = numbered d := by
  funext n
  cases d
  · show "?".toList = ['?']
    decide
  · rw [Dialect.placeholder, String.toList_append]
    rfl

theorem toList_writePlaceholders (d : Dialect) (sql : String) :
    (d.writePlaceholders sql).toList = replacePlaceholders (numbered d) none 0 sql.toList := by
  rw [Dialect.writePlaceholders, String.toList_ofList, numbered_eq]

/-- The statement of a query has a placeholder for each of its values, numbered in the order of the
text. Each expression of the query stands in it after those before it and before those after it:
its placeholders go on from the count of values before it, and its values follow these. -/
structure BindsInOrder (d : Dialect) (q : Query) (st : Statement) : Prop where
  params : st.params = q.render.params
  whole : Written (numbered d) 0 q.render st.sql.toList
  each : ∀ (left right : List Fragment) (e : Fragment), q.expressions = left ++ e :: right →
    ∃ before after : Fragment,
      before.params = left.flatMap Fragment.params ∧
      after.params = right.flatMap Fragment.params ∧
      q.render = before ++ e ++ after ∧
      ∃ l own r : List Char, st.sql.toList = l ++ own ++ r ∧
        Written (numbered d) 0 before l ∧
        Written (numbered d) before.params.length e own ∧
        Written (numbered d) (before.params.length + e.params.length) after r

/-- A sound query has a statement that binds in order. -/
theorem bindsInOrder_render (d : Dialect) {q : Query} (h : q.Sound) :
    BindsInOrder d q ⟨d.writePlaceholders q.render.sql, q.render.params⟩ := by
  obtain ⟨ht, he⟩ := (sound_iff q).mp h
  have hlaid : Laid q.expressions q.render := q.laid_render ht
  refine ⟨rfl, ?_, ?_⟩
  · rw [toList_writePlaceholders]
    exact written_of_aligned _ _ h.aligned_render
  · intro left right e hsplit
    obtain ⟨before, after, hrender, hleft, hright⟩ := hlaid.split hsplit
    have hb : before.Aligned := hleft.aligned fun x hx => he x (by simp [hsplit, hx])
    have ha : after.Aligned := hright.aligned fun x hx => he x (by simp [hsplit, hx])
    have hown : e.Aligned := he e (by simp [hsplit])
    refine ⟨before, after, hleft.params_eq, hright.params_eq, hrender, _, _, _, ?_,
      written_of_aligned _ _ hb, written_of_aligned _ _ hown, written_of_aligned _ _ ha⟩
    -- the scan enters each part outside quotes, with the count of the placeholders before it
    have hbe : (before ++ e).Aligned := hb.append hown
    have hcount : QuoteState.placeholders none before.sql.toList = before.params.length := hb.2
    have hcount' : QuoteState.placeholders none (before ++ e).sql.toList =
        before.params.length + e.params.length := by
      rw [← List.length_append]
      exact hbe.2
    rw [toList_writePlaceholders, hrender, Fragment.sql_append, String.toList_append,
      replacePlaceholders_append, hbe.1, hcount', Fragment.sql_append, String.toList_append,
      replacePlaceholders_append, hb.1, hcount, Nat.zero_add, Nat.zero_add]

/-! ## Compiled queries -/

namespace Compiler

theorem statement_bindsInOrder {c : Compiler} {d : Dialect} (hd : c.dialect = .ok d)
    (ht : c.table.InertNames) {q : Query} (hq : q.Sound) (mode : ProjectionMode) :
    ∃ st, c.statement mode q = .ok st ∧ BindsInOrder d (c.projected d mode q) st :=
  ⟨_, statement_eq hd mode q,
    bindsInOrder_render d (Projection.sound_project ht (hq.readingFrom ht.1))⟩

/-- Searches keep the query of a compiler sound. -/
theorem Searched.sound {c c' : Compiler} (h : c.Searched c') (ht : c.table.InertNames)
    (hq : c.query.Sound) : c'.query.Sound := by
  have hboth : c'.table = c.table ∧ c'.query.Sound := by
    refine h.preserves (P := fun x => x.table = c.table ∧ x.query.Sound) ?_ ⟨rfl, hq⟩
    rintro x s d _ ha ⟨htable, hx⟩
    refine ⟨htable, ?_⟩
    have hname : Inert x.table.name.toList := htable ▸ ht.1
    exact (hx.readingFrom hname).restrict d (inert_of_isAttribute ha)
  exact hboth.2

/-- **Placeholders and values never drift apart.** Take a supported driver, a table with inert
names, and a query all of whose texts are inert and all of whose expressions are closed with a
placeholder for each value. After any number of successful searches the query compiles in every mode
and style, and so does the scalar query of an inert expression; each statement has a placeholder for
each of its values, and the placeholders of each expression carry the numbers of its values. -/
theorem searched_compile_bindsInOrder {c₀ c : Compiler} {d : Dialect} (hd : c₀.dialect = .ok d)
    (ht : c₀.table.InertNames) (htexts : ∀ s ∈ c₀.query.texts, Inert s.toList)
    (hexpressions : ∀ e ∈ c₀.query.expressions, e.Aligned) (hs : c₀.Searched c) :
    (∀ mode, ∃ st, c.compileIn mode = .ok st ∧
      BindsInOrder d (c.projected d mode c.query) st) ∧
    ∀ expression : String, Inert expression.toList → ∃ st, c.compileScalar expression = .ok st ∧
      BindsInOrder d (c.projected d c.mode (c.scalarForm expression)) st := by
  have hsound : c.query.Sound := hs.sound ht ((sound_iff _).mpr ⟨htexts, hexpressions⟩)
  have hframe := hs.frame
  have hd' : c.dialect = .ok d := by rw [hframe]; exact hd
  have ht' : c.table.InertNames := by rw [hframe]; exact ht
  exact ⟨fun mode => statement_bindsInOrder hd' ht' hsound mode,
    fun expression he => statement_bindsInOrder hd' ht' (sound_scalarForm ht' hsound he) c.mode⟩

/-- Cafes and open bars, with question marks inside quotes. -/
def cafes : Compiler where
  query := {
    select := [.column "p.*" none, .expression ⟨"rating + ?", [.int 1]⟩ (some "'score?'")]
    source := some (.derived {
      source := some (.table "places p" none)
      condition := some ⟨"kind = ? AND name <> '?'", [.text "cafe"]⟩ } "p")
    unions := [⟨true, {
      source := some (.table "bars" none)
      condition := some ⟨"open = ?", [.bool true]⟩ }⟩] }
  table := ⟨"places", [⟨"id", "int", false⟩, ⟨"geom", "point", false⟩]⟩
  driver := "pgsql"

/-- The cafes and bars within a hundred kilometres. -/
def nearCafes : Search := { origin := ⟨Binary64.ofInt 10, Binary64.ofInt 20⟩, column := "p.geom" }

theorem cafes_bindsInOrder :
    cafes.dialect = .ok .postgresql ∧ cafes.table.InertNames ∧
      (∀ s ∈ cafes.query.texts, Inert s.toList) ∧ (∀ e ∈ cafes.query.expressions, e.Aligned) ∧
      Inert "COUNT(*)".toList ∧
      ∃ c, cafes.Searched c ∧
        (∃ st, c.compileIn .normal = .ok st ∧
          BindsInOrder .postgresql (c.projected .postgresql .normal c.query) st) ∧
        ∃ st, c.compileScalar "COUNT(*)" = .ok st ∧
          BindsInOrder .postgresql (c.projected .postgresql c.mode (c.scalarForm "COUNT(*)"))
            st := by
  have hd : cafes.dialect = .ok .postgresql := rfl
  have ht : cafes.table.InertNames := by decide
  have htexts : ∀ s ∈ cafes.query.texts, Inert s.toList := by decide
  have hexpressions : ∀ e ∈ cafes.query.expressions, e.Aligned := by decide
  have hcount : Inert "COUNT(*)".toList := by decide
  have hrun : (search nearCafes).run cafes =
      .ok () (restrict nearCafes .postgresql cafes.fillSource) := by
    rw [search_run, checkSearch_ok hd (by decide)]
  have hs : cafes.Searched _ := .search nearCafes .refl hrun
  obtain ⟨hcompile, hscalar⟩ := searched_compile_bindsInOrder hd ht htexts hexpressions hs
  exact ⟨hd, ht, htexts, hexpressions, hcount, _, hs, hcompile .normal, hscalar _ hcount⟩

end Compiler

end PointQuery
