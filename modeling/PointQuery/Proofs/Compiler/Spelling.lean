import PointQuery.Proofs.Compiler.Scalar
import PointQuery.Proofs.Projection.Nesting
import PointQuery.Proofs.Search.Calls
import PointQuery.Proofs.Text.Trim
/-!
# The two spellings of an alias

An alias can stand in the text of a table, behind its name, or beside the text. A word at the end of
a text is found again as the alias: `tableAlias_word`. So a query that reads a table is visible
under the same name in both spellings, and since they are written alike, what is compiled is the
same: `Respelled` relates the two queries, and each step of compiling keeps it.
-/

namespace PointQuery

open Sql

/-! ## A word at the end of a text -/

namespace Sql

variable {cs ws : List Char} {b : Char}

theorem tableAliasChars_of_word (h : ∀ c ∈ ws, Text.isBlank c = false) :
    tableAliasChars ws = ws := by
  have hall : ∀ c ∈ ws.reverse, (!Text.isBlank c) = true := by
    intro c hc
    rw [h c (List.mem_reverse.mp hc)]
    rfl
  rw [tableAliasChars, List.takeWhile_eq_self_iff.mpr hall]
  simp

/-- The word after the last blank is the alias, if no line ends before it. -/
theorem tableAliasChars_append (hline : '\n' ∉ cs) (hb : Text.isBlank b = true)
    (hword : ∀ c ∈ ws, Text.isWord c = true) : tableAliasChars (cs ++ b :: ws) = ws := by
  have hall : ∀ c ∈ ws.reverse, (!Text.isBlank c) = true := by
    intro c hc
    rw [Text.not_isBlank_of_isWord (hword c (List.mem_reverse.mp hc))]
    rfl
  have hreverse : (cs ++ b :: ws).reverse = ws.reverse ++ b :: cs.reverse := by simp
  have htake : (cs ++ b :: ws).reverse.takeWhile (fun c => !Text.isBlank c) = ws.reverse := by
    rw [hreverse, List.takeWhile_append_of_pos hall]
    simp [hb]
  have hdrop : (cs ++ b :: ws).reverse.dropWhile (fun c => !Text.isBlank c) = b :: cs.reverse := by
    rw [hreverse, List.dropWhile_append_of_pos hall]
    simp [hb]
  have hbefore : '\n' ∉ (b :: cs.reverse).dropWhile Text.isBlank := by
    rw [List.dropWhile_cons_of_pos hb]
    exact fun hmem => hline (List.mem_reverse.mp ((List.dropWhile_suffix _).subset hmem))
  rw [tableAliasChars, htake, hdrop, List.reverse_reverse]
  refine if_pos ⟨?_, List.all_eq_true.mpr hword, hbefore⟩
  simp only [List.length_append, List.length_cons]
  omega

/-- A word at the end of the text of a table is the name under which the table is visible. -/
theorem tableAlias_word {n w : String} (hline : '\n' ∉ n.toList) (hne : w ≠ "")
    (hword : ∀ c ∈ w.toList, Text.isWord c = true) : tableAlias (n ++ " " ++ w) = w := by
  have hchars : w.toList ≠ [] := by simpa using hne
  have hplain : ∀ c ∈ w.toList, Text.isBlank c = false :=
    fun c hc => Text.not_isBlank_of_isWord (hword c hc)
  have hspace : Text.isBlank ' ' = true := by decide
  have htext : (n ++ " " ++ w).toList = n.toList ++ ' ' :: w.toList := by simp
  rw [tableAlias, htext, Text.trimChars, List.dropWhile_append]
  split
  · -- nothing but blanks before the word
    obtain ⟨c, rest, hw⟩ := List.exists_cons_of_ne_nil hchars
    have hfirst : ¬ Text.isBlank c = true := by simp [hplain c (hw ▸ List.mem_cons_self)]
    have hdrop : (' ' :: w.toList).dropWhile Text.isBlank = w.toList := by
      rw [List.dropWhile_cons_of_pos hspace, hw, List.dropWhile_cons_of_neg hfirst]
    rw [hdrop, ← List.nil_append w.toList, Text.dropBlankEnd_append hchars hplain,
      List.nil_append, tableAliasChars_of_word hplain, String.ofList_toList]
  · have hfront : '\n' ∉ n.toList.dropWhile Text.isBlank :=
      fun hmem => hline ((List.dropWhile_suffix _).subset hmem)
    have hsplit (front : List Char) : front ++ ' ' :: w.toList = front ++ [' '] ++ w.toList := by
      simp
    rw [hsplit, Text.dropBlankEnd_append hchars hplain, ← hsplit,
      tableAliasChars_append hfront hspace hword, String.ofList_toList]

example : tableAlias " places  AS\u00a0p " = "p" ∧ tableAlias "a b-c" = "a b-c" := by decide

end Sql

/-! ## Queries in the two spellings -/

/-- The same query, but for the spelling of the table at its innermost level: `n` with the alias
`w` in one text, or the alias beside the text. -/
inductive Respelled (n w : String) : Query → Query → Prop where
  | table (q : Query) :
      Respelled n w (q.edit (.readTable (n ++ " " ++ w) none)) (q.edit (.readTable n (some w)))
  | derived (q : Query) (label : String) {inner inner' : Query} : Respelled n w inner inner' →
      Respelled n w (q.edit (.readDerived inner label)) (q.edit (.readDerived inner' label))

namespace Respelled

variable {n w : String} {q q' : Query}

/-- A change to other clauses keeps the spellings apart from each other in the source only. -/
theorem map (h : Respelled n w q q') {f : Query → Query}
    (hf : ∀ (q : Query) (source : Source Query),
      f { q with source := some source } = { f q with source := some source }) :
    Respelled n w (f q) (f q') := by
  cases h with
  | table q =>
      have hstep := table (n := n) (w := w) (f q)
      rwa [Query.edit, Query.edit, ← hf, ← hf] at hstep
  | derived q label h =>
      have hstep := derived (f q) label h
      rwa [Query.edit, Query.edit, ← hf, ← hf] at hstep

/-- Both spellings are written alike. -/
theorem render (h : Respelled n w q q') : q.render = q'.render := by
  induction h with
  | table q =>
      obtain ⟨select, source, joins, condition, groupBy, orderBy, limit, offset, distinct,
        unions⟩ := q
      simp only [Query.edit, Query.render, renderSource, String.append_assoc]
  | derived q label _ ih =>
      obtain ⟨select, source, joins, condition, groupBy, orderBy, limit, offset, distinct,
        unions⟩ := q
      simp only [Query.edit, Query.render, renderSource, ih]

theorem readsDerived_eq (h : Respelled n w q q') : q'.readsDerived = q.readsDerived := by
  cases h with
  | table q => rfl
  | derived q label h => rfl

/-- Neither query needs a source. -/
theorem readingFrom (h : Respelled n w q q') (table : String) :
    Respelled n w (q.readingFrom table) (q'.readingFrom table) := by
  cases h with
  | table q => exact .table q
  | derived q label h => exact .derived q label h

/-! ### Searching -/

theorem restrict (h : Respelled n w q q') (s : Search) (d : Dialect) :
    Respelled n w (s.restrict d q) (s.restrict d q') :=
  .derived (s.restrict d q) distanceAlias (h.map (f := s.measure d) fun _ _ => rfl)

theorem searched (h : Respelled n w q q') (c : Compiler) (calls : List Action) :
    Respelled n w (calls.foldl c.queryAfter q) (calls.foldl c.queryAfter q') := by
  induction calls generalizing q q' with
  | nil => exact h
  | cons call calls ih =>
      refine ih ?_
      rcases c.queryAfter_cases call with ⟨-, hnone⟩ | ⟨s, d, hsearch⟩
      · rwa [hnone, hnone]
      · rw [hsearch, hsearch]
        exact (h.readingFrom _).restrict s d

/-! ### Projecting -/

/-- Both levels see their tables under the same names. -/
theorem visible_eq (h : Respelled n w q q') (halias : tableAlias (n ++ " " ++ w) = w) (t : Table) :
    Visible.ofLevel q' t = Visible.ofLevel q t := by
  cases h with
  | table q => exact congrArg (Visible.mk · q.joinAliases) halias.symm
  | derived q label h => rfl

theorem projectLevel (h : Respelled n w q q') (halias : tableAlias (n ++ " " ++ w) = w)
    (p : Projection) (style : ProjectionStyle) :
    Respelled n w (p.projectLevel style q) (p.projectLevel style q') := by
  rw [Projection.projectLevel, Projection.projectLevel, h.visible_eq halias]
  exact h.map (f := fun q' => { q' with
    select := p.projectSelect (.ofLevel q p.table) style q'.select }) fun _ _ => rfl

theorem mapInnermost (h : Respelled n w q q') {f : Query → Query}
    (hf : ∀ {q q' : Query}, Respelled n w q q' → Respelled n w (f q) (f q')) :
    Respelled n w (q.mapInnermost f) (q'.mapInnermost f) := by
  induction h with
  | table q =>
      rw [Query.mapInnermost_of_level rfl, Query.mapInnermost_of_level rfl]
      exact hf (.table q)
  | derived q label _ ih =>
      rw [Query.mapInnermost_of_derived (q := q.edit _) rfl,
        Query.mapInnermost_of_derived (q := q.edit _) rfl]
      exact .derived q label ih

theorem project (h : Respelled n w q q') (halias : tableAlias (n ++ " " ++ w) = w)
    (p : Projection) (style : ProjectionStyle) (mode : ProjectionMode) :
    Respelled n w (p.project style mode q) (p.project style mode q') := by
  rw [Projection.project.eq_def, Projection.project.eq_def, h.readsDerived_eq]
  split
  · exact h
  · split
    · exact h.mapInnermost fun h => h.projectLevel halias p .replace
    · cases mode with
      | normal => exact h.projectLevel halias p style
      | suppressed => exact h

/-! ### Compiling -/

theorem statement_eq (h : Respelled n w q q') (halias : tableAlias (n ++ " " ++ w) = w)
    (c : Compiler) (mode : ProjectionMode) : c.statement mode q = c.statement mode q' := by
  cases hd : c.dialect with
  | error e => rw [Compiler.statement_error hd, Compiler.statement_error hd]
  | ok d =>
      have hprojected : Respelled n w (c.projected d mode q) (c.projected d mode q') :=
        (h.readingFrom _).project halias _ _ _
      rw [Compiler.statement_eq hd, Compiler.statement_eq hd, hprojected.render]

theorem keepsRows_eq (h : Respelled n w q q') :
    Compiler.keepsRows q' = Compiler.keepsRows q := by
  cases h with
  | table q => rfl
  | derived q label h => rfl

theorem scalarForm (h : Respelled n w q q') (c : Compiler) (expression : String) :
    Respelled n w (({ c with query := q } : Compiler).scalarForm expression)
      (({ c with query := q' } : Compiler).scalarForm expression) := by
  have hfilled := h.readingFrom c.table.name
  rw [Compiler.scalarForm, Compiler.scalarForm]
  simp only [hfilled.keepsRows_eq]
  split
  · exact hfilled.map (f := fun q => { q with
      select := [.raw expression], orderBy := [], limit := none, offset := none }) fun _ _ => rfl
  · exact .derived { select := [.raw expression] } Compiler.scalarAlias hfilled

end Respelled

namespace Compiler

/-- **The two spellings of an alias are interchangeable.** Take a compiler of any query that reads
a table: the text `n` with the word `w` as its alias, in one text or beside it. Whatever searches
are asked for, whether they fail, are left out or take effect, both compilers answer the same, and
then compile to the same statement in every mode, as a query and as a scalar query. And a joined
table is visible under the word at the end of its text, with `AS` before it or without. The text
must not hold the end of a line, which hides the word. -/
theorem aliasSpellings_interchangeable (c : Compiler) {n w : String} (hline : '\n' ∉ n.toList)
    (hne : w ≠ "") (hword : ∀ ch ∈ w.toList, Text.isWord ch = true) :
    let together := { c with query := c.query.edit (.readTable (n ++ " " ++ w) none) }
    let apart := { c with query := c.query.edit (.readTable n (some w)) }
    (∀ calls : List Action, (∀ call ∈ calls, call.isSearch = true) →
      (together.runAll calls).1.map Report.answer = (apart.runAll calls).1.map Report.answer ∧
        let c₁ := (together.runAll calls).2
        let c₂ := (apart.runAll calls).2
        c₁.compile = c₂.compile ∧ (∀ mode, c₁.compileIn mode = c₂.compileIn mode) ∧
          ∀ expression, c₁.compileScalar expression = c₂.compileScalar expression) ∧
    ∀ (q : Query) (t : Table) (kind : JoinKind) (condition : String),
      ∀ table ∈ [n ++ " " ++ w, n ++ " AS " ++ w],
        (Visible.ofLevel (q.edit (.join kind table condition)) t).joined =
          (Visible.ofLevel q t).joined ++ [w] := by
  intro together apart
  have halias : tableAlias (n ++ " " ++ w) = w := tableAlias_word hline hne hword
  constructor
  · intro calls hcalls
    obtain ⟨hanswers, hafter⟩ := runAll_searches hcalls c together.query
    obtain ⟨hanswers', hafter'⟩ := runAll_searches hcalls c apart.query
    refine ⟨hanswers.trans hanswers'.symm, ?_⟩
    have hrespelled : Respelled n w (calls.foldl c.queryAfter together.query)
        (calls.foldl c.queryAfter apart.query) := (Respelled.table c.query).searched c calls
    intro c₁ c₂
    rw [show c₁ = _ from hafter, show c₂ = _ from hafter']
    refine ⟨hrespelled.statement_eq halias c _, ?_, ?_⟩
    · intro mode
      exact hrespelled.statement_eq halias c mode
    · intro expression
      exact (hrespelled.scalarForm c expression).statement_eq halias c _
  · intro q t kind condition table htable
    have hjoined : tableAlias table = w := by
      rcases List.mem_pair.mp htable with rfl | rfl
      · exact halias
      · have has : '\n' ∉ (n ++ " AS").toList := by simpa using hline
        have htext : n ++ " AS " ++ w = n ++ " AS" ++ " " ++ w := by
          simp [String.append_assoc]
        rw [htext, tableAlias_word has hne hword]
    simp [Visible.ofLevel, Query.edit, Query.joinAliases, hjoined]

/-- The studios that are open, with their owners, five at most; what they are read from is left
open. -/
def studios : Compiler where
  query :=
    { joins := [⟨.left, "owners AS o", "o.id = s_1.owner"⟩]
      condition := some (.equals "s_1.open" (.bool true))
      limit := some 5 }
  table := ⟨"studios", [⟨"id", "int", false⟩, ⟨"geom", "point", false⟩]⟩
  driver := "mysql"

/-- Three searches of which the first is left out, the second takes effect and the third fails. -/
def studioCalls : List Action :=
  [.searchNear "nowhere" "geom" (.ofInt 5) .kilometer,
    .search { origin := ⟨.ofInt 10, .ofInt 20⟩, column := "s_1.geom" },
    .search { origin := ⟨.ofInt 10, .ofInt 20⟩, column := "geom) --" }]

theorem studios_aliasSpellings :
    let n := " city.studios\tAS"
    let together :=
      { studios with query := studios.query.edit (.readTable (n ++ " " ++ "s_1") none) }
    let apart := { studios with query := studios.query.edit (.readTable n (some "s_1")) }
    '\n' ∉ n.toList ∧ "s_1" ≠ "" ∧ (∀ ch ∈ "s_1".toList, Text.isWord ch = true) ∧
      (∀ call ∈ studioCalls, call.isSearch = true) ∧
      (together.runAll studioCalls).1.map Report.answer =
        (apart.runAll studioCalls).1.map Report.answer ∧
      (together.runAll studioCalls).2.compileIn .suppressed =
        (apart.runAll studioCalls).2.compileIn .suppressed ∧
      (together.runAll []).2.compileScalar "COUNT(*)" =
        (apart.runAll []).2.compileScalar "COUNT(*)" := by
  intro n together apart
  have hline : '\n' ∉ n.toList := by decide
  have hword : ∀ ch ∈ "s_1".toList, Text.isWord ch = true := List.all_eq_true.mp (by decide)
  have hcalls : ∀ call ∈ studioCalls, call.isSearch = true := by decide
  obtain ⟨hsame, -⟩ := aliasSpellings_interchangeable studios hline (by decide) hword
  obtain ⟨hanswers, -, hmodes, -⟩ := hsame studioCalls hcalls
  obtain ⟨-, -, -, hscalar⟩ := hsame [] (by simp)
  exact ⟨hline, by decide, hword, hcalls, hanswers, hmodes .suppressed, hscalar "COUNT(*)"⟩

end Compiler

end PointQuery
